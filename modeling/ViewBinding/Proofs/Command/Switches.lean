import ViewBinding.Proofs.Command.Issues

/-!
# Verbosity and strictness

Remarks are made whether or not they are wanted; verbosity only decides which of them are printed.
Strictness only decides how much a dropped marker weighs. So with either switch a run finds, writes
and says the same as without it.
-/

namespace ViewBinding

namespace Issue

/-- The issue, with this weight if it is a dropped marker. -/
def weighing (severity : Severity) : Issue → Issue
  | droppedMarker marker element owner _ => droppedMarker marker element owner severity
  | i => i

/-- An issue stays under its rule, whatever it weighs. -/
@[simp] theorem rule_weighing (severity : Severity) (i : Issue) :
    (i.weighing severity).rule = i.rule := by
  cases i <;> rfl

/-- Every issue that weighs as an error is one. -/
theorem severity_weighing_error (i : Issue) : (i.weighing .error).severity = .error := by
  cases i <;> rfl

/-- Grouping does not look at weights. -/
theorem grouped_map_weighing (severity : Severity) (issues : List Issue) :
    grouped (issues.map (weighing severity)) = (grouped issues).map (weighing severity) := by
  unfold grouped
  rw [List.map_mergeSort]
  intro a _ b _
  rw [rule_weighing, rule_weighing]

end Issue

/-- The outcome, with this weight on dropped markers. -/
def Outcome.weighing (severity : Severity) (o : Outcome) : Outcome :=
  { o with issues := o.issues.map (Issue.weighing severity) }

/-- The run, with this weight on dropped markers. -/
def Run.weighing (severity : Severity) (r : Run) : Run :=
  { r with result := r.result.map (·.weighing severity) }

/-- What a run says it has done does not depend on how its issues weigh. -/
theorem Run.map_summary_weighing (severity : Severity) (r : Run) :
    (r.weighing severity).result.map (·.summary) = r.result.map (·.summary) := by
  unfold weighing
  cases r.result <;> rfl

/-- An outcome is put together before or after its issues are weighed. -/
theorem Outcome.finish_map_weighing (severity : Severity) (summary : Summary)
    (found : List Issue) :
    finish summary (found.map (Issue.weighing severity)) =
      (finish summary found).weighing severity :=
  congrArg (Outcome.mk summary) (Issue.grouped_map_weighing severity found)

/-- A strict round finds the issues of a lax one, and dropped markers weigh as errors. -/
theorem LoadedRound.issues_strict (round : LoadedRound) (strict : Bool) (report : EmitReport) :
    round.issues true report = (round.issues strict report).map (Issue.weighing .error) := by
  unfold issues
  rw [List.map_append, List.map_append, List.map_map, List.map_map, List.map_map]
  rfl

namespace Outcome

variable (o : Outcome)

/-- Where dropped markers weigh as errors, every issue is an error. -/
theorem errorCount_weighing_error :
    (o.weighing .error).errorCount = o.errorCount + o.warningCount := by
  rw [errorCount_add_warningCount]
  have hall : ∀ i ∈ (o.weighing .error).issues, (i.severity == .error) = true := by
    intro i hi
    obtain ⟨j, -, rfl⟩ := List.mem_map.mp hi
    rw [Issue.severity_weighing_error]
    rfl
  rw [errorCount, Issue.errorCount, List.countP_eq_length.mpr hall, weighing, List.length_map]

/-- Where dropped markers weigh as errors, there are no warnings. -/
theorem warningCount_weighing_error : (o.weighing .error).warningCount = 0 := by
  have hlength : (o.weighing .error).issues.length = o.issues.length := List.length_map ..
  have hcount := o.errorCount_add_warningCount
  rw [warningCount, errorCount_weighing_error, hlength]
  omega

/-- Where dropped markers weigh as errors, any issue makes the command fail. -/
theorem status_weighing_error : (o.weighing .error).status = .failure ↔ o.issues ≠ [] := by
  rw [status_eq_failure_iff]
  constructor
  · rintro ⟨i, hi, -⟩ hnil
    rw [weighing, hnil] at hi
    exact absurd hi List.not_mem_nil
  · intro hne
    obtain ⟨i, hi⟩ := List.exists_mem_of_ne_nil _ hne
    exact ⟨_, List.mem_map_of_mem hi, i.severity_weighing_error⟩

end Outcome

namespace Workspace

variable (w : Workspace) (o : GenerateOptions)

/-- A run does not look at the verbosity. -/
theorem generate_verbose (verbose : Bool) : w.generate { o with verbose } = w.generate o := rfl

/-- A plan does not look at the strictness. -/
theorem plan_strict (strict : Bool) : w.plan { o with strict } = w.plan o := rfl

/-- How a run ends that loads a round as planned. -/
theorem generate_eq_of_loadRound {planNotes roundNotes : List Note} {plan : Plan}
    {round : LoadedRound} (hplan : w.plan o = (planNotes, .ok plan))
    (hround : w.loadRound plan.files = (roundNotes, .ok round)) :
    w.generate o =
      { notes := planNotes ++ roundNotes ++
          [.collected round.program.round.collect.bindings.length round.program.classes.length]
        result := .ok (.finish (o.summary plan round (w.emitRound o plan round).1)
          (round.issues (o.isStrict plan) (w.emitRound o plan round).1))
        workspace := (w.emitRound o plan round).2 } := by
  unfold generate
  rw [hplan]
  simp only [hround]
  rfl

/-- A strict run is a lax one whose dropped markers weigh as errors. -/
theorem generate_strict :
    w.generate { o with strict := true } =
      (w.generate { o with strict := false }).weighing .error := by
  rcases hplan : w.plan { o with strict := false } with ⟨planNotes, fault | plan⟩
  · have hstrict := (w.plan_strict { o with strict := false } true).trans hplan
    unfold generate
    rw [hplan, hstrict]
    rfl
  · have hstrict := (w.plan_strict { o with strict := false } true).trans hplan
    rcases hround : w.loadRound plan.files with ⟨roundNotes, fault | round⟩
    · unfold generate
      rw [hplan, hstrict]
      simp only [hround]
      rfl
    · rw [w.generate_eq_of_loadRound _ hplan hround, w.generate_eq_of_loadRound _ hstrict hround]
      have hweight : GenerateOptions.isStrict { o with strict := true } plan = true :=
        Bool.or_true _
      rw [hweight, round.issues_strict (GenerateOptions.isStrict { o with strict := false } plan),
        Outcome.finish_map_weighing]
      rfl

end Workspace

/-- The issues that a run ends with; none if a fault stopped it. -/
def Run.issues (r : Run) : List Issue :=
  match r.result with
  | .error _ => []
  | .ok outcome => outcome.issues

/-- The lines on what a run has written; none if a fault stopped it. -/
def Run.writtenLines (r : Run) (styled : Bool) : String :=
  match r.result with
  | .error _ => ""
  | .ok outcome => Report.writtenLines styled outcome.summary

/-- A fault is told among the errors, so it leaves the output alone. -/
theorem Finished.output_allPrinted (f : Finished) : f.allPrinted.output = f.printed.output := by
  unfold allPrinted
  cases f.result <;> rfl

/-- A run prints its remarks as far as they are wanted, then its issues, and then, if remarks are
wanted, what it has written. -/
theorem Report.errors_run_eq (styled verbose : Bool) (r : Run) :
    (Report.run styled verbose r).errors =
      Report.notes styled verbose r.notes ++ Report.issues styled r.issues ++
        if verbose then r.writtenLines styled else "" := by
  unfold Report.run Run.issues Run.writtenLines
  cases r.result with
  | error fault => simp [Report.issues]
  | ok outcome => rfl

/-- Neither switch changes what is generated. With remarks wanted or not, a run does all the same
and ends the same, with the same tree, the same output and the same issues; only the remarks among
the errors differ, and the lines on what was written. Strict or not, it makes the same remarks,
leaves the same tree and prints the same output. It is stopped by the same fault, or it says that it
has done the same and has the same issues in the same order, where in the strict run dropped markers
weigh as errors: so its errors are all problems of the other run, it has no warnings, and it fails
exactly if there is any issue. -/
theorem run_switches (w : Workspace) (o : GenerateOptions) (styled : Bool) :
    let generated (verbose strict : Bool) : Run := w.generate { o with verbose, strict }
    let run (verbose strict : Bool) : Finished :=
      w.run styled (some (.generate { o with verbose, strict }))
    (∀ strict,
      (run true strict).result = (run false strict).result ∧
      (run true strict).workspace = (run false strict).workspace ∧
      (run true strict).allPrinted.output = (run false strict).allPrinted.output ∧
      (generated true strict).issues = (generated false strict).issues ∧
      ∀ verbose, (run verbose strict).printed.errors =
        Report.notes styled verbose (generated false strict).notes ++
          Report.issues styled (generated false strict).issues ++
          if verbose then (generated false strict).writtenLines styled else "") ∧
    ∀ verbose,
      (run verbose true).workspace = (run verbose false).workspace ∧
      (run verbose true).allPrinted.output = (run verbose false).allPrinted.output ∧
      (generated verbose true).notes = (generated verbose false).notes ∧
      ((∃ fault, (run verbose true).result = .error fault ∧
          (run verbose false).result = .error fault) ∨
        ∃ strict lax, (generated verbose true).result = .ok strict ∧
          (generated verbose false).result = .ok lax ∧
          (run verbose true).result = .ok strict.status ∧
          (run verbose false).result = .ok lax.status ∧
          strict.summary = lax.summary ∧
          strict.issues = lax.issues.map (Issue.weighing .error) ∧
          strict.errorCount = lax.errorCount + lax.warningCount ∧
          strict.warningCount = 0 ∧
          (strict.status = .failure ↔ lax.issues ≠ [])) := by
  intro generated run
  have hrun : ∀ verbose strict, run verbose strict =
      (generated verbose strict).finished styled verbose := fun _ _ => rfl
  have hverbose : ∀ verbose strict, generated verbose strict = generated false strict :=
    fun verbose strict => w.generate_verbose { o with verbose := false, strict } verbose
  have hstrict : ∀ verbose, generated verbose true = (generated verbose false).weighing .error :=
    fun verbose => w.generate_strict { o with verbose }
  -- From here on a run is only looked at through what it generates.
  clear_value generated run
  have houtput : ∀ verbose strict, (run verbose strict).allPrinted.output =
      (Report.run styled verbose (generated verbose strict)).output := by
    intro verbose strict
    rw [Finished.output_allPrinted, hrun, Run.finished]
  refine ⟨fun strict => ⟨?_, ?_, ?_, ?_, fun verbose => ?_⟩, fun verbose => ⟨?_, ?_, ?_, ?_⟩⟩
  · rw [hrun, hrun, hverbose true strict, Run.finished, Run.finished]
  · rw [hrun, hrun, hverbose true strict, Run.finished, Run.finished]
  · rw [houtput, houtput, hverbose true strict]
    exact Report.output_run_congr rfl styled true false
  · rw [hverbose true strict]
  · rw [hrun, ← hverbose verbose strict]
    exact Report.errors_run_eq styled verbose _
  · rw [hrun, hrun, hstrict, Run.weighing, Run.finished, Run.finished]
  · rw [houtput, houtput, hstrict]
    exact Report.output_run_congr (Run.map_summary_weighing ..) styled verbose verbose
  · rw [hstrict, Run.weighing]
  · rw [hrun, hrun, hstrict, Run.weighing, Run.finished, Run.finished]
    cases (generated verbose false).result with
    | error fault => exact .inl ⟨fault, rfl, rfl⟩
    | ok lax =>
      exact .inr ⟨lax.weighing .error, lax, rfl, rfl, rfl, rfl, rfl, rfl,
        lax.errorCount_weighing_error, lax.warningCount_weighing_error,
        lax.status_weighing_error⟩

end ViewBinding
