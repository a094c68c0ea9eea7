import Mathlib.Data.List.Sort
import ViewBinding.Model.Scan

/-!
# What a scan finds

The files of a scan are in strictly ascending order, so they are told by which files are among
them: a file is found exactly if it is at a stop of a walk from one of the roots and is not left
out.
-/

namespace ViewBinding

/-- Dropping repetitions from an ascending list leaves a strictly ascending one. -/
theorem pairwise_lt_eraseDups {names : List String} (h : names.Pairwise (· ≤ ·)) :
    names.eraseDups.Pairwise (· < ·) := by
  -- The recursion goes on with the rest without the first name, which may be shorter by many.
  induction hn : names.length using Nat.strong_induction_on generalizing names with
  | _ n ih =>
    cases names with
    | nil => exact List.Pairwise.nil
    | cons s names =>
      obtain ⟨hfirst, hrest⟩ := List.pairwise_cons.mp h
      have hshort : (names.filter fun t => !t == s).length < n := by
        have hle := List.length_filter_le (fun t => !t == s) names
        rw [List.length_cons] at hn
        omega
      rw [List.eraseDups_cons, List.pairwise_cons]
      refine ⟨fun t ht => ?_, ih _ hshort (hrest.filter _) rfl⟩
      obtain ⟨hmem, hne⟩ := List.mem_filter.mp (List.mem_eraseDups.mp ht)
      have hdiff : s ≠ t := fun he => by simp [he] at hne
      exact String.not_le.mp fun hle => hdiff (String.le_antisymm (hfirst t hmem) hle)

namespace Scan

/-- A stop has a model file if it is one that can be read as a file and is not left out. -/
theorem fileAt_eq_some_iff {w : Workspace} {ignores : Ignores} {stop : Stop} {file : String} :
    fileAt w ignores stop = some file ↔ stop = .visited ⟨file⟩ ∧ ignores.cover ⟨file⟩ = false ∧
      w.isFile ⟨file⟩ = true ∧ isModelFile ⟨file⟩ = true := by
  cases stop with
  | barred path fault => simp [fileAt]
  | visited path =>
    have hpath : path = ⟨file⟩ ↔ path.text = file :=
      ⟨fun h => congrArg Path.text h, fun h => congrArg Path.mk h⟩
    rw [Stop.visited.injEq, hpath]
    by_cases hcover : ignores.cover path = true
    · simp only [fileAt, hcover, if_true, reduceCtorEq, false_iff]
      rintro ⟨rfl, hnot, -⟩
      exact absurd (hcover.symm.trans hnot) (by decide)
    · by_cases hmodel : (w.isFile path && isModelFile path) = true
      · simp only [fileAt, hcover, hmodel, Bool.false_eq_true, if_false, if_true, Option.some.injEq]
        rw [Bool.and_eq_true] at hmodel
        constructor
        · rintro rfl
          exact ⟨rfl, by simpa using hcover, hmodel⟩
        · exact fun h => h.1
      · simp only [fileAt, hcover, hmodel, Bool.false_eq_true, if_false, reduceCtorEq, false_iff]
        rintro ⟨rfl, -, hfile, hname⟩
        exact hmodel (by rw [hfile, hname]; rfl)

section Roots

variable {w : Workspace} {base root : Path} {includes : List String}

/-- The paths that one include stands for: itself, or what it expands to. -/
theorem mem_readInclude_iff {s : String} : root ∈ (readInclude w base s).1 ↔
    (Glob.hasWildcard s = true ∧ ∃ pattern,
      Glob.PathPattern.parse (base.join s).text = .ok pattern ∧ root ∈ pattern.expand w ∧
        w.isDirectory root = true) ∨
    Glob.hasWildcard s = false ∧ w.holds (base.join s) = true ∧ root = base.join s := by
  unfold readInclude
  dsimp only
  cases Glob.hasWildcard s with
  | true =>
    cases hparse : Glob.PathPattern.parse (base.join s).text with
    | error e => simp
    | ok pattern => simp
  | false =>
    by_cases hholds : w.holds (base.join s) = true <;> simp [hholds]

/-- A walk starts from the base, or from what the includes stand for. -/
theorem mem_roots_iff : root ∈ (roots w base includes).1 ↔
    includes = [] ∧ root = base ∨ ∃ s ∈ includes, root ∈ (readInclude w base s).1 := by
  unfold roots
  cases includes with
  | nil => simp
  | cons s includes => simp

end Roots

end Scan

namespace Workspace

variable (w : Workspace) (base : Path) (includes ignores : List String)

/-- The files of a scan are in strictly ascending order. -/
theorem pairwise_files_scan : (w.scan base includes ignores).files.Pairwise (· < ·) := by
  refine pairwise_lt_eraseDups ?_
  refine List.Pairwise.imp of_decide_eq_true (List.pairwise_mergeSort ?_ ?_ _)
  · intro a b c hab hbc
    rw [decide_eq_true_eq] at *
    exact String.le_trans hab hbc
  · intro a b
    rw [Bool.or_eq_true, decide_eq_true_eq, decide_eq_true_eq]
    exact String.le_total a b

/-- A file is found exactly if a walk from a root visits it and it is not left out. -/
theorem mem_files_scan {file : String} : file ∈ (w.scan base includes ignores).files ↔
    (∃ root ∈ (Scan.roots w base includes).1, .visited ⟨file⟩ ∈ w.walk root) ∧
      (Scan.readIgnores base ignores).1.cover ⟨file⟩ = false ∧ w.isFile ⟨file⟩ = true ∧
      Scan.isModelFile ⟨file⟩ = true := by
  simp only [scan, List.mem_eraseDups, List.mem_mergeSort, List.mem_filterMap, List.mem_flatMap,
    Scan.fileAt_eq_some_iff]
  constructor
  · rintro ⟨stop, ⟨root, hroot, hstop⟩, rfl, hfile⟩
    exact ⟨⟨root, hroot, hstop⟩, hfile⟩
  · rintro ⟨⟨root, hroot, hstop⟩, hfile⟩
    exact ⟨_, ⟨root, hroot, hstop⟩, rfl, hfile⟩

/-- Scans that find the same files list them alike. -/
theorem files_scan_eq_of_mem_iff {w' : Workspace}
    (h : ∀ file, file ∈ (w'.scan base includes ignores).files ↔
      file ∈ (w.scan base includes ignores).files) :
    (w'.scan base includes ignores).files = (w.scan base includes ignores).files :=
  (w'.pairwise_files_scan base includes ignores).eq_of_mem_iff
    (w.pairwise_files_scan base includes ignores) h

end Workspace

end ViewBinding
