import ViewBinding.Config.Basic
import ViewBinding.Proofs.Glob.Reading
import ViewBinding.Proofs.Model.Narrowing

/-!
# Patterns of accepted configurations

A configuration is accepted if its patterns can be read, every one on its own. A scan reads ignores
in the same way and loses none of them. Includes it reads behind the base directory and component by
component, so one that was accepted is left out, with nothing but a remark, where a component of the
base is no pattern or a set of the include lists a slash.
-/

namespace ViewBinding

namespace Config

variable {c : Config} {setting s : String} {patterns : List String}

/-- A setting has no fault if its texts are patterns. -/
theorem findSome?_patternFault?_eq_none_iff : patterns.findSome? (patternFault? setting) = none ↔
    ∀ s ∈ patterns, Glob.IsPattern s := by
  rw [List.findSome?_eq_none_iff]
  refine forall₂_congr fun s _ => ?_
  unfold patternFault? Glob.IsPattern
  cases Glob.Pattern.parse s <;> simp

/-- A configuration is accepted if all its ignores are patterns, and all its includes with
wildcards. -/
theorem fault?_eq_none_iff : c.fault? = none ↔ (∀ s ∈ c.ignores, Glob.IsPattern s) ∧
    ∀ s ∈ c.includes, Glob.hasWildcard s = true → Glob.IsPattern s := by
  rw [fault?, Option.orElse_eq_none, findSome?_patternFault?_eq_none_iff,
    findSome?_patternFault?_eq_none_iff]
  simp only [List.mem_filter, and_imp]

end Config

namespace Scan

variable {w : Workspace} {base : Path} {s : String} {e : Glob.PatternError}
  {includes ignores : List String}

/-- Ignores with wildcards that are patterns are kept, in their order. -/
theorem forall₂_readIgnores (base : Path) (h : ∀ s ∈ ignores, Glob.IsPattern s) :
    List.Forall₂ (fun s p => Glob.Pattern.parse s = .ok p) (ignores.filter Glob.hasWildcard)
      (readIgnores base ignores).1.patterns := by
  induction ignores with
  | nil => exact .nil
  | cons s ignores ih =>
    rw [List.forall_mem_cons] at h
    obtain ⟨⟨p, hp⟩, hmore⟩ := h
    rw [List.filter_cons]
    unfold readIgnores
    split
    · simp only [hp]
      exact .cons hp (ih hmore)
    · exact ih hmore

/-- An ignore is remarked on if it has wildcards and is no pattern. -/
theorem invalidIgnore_mem_readIgnores_iff : .invalidIgnore s e ∈ (readIgnores base ignores).2 ↔
    s ∈ ignores ∧ Glob.hasWildcard s = true ∧ Glob.Pattern.parse s = .error e := by
  induction ignores with
  | nil => simp [readIgnores]
  | cons t ignores ih =>
    rw [List.mem_cons, or_and_right, ← ih, readIgnores]
    cases hwildcard : Glob.hasWildcard t with
    | false =>
      refine ⟨.inr, fun h => h.resolve_left ?_⟩
      rintro ⟨rfl, hyes, -⟩
      exact Bool.false_ne_true (hwildcard.symm.trans hyes)
    | true =>
      cases hparse : Glob.Pattern.parse t with
      | ok p =>
        refine ⟨.inr, fun h => h.resolve_left ?_⟩
        rintro ⟨rfl, -, herror⟩
        cases hparse.symm.trans herror
      | error e' =>
        refine List.mem_cons.trans (or_congr_left ?_)
        rw [Note.invalidIgnore.injEq]
        constructor
        · rintro ⟨rfl, rfl⟩
          exact ⟨rfl, hwildcard, hparse⟩
        · rintro ⟨rfl, -, herror⟩
          exact ⟨rfl, Except.error.inj (herror.symm.trans hparse)⟩

/-- An include is remarked on as no pattern if it has wildcards and its path is none. -/
theorem invalidInclude_mem_readInclude_iff {t : String} :
    .invalidInclude s e ∈ (readInclude w base t).2 ↔ s = t ∧ Glob.hasWildcard t = true ∧
      Glob.PathPattern.parse (base.join t).text = .error e := by
  unfold readInclude
  dsimp only
  split
  · rename_i hwildcard
    cases Glob.PathPattern.parse (base.join t).text with
    | ok p => simp
    | error e' => simp [hwildcard, eq_comm (a := e)]
  · split <;> simp_all

/-- The remarks of a scan are those on the ignores, on the includes, and on the way. -/
theorem mem_notes_scan {note : Note} (h : ∀ path fault, note ≠ .barred path fault) :
    note ∈ (w.scan base includes ignores).notes ↔
      note ∈ (readIgnores base ignores).2 ∨ ∃ s ∈ includes, note ∈ (readInclude w base s).2 := by
  have hbarred : ∀ stops : List Stop, note ∉ stops.filterMap noteAt := by
    intro stops hnote
    obtain ⟨stop, -, hstop⟩ := List.mem_filterMap.mp hnote
    cases stop with
    | barred path fault => exact h path fault (Option.some.inj hstop).symm
    | visited path => exact nomatch hstop
  have hroots : note ∈ (roots w base includes).2 ↔
      ∃ s ∈ includes, note ∈ (readInclude w base s).2 := by
    unfold roots
    split
    · simp_all
    · simp
  unfold Workspace.scan
  simp [hroots, hbarred]

/-- Reading an include remarks on no ignore. -/
theorem invalidIgnore_notMem_readInclude {t : String} :
    .invalidIgnore s e ∉ (readInclude w base t).2 := by
  unfold readInclude
  dsimp only
  split
  · split <;> simp
  · split <;> simp

/-- Reading ignores remarks on no include. -/
theorem invalidInclude_notMem_readIgnores : .invalidInclude s e ∉ (readIgnores base ignores).2 := by
  induction ignores with
  | nil => simp [readIgnores]
  | cons t ignores ih =>
    rw [readIgnores]
    cases Glob.hasWildcard t with
    | false => exact ih
    | true =>
      cases Glob.Pattern.parse t with
      | ok p => exact ih
      | error e' => exact fun h => ih ((List.mem_cons.mp h).resolve_left (by simp))

/-- The includes that a scan remarks on as no patterns. -/
theorem invalidInclude_mem_notes_iff :
    .invalidInclude s e ∈ (w.scan base includes ignores).notes ↔ s ∈ includes ∧
      Glob.hasWildcard s = true ∧ Glob.PathPattern.parse (base.join s).text = .error e := by
  rw [mem_notes_scan (by simp), or_iff_right invalidInclude_notMem_readIgnores]
  simp only [invalidInclude_mem_readInclude_iff]
  constructor
  · rintro ⟨t, ht, rfl, hread⟩
    exact ⟨ht, hread⟩
  · rintro ⟨hs, hread⟩
    exact ⟨s, hs, rfl, hread⟩

/-- Is an include expanded below a base? The components of the base have to be patterns, unless the
include replaces it, and no set of the include lists a slash. -/
structure Expandable (base : Path) (s : String) : Prop where
  base : s.toList.head? ≠ some '/' → ∀ piece ∈ Text.split '/' base.text, Glob.IsPattern piece
  sets : ∀ p, Glob.Pattern.parse s = .ok p → ∀ t ∈ p.tokens, t.lists '/' = false

/-- An include that is a pattern can be read below a base if it is expanded there. -/
theorem exists_pathPattern_iff_expandable (base : Path) (h : Glob.IsPattern s) :
    (∃ q, Glob.PathPattern.parse (base.join s).text = .ok q) ↔ Expandable base s := by
  rw [Glob.exists_pathPattern_join_iff, Glob.forall_isPattern_split_iff (s := s)]
  obtain ⟨p, hp⟩ := h
  constructor
  · rintro ⟨hbase, q, hq, hsets⟩
    refine ⟨hbase, fun p' hp' => ?_⟩
    obtain rfl := Except.ok.inj (hq.symm.trans hp')
    exact hsets
  · exact fun h => ⟨h.base, p, hp, h.sets p hp⟩

/-- One component is expanded below a base that is written without wildcards. -/
theorem Expandable.of_plain (hbase : ∀ c ∈ base.text.toList, Glob.IsPlain c)
    (hs : '/' ∉ s.toList) : Expandable base s where
  base _ _ hpiece :=
    ⟨_, Glob.parse_of_plain fun c hc => hbase c (Text.mem_of_mem_split hpiece hc)⟩
  sets _ hp := (Glob.parse_eq_ok_iff.mp hp).lists_eq_false hs

end Scan

/-- A scan keeps all ignores of an accepted configuration that have wildcards, and remarks on none.
An include with wildcards it reads without a fault, and remarks on none, exactly if it is expanded
below the base. -/
theorem scan_accepted (c : Config) (h : c.fault? = none) (w : Workspace) (base : Path) :
    List.Forall₂ (fun s p => Glob.Pattern.parse s = .ok p) (c.ignores.filter Glob.hasWildcard)
      (Scan.readIgnores base c.ignores).1.patterns ∧
    (∀ s e, .invalidIgnore s e ∉ (w.scan base c.includes c.ignores).notes) ∧
    ∀ s ∈ c.includes, Glob.hasWildcard s = true →
      ((∃ q, Glob.PathPattern.parse (base.join s).text = .ok q) ↔ Scan.Expandable base s) ∧
      ((∃ e, .invalidInclude s e ∈ (w.scan base c.includes c.ignores).notes) ↔
        ¬Scan.Expandable base s) := by
  obtain ⟨hignores, hincludes⟩ := Config.fault?_eq_none_iff.mp h
  refine ⟨Scan.forall₂_readIgnores base hignores, fun s e hnote => ?_, fun s hs hwildcard => ?_⟩
  · rcases (Scan.mem_notes_scan (by simp)).mp hnote with hnote | ⟨t, -, hnote⟩
    · obtain ⟨hs, -, herror⟩ := Scan.invalidIgnore_mem_readIgnores_iff.mp hnote
      obtain ⟨p, hp⟩ := hignores s hs
      exact nomatch hp.symm.trans herror
    · exact Scan.invalidIgnore_notMem_readInclude hnote
  · have hread := Scan.exists_pathPattern_iff_expandable base (hincludes s hs hwildcard)
    refine ⟨hread, ?_⟩
    rw [← hread]
    constructor
    · rintro ⟨e, hnote⟩ ⟨q, hq⟩
      exact nomatch hq.symm.trans ((Scan.invalidInclude_mem_notes_iff.mp hnote).2.2)
    · intro hnone
      cases hparse : Glob.PathPattern.parse (base.join s).text with
      | ok q => exact absurd ⟨q, hparse⟩ hnone
      | error e => exact ⟨e, Scan.invalidInclude_mem_notes_iff.mpr ⟨hs, hwildcard, hparse⟩⟩

/-- An ignore and an include with wildcards are both read. -/
theorem scan_accepted_testedConfig :
    let c : Config := { modelRoot := "m", includes := ["ap*"], ignores := ["**/test/**"] }
    c.fault? = none ∧
    (∃ q, Glob.PathPattern.parse (Path.join ⟨"m"⟩ "ap*").text = .ok q) ∧
    ∀ e, .invalidInclude "ap*" e ∉ (testedWorkspace.scan ⟨"m"⟩ c.includes c.ignores).notes := by
  have hexpandable : Scan.Expandable ⟨"m"⟩ "ap*" :=
    .of_plain (by simp [Glob.IsPlain]) (by decide +kernel)
  have haccepted : Config.fault?
      { modelRoot := "m", includes := ["ap*"], ignores := ["**/test/**"] } = none := by
    decide +kernel
  obtain ⟨hread, hnote⟩ := (scan_accepted _ haccepted testedWorkspace ⟨"m"⟩).2.2 "ap*"
    (List.mem_singleton_self _) rfl
  exact ⟨haccepted, hread.mpr hexpandable, fun e he => hnote.mp ⟨e, he⟩ hexpandable⟩

/-- A model file in a directory whose name is no pattern. -/
def bracketedWorkspace : Workspace where
  tree := ⟨[(["a[b"], .directory), (["a[b", "app"], .directory),
    (["a[b", "app", "main.viewbind.json"], .file .empty)]⟩

/-- An include is accepted, but below this directory it is no pattern, and a scan finds nothing. Nor
is a set that lists a slash one below any directory. -/
theorem scan_bracketedWorkspace :
    Config.fault? { modelRoot := "a[b", includes := ["ap*"] } = none ∧
    bracketedWorkspace.Plain ∧
    bracketedWorkspace.entry ⟨"a[b/app/main.viewbind.json"⟩ =
      .ok (["a[b", "app", "main.viewbind.json"], .file .empty) ∧
    Glob.PathPattern.parse (Path.join ⟨"a[b"⟩ "ap*").text = .error ⟨.badRange, 1⟩ ∧
    (bracketedWorkspace.scan ⟨"a[b"⟩ ["ap*"] []).files = [] ∧
    Config.fault? { modelRoot := "m", includes := ["[/]*"] } = none ∧
    Glob.PathPattern.parse (Path.join ⟨"m"⟩ "[/]*").text = .error ⟨.badRange, 0⟩ := by
  have hplain : bracketedWorkspace.Plain :=
    ⟨FileTree.plain_of_entries (by decide +kernel) (by simp [bracketedWorkspace])
      (by decide +kernel), rfl⟩
  exact ⟨by decide +kernel, hplain, by decide +kernel, by decide +kernel, by decide +kernel,
    by decide +kernel, by decide +kernel⟩

end ViewBinding
