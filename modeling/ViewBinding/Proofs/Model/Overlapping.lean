import ViewBinding.Proofs.Model.Narrowing

/-!
# Overlapping includes

Files are found once if they are written alike wherever they are found from. An include without
wildcards is written under the base as it stands, and one with wildcards under the base as it is
spelled by expansions. So includes may overlap without a file being listed twice, unless both kinds
are used and the two spellings of the base differ.
-/

namespace ViewBinding

open Workspace

namespace Glob

variable {front path : Path} {texts : List String}

/-- What is under a path by pieces of texts that are not idle is under it by names. -/
theorem WrittenUnder.of_not_idle (h : WrittenUnder front texts path)
    (hidle : ∀ s ∈ texts, Path.isIdle s = false) : WrittenUnder front [] path := by
  obtain ⟨pieces, hpieces, rfl⟩ := h
  refine ⟨pieces, fun s hs => ⟨(hpieces s hs).slash, (hpieces s hs).not_dots, fun hin => ?_⟩, rfl⟩
  exact absurd (hidle s ((hpieces s hs).idle hin)) (by simp [hin])

/-- More names may follow. -/
theorem WrittenUnder.under {names : List String} (h : WrittenUnder front [] path)
    (hnames : ∀ s ∈ names, Path.IsName s ∧ Enters s) :
    WrittenUnder front [] (under path names) := by
  obtain ⟨pieces, hpieces, rfl⟩ := h
  refine ⟨pieces ++ names, fun s hs => ?_, ?_⟩
  · exact (List.mem_append.mp hs).elim (hpieces s) fun hs => adds_of_enters (hnames s hs)
  · rw [Workspace.under, Workspace.under, Workspace.under, List.foldl_append]

/-- What is under a path by names lies below its place by the same names. -/
theorem WrittenUnder.exists_placeOf_eq (h : WrittenUnder front [] path) (w : Workspace) :
    ∃ names, path = Workspace.under front names ∧ w.placeOf path = w.placeOf front ++ names := by
  obtain ⟨names, hnames, rfl⟩ := h
  obtain ⟨hsame, hstart⟩ := Path.names_foldl_join (fun s hs => (hnames s hs).slash) front
  have hall : names.filter (!Path.isIdle ·) = names := by
    refine List.filter_eq_self.mpr fun s hs => ?_
    simpa using fun hidle => List.not_mem_nil ((hnames s hs).idle hidle)
  rw [hall] at hsame
  exact ⟨names, rfl, w.placeOf_eq_append_of_names hsame hstart
    fun hdots => (hnames _ hdots).not_dots rfl⟩

/-- So its place tells how it is written. -/
theorem WrittenUnder.eq_of_placeOf_eq {other : Path} (h : WrittenUnder front [] path)
    (hother : WrittenUnder front [] other) (w : Workspace)
    (hplace : w.placeOf path = w.placeOf other) : path = other := by
  obtain ⟨names, hpath, hleft⟩ := h.exists_placeOf_eq w
  obtain ⟨names', hother, hright⟩ := hother.exists_placeOf_eq w
  rw [hleft, hright, List.append_cancel_left_eq] at hplace
  rw [hpath, hother, hplace]

end Glob

namespace Scan

/-- The path that what an include stands for is written under. -/
def front (base : Path) (s : String) : Path :=
  if Glob.hasWildcard s then Glob.spelled base else base

section Roots

variable {w : Workspace} {base root : Path} {includes : List String}

/-- A text that is joined to a path is written under it by its pieces, if none of them is idle. -/
theorem join_eq_under {s : String} (hs : s.toList.head? ≠ some '/')
    (hidle : ∀ piece ∈ Text.split '/' s, Path.isIdle piece = false) (p : Path) :
    p.join s = under p (Text.split '/' s) := by
  have hnames : ∀ piece ∈ Text.split '/' s, Path.IsName piece := by
    intro piece hpiece
    refine ⟨?_, Text.notMem_of_mem_split hpiece⟩
    rintro rfl
    exact absurd (hidle "" hpiece) (by decide)
  apply Path.eq_of_text
  rw [Path.text_join_of_head? hs, text_under (Text.split_ne_nil '/' s) hnames, Text.join_split]

/-- A scan starts from what is written under the front of an include by names. -/
theorem Inward.writtenUnder_front (h : Inward base includes) (hw : w.Plain)
    (hidle : ∀ s ∈ includes, ∀ piece ∈ Text.split '/' s, Path.isIdle piece = false)
    (hroot : root ∈ (roots w base includes).1) :
    includes = [] ∧ root = base ∨ ∃ s ∈ includes, Glob.WrittenUnder (front base s) [] root := by
  rcases h.root_cases hw hroot with hnone | ⟨s, hs, hplain, rfl⟩ | ⟨s, hs, hwild, hunder⟩
  · exact .inl hnone
  · refine .inr ⟨s, hs, Text.split '/' s, fun piece hpiece => ?_, ?_⟩
    · have hdown := h.downward s hs piece hpiece
      refine ⟨Text.notMem_of_mem_split hpiece, ?_, fun hin => ?_⟩
      · simpa [goesUp, hplain] using hdown
      · exact absurd (hidle s hs piece hpiece) (by simp [hin])
    · rw [front, hplain, if_neg Bool.false_ne_true]
      exact join_eq_under (h.relative s hs) (hidle s hs) base
  · refine .inr ⟨s, hs, ?_⟩
    rw [front, if_pos hwild]
    exact hunder.of_not_idle (hidle s hs)

/-- If all includes have one front, a scan starts from what is written under one path. -/
theorem Inward.exists_front (h : Inward base includes) (hw : w.Plain)
    (hidle : ∀ s ∈ includes, ∀ piece ∈ Text.split '/' s, Path.isIdle piece = false)
    (hfront : ∀ s ∈ includes, ∀ t ∈ includes, front base s = front base t) :
    ∃ top, ∀ root ∈ (roots w base includes).1, Glob.WrittenUnder top [] root := by
  cases includes with
  | nil =>
    refine ⟨base, fun root hroot => ?_⟩
    rcases h.writtenUnder_front hw hidle hroot with ⟨-, rfl⟩ | ⟨s, hs, -⟩
    · exact .refl root []
    · exact nomatch hs
  | cons first rest =>
    refine ⟨front base first, fun root hroot => ?_⟩
    rcases h.writtenUnder_front hw hidle hroot with ⟨hnone, -⟩ | ⟨s, hs, hunder⟩
    · exact nomatch hnone
    · rwa [← hfront s hs first (List.mem_cons_self ..)]

end Roots

end Scan

/-- However includes overlap, a scan of a plain workspace lists no file twice: any two of the files
that it lists lie at different places. Pieces of includes are not idle here, and includes with and
without wildcards are only used together if the base is spelled as it stands. -/
theorem scan_overlapping (w : Workspace) (base : Path) (includes ignores : List String)
    (h : w.Plain) (hinward : Scan.Inward base includes)
    (hidle : ∀ s ∈ includes, ∀ piece ∈ Text.split '/' s, Path.isIdle piece = false)
    (hfront : ∀ s ∈ includes, ∀ t ∈ includes, Scan.front base s = Scan.front base t) :
    (w.scan base includes ignores).files.Pairwise fun file other =>
      ∃ place content place' content', w.entry ⟨file⟩ = .ok (place, .file content) ∧
        w.entry ⟨other⟩ = .ok (place', .file content') ∧ place ≠ place' := by
  obtain ⟨top, htop⟩ := hinward.exists_front h hidle hfront
  have hwritten : ∀ file ∈ (w.scan base includes ignores).files,
      Glob.WrittenUnder top [] ⟨file⟩ ∧
        ∃ content, w.entry ⟨file⟩ = .ok (w.placeOf ⟨file⟩, .file content) := by
    intro file hfile
    obtain ⟨hentry, root, hroot, -, names, hnames, hunder⟩ := h.under_of_mem_files hfile
    exact ⟨hunder ▸ (htop root hroot).under hnames, hentry⟩
  have hsorted := w.pairwise_files_scan base includes ignores
  refine hsorted.imp_of_mem fun {file other} hfile hother hlt => ?_
  obtain ⟨hunder, content, hentry⟩ := hwritten file hfile
  obtain ⟨hunder', content', hentry'⟩ := hwritten other hother
  refine ⟨_, content, _, content', hentry, hentry', fun hsame => ?_⟩
  -- What is written under one path and lies at one place is one text, and texts are listed once.
  have hpath := hunder.eq_of_placeOf_eq hunder' w hsame
  obtain rfl := Path.mk.inj hpath
  exact String.lt_irrefl file hlt

/-- Two includes lead to the same model file, which is listed once. -/
theorem scan_overlapping_testedWorkspace :
    (∀ s ∈ ["app", "ap*"], ⟨"m/app"⟩ ∈ (Scan.roots testedWorkspace ⟨"m"⟩ [s]).1) ∧
    "m/app/main.viewbind.json" ∈ (testedWorkspace.scan ⟨"m"⟩ ["app", "ap*"] []).files ∧
    (testedWorkspace.scan ⟨"m"⟩ ["app", "ap*"] []).files.Pairwise fun file other =>
      ∃ place content place' content',
        testedWorkspace.entry ⟨file⟩ = .ok (place, .file content) ∧
        testedWorkspace.entry ⟨other⟩ = .ok (place', .file content') ∧ place ≠ place' := by
  have hroot : (⟨"m/app"⟩ : Path) ∈ (Scan.roots testedWorkspace ⟨"m"⟩ ["app", "ap*"]).1 := by
    decide +kernel
  refine ⟨by decide +kernel, main_mem_files_testedWorkspace (List.mem_cons_self ..) hroot rfl, ?_⟩
  exact scan_overlapping testedWorkspace ⟨"m"⟩ ["app", "ap*"] [] plain_testedWorkspace
    (by decide +kernel) (by decide +kernel) (by decide +kernel)

/-- Below a base that is written with a dot in front, the same file is listed twice: with the dot by
the one include, and without it by the other. -/
theorem scan_overlapping_dotted :
    testedWorkspace.Plain ∧ "./m/app/main.viewbind.json" ≠ "m/app/main.viewbind.json" ∧
    ∀ file ∈ ["./m/app/main.viewbind.json", "m/app/main.viewbind.json"],
      file ∈ (testedWorkspace.scan ⟨"./m"⟩ ["app", "ap*"] []).files ∧
      testedWorkspace.entry ⟨file⟩ = .ok (["m", "app", "main.viewbind.json"], .file .empty) := by
  have hroots : ∀ root ∈ [(⟨"m/app"⟩ : Path), ⟨"./m/app"⟩],
      root ∈ (Scan.roots testedWorkspace ⟨"./m"⟩ ["app", "ap*"]).1 := by
    decide +kernel
  have hfound : ∀ root ∈ [(⟨"m/app"⟩ : Path), ⟨"./m/app"⟩],
      (under root ["main.viewbind.json"]).text ∈
        (testedWorkspace.scan ⟨"./m"⟩ ["app", "ap*"] []).files :=
    fun root hroot => main_mem_files_testedWorkspace hroot (hroots root hroot) rfl
  refine ⟨plain_testedWorkspace, by decide, fun file hfile => ⟨?_, by revert file; decide +kernel⟩⟩
  rcases List.mem_cons.mp hfile with rfl | hfile
  · exact hfound ⟨"./m/app"⟩ (by simp)
  · obtain rfl := List.mem_singleton.mp hfile
    exact hfound ⟨"m/app"⟩ (by simp)

end ViewBinding
