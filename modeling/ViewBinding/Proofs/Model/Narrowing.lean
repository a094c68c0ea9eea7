import ViewBinding.Proofs.Glob.Spelling
import ViewBinding.Proofs.Model.Discovery

/-!
# Narrowing a scan

Includes narrow a scan to what lies below its base, and an ignore without wildcards hides what it
names, if no piece of an include goes up and if the base is not read as a pattern. A pattern below
the base is read from one text with the base in front, so a wildcard in the base is one in the
pattern; and what it expands to is written without the dot that the base may begin with, so an
ignore, which is compared as it is written, may miss it.
-/

namespace ViewBinding

open Workspace

/-- Does a path go on from another by names that do not go up? -/
structure Path.GoesOn (front path : Path) : Prop where
  names : ∃ more, ".." ∉ more ∧ path.names = front.names ++ more
  start : path.text.toList.head? = some '/' ↔ front.text.toList.head? = some '/'

namespace Path.GoesOn

variable {p q r : Path}

theorem refl (p : Path) : p.GoesOn p := ⟨⟨[], by simp, (List.append_nil _).symm⟩, Iff.rfl⟩

theorem trans (h : p.GoesOn q) (h' : q.GoesOn r) : p.GoesOn r := by
  obtain ⟨⟨more, hmore, hq⟩, hstart⟩ := h
  obtain ⟨⟨rest, hrest, hr⟩, hstart'⟩ := h'
  refine ⟨⟨more ++ rest, fun hdots => ?_, by rw [hr, hq, List.append_assoc]⟩, hstart'.trans hstart⟩
  exact (List.mem_append.mp hdots).elim hmore hrest

/-- Joining a text whose pieces do not go up goes on. -/
theorem join {s : String} (hs : s.toList.head? ≠ some '/') (hdots : ".." ∉ Text.split '/' s)
    (p : Path) : p.GoesOn (p.join s) :=
  ⟨⟨Path.names ⟨s⟩, fun hin => hdots (List.mem_filter.mp hin).1, names_join hs p⟩, head?_join hs p⟩

/-- Pieces that do not go up go on. -/
theorem under {pieces : List String} (h : ∀ s ∈ pieces, '/' ∉ s.toList ∧ s ≠ "..") (p : Path) :
    p.GoesOn (Workspace.under p pieces) := by
  obtain ⟨hnames, hstart⟩ := names_foldl_join (fun s hs => (h s hs).1) p
  exact ⟨⟨_, fun hin => (h _ (List.mem_filter.mp hin).1).2 rfl, hnames⟩, hstart⟩

/-- What goes on from a path leads below its place, by the names that it goes on by. -/
theorem exists_placeOf_eq (h : p.GoesOn q) (w : Workspace) :
    ∃ more, q.names = p.names ++ more ∧ w.placeOf q = w.placeOf p ++ more := by
  obtain ⟨⟨more, hmore, hnames⟩, hstart⟩ := h
  exact ⟨more, hnames, w.placeOf_eq_append_of_names hnames hstart hmore⟩

/-- Of two paths that go on from a path and begin alike, the components of one begin those of the
other exactly if its place is at or above that of the other. -/
theorem components_starts_iff (hq : p.GoesOn q) (hr : p.GoesOn r)
    (hanchor : q.pieces.anchor = r.pieces.anchor) (w : Workspace) :
    q.components <+: r.components ↔ w.placeOf q <+: w.placeOf r := by
  obtain ⟨more, hmore, hq⟩ := hq.exists_placeOf_eq w
  obtain ⟨rest, hrest, hr⟩ := hr.exists_placeOf_eq w
  rw [hq, hr, List.prefix_append_right_inj]
  constructor
  · intro h
    have hnames := h.filterMap Component.piece?
    rwa [Path.filterMap_components, Path.filterMap_components, hmore, hrest,
      List.prefix_append_right_inj] at hnames
  · intro h
    rw [Path.components_eq, Path.components_eq, hanchor, hmore, hrest,
      List.prefix_append_right_inj, List.map_append, List.map_append,
      List.prefix_append_right_inj]
    exact h.map _

end Path.GoesOn

namespace Scan

/-- Does a piece of an include lead to the directory above? With wildcards, so does any pattern that
begins with a dot and matches two. -/
def goesUp (s piece : String) : Bool :=
  if Glob.hasWildcard s then
    match Glob.Pattern.parse piece with
    | .ok p => Glob.beginsWithDot p && p.isMatch ".."
    | .error _ => false
  else piece == ".."

/-- Do includes lead from a base to what lies below it? Then no piece of them goes up, and the base
is not read as a pattern. -/
structure Inward (base : Path) (includes : List String) : Prop where
  plain : (∃ s ∈ includes, Glob.hasWildcard s = true) → ∀ c ∈ base.text.toList, Glob.IsPlain c
  relative : ∀ s ∈ includes, s.toList.head? ≠ some '/'
  downward : ∀ s ∈ includes, ∀ piece ∈ Text.split '/' s, goesUp s piece = false

instance (base : Path) (includes : List String) : Decidable (Inward base includes) :=
  -- The characters of the base are looked at one by one, not all that there are.
  have : Decidable (∀ c ∈ base.text.toList, Glob.IsPlain c) := List.decidableBAll _ _
  decidable_of_iff (((∃ s ∈ includes, Glob.hasWildcard s = true) →
      ∀ c ∈ base.text.toList, Glob.IsPlain c) ∧
      (∀ s ∈ includes, s.toList.head? ≠ some '/') ∧
      ∀ s ∈ includes, ∀ piece ∈ Text.split '/' s, goesUp s piece = false)
    ⟨fun ⟨hplain, hrelative, hdownward⟩ => ⟨hplain, hrelative, hdownward⟩,
      fun h => ⟨h.plain, h.relative, h.downward⟩⟩

section Roots

variable {w : Workspace} {base root : Path} {includes : List String} {s : String}

/-- An include without wildcards is joined to the base. -/
theorem Inward.goesOn_join (h : Inward base includes) (hs : s ∈ includes)
    (hplain : Glob.hasWildcard s = false) : base.GoesOn (base.join s) := by
  refine .join (h.relative s hs) (fun hdots => ?_) base
  have hdown := h.downward s hs ".." hdots
  simp [goesUp, hplain] at hdown

/-- An include with wildcards expands to paths that are written under the base as it is spelled. -/
theorem Inward.writtenUnder (h : Inward base includes) (hw : w.Plain) (hs : s ∈ includes)
    (hwild : Glob.hasWildcard s = true) {pattern : Glob.PathPattern}
    (hparse : Glob.PathPattern.parse (base.join s).text = .ok pattern)
    (hroot : root ∈ pattern.expand w) :
    Glob.WrittenUnder (Glob.spelled base) (Text.split '/' s) root := by
  refine Glob.writtenUnder_of_mem_expand hw hparse (h.plain ⟨s, hs, hwild⟩) (h.relative s hs) ?_ ?_
    hroot
  · rintro rfl
    exact nomatch hwild
  · intro piece hpiece p hread hbegins
    have hdown := h.downward s hs piece hpiece
    simpa [goesUp, hwild, hread, hbegins] using hdown

/-- A scan starts from its base, from what is joined to it, or from what is written under the base
as it is spelled. -/
theorem Inward.root_cases (h : Inward base includes) (hw : w.Plain)
    (hroot : root ∈ (roots w base includes).1) :
    includes = [] ∧ root = base ∨ (∃ s ∈ includes, Glob.hasWildcard s = false ∧
      root = base.join s) ∨ ∃ s ∈ includes, Glob.hasWildcard s = true ∧
        Glob.WrittenUnder (Glob.spelled base) (Text.split '/' s) root := by
  rcases mem_roots_iff.mp hroot with hnone | ⟨s, hs, hin⟩
  · exact .inl hnone
  · rcases mem_readInclude_iff.mp hin with ⟨hwild, pattern, hparse, hexpand, -⟩ | ⟨hplain, -, rfl⟩
    · exact .inr (.inr ⟨s, hs, hwild, h.writtenUnder hw hs hwild hparse hexpand⟩)
    · exact .inr (.inl ⟨s, hs, hplain, rfl⟩)

/-- All that a scan starts from goes on from the base. -/
theorem Inward.goesOn (h : Inward base includes) (hw : w.Plain)
    (hroot : root ∈ (roots w base includes).1) : base.GoesOn root := by
  rcases h.root_cases hw hroot with ⟨-, rfl⟩ | ⟨s, hs, hplain, rfl⟩ |
    ⟨s, -, -, pieces, hpieces, rfl⟩
  · exact .refl root
  · exact h.goesOn_join hs hplain
  · obtain ⟨hnames, hstart⟩ := Glob.names_spelled base
    have hspelled : base.GoesOn (Glob.spelled base) :=
      ⟨⟨[], by simp, hnames.trans (List.append_nil _).symm⟩, hstart⟩
    exact hspelled.trans (.under (fun t ht => ⟨(hpieces t ht).slash, (hpieces t ht).not_dots⟩) _)

/-- Unless an expansion leaves out a dot that the base begins with, all that a scan starts from
begins as the base does. -/
theorem Inward.anchor_eq (h : Inward base includes) (hw : w.Plain) (hne : base.text ≠ "")
    (hdot : (∃ s ∈ includes, Glob.hasWildcard s = true) → base.pieces.anchor ≠ .current)
    (hroot : root ∈ (roots w base includes).1) : root.pieces.anchor = base.pieces.anchor := by
  rcases h.root_cases hw hroot with ⟨-, rfl⟩ | ⟨s, hs, -, rfl⟩ |
    ⟨s, hs, hwild, pieces, hpieces, rfl⟩
  · rfl
  · exact Path.anchor_join (h.relative s hs) base fun hempty => absurd hempty hne
  · have hanchor := hdot ⟨s, hs, hwild⟩
    rw [← Glob.anchor_spelled_eq hanchor]
    exact Path.anchor_foldl_join (fun t ht => (hpieces t ht).slash)
      (Glob.text_spelled_ne hanchor hne)

end Roots

end Scan

namespace Workspace

variable {w : Workspace} {base : Path} {includes ignores : List String} {file : String}

/-- A path that leads to something is not empty. -/
theorem text_ne_of_holds {path : Path} (h : w.holds path = true) : path.text ≠ "" := by
  rintro hempty
  obtain ⟨p, e, hentry⟩ := holds_iff_entry.mp h
  have hfault : textFault? path = some .notFound := by simp [textFault?, hempty]
  unfold entry locate at hentry
  rw [hfault] at hentry
  exact nomatch hentry

/-- A file that a scan finds is found at its place, and lies under a root of the scan. -/
theorem Plain.under_of_mem_files (h : w.Plain)
    (hfile : file ∈ (w.scan base includes ignores).files) :
    (∃ content, w.entry ⟨file⟩ = .ok (w.placeOf ⟨file⟩, .file content)) ∧
      ∃ root ∈ (Scan.roots w base includes).1, root.text ≠ "" ∧ ∃ names,
        (∀ s ∈ names, Path.IsName s ∧ Enters s) ∧ ⟨file⟩ = under root names := by
  obtain ⟨⟨root, hroot, hstop⟩, -, hisFile, -⟩ := (w.mem_files_scan ..).mp hfile
  obtain ⟨hholds, names, hunder, hsome, -⟩ := h.visited_mem_walk_iff.mp hstop
  obtain ⟨e, he⟩ := Option.isSome_iff_exists.mp hsome
  obtain ⟨place, content, hentry⟩ := isFile_iff_entry.mp hisFile
  obtain rfl := (h.get?_of_entry hentry).1
  exact ⟨⟨content, hentry⟩, root, hroot, text_ne_of_holds hholds, names,
    fun s hs => h.tree.enters he s (List.mem_append_right _ hs), hunder⟩

/-- A file that an inward scan finds goes on from the base. -/
theorem Plain.goesOn_of_mem_files (h : w.Plain) (hinward : Scan.Inward base includes)
    (hfile : file ∈ (w.scan base includes ignores).files) : base.GoesOn ⟨file⟩ := by
  obtain ⟨-, root, hroot, -, names, hnames, hunder⟩ := h.under_of_mem_files hfile
  exact hunder ▸ (hinward.goesOn h hroot).trans
    (.under (fun s hs => ⟨(hnames s hs).1.2, (hnames s hs).2.not_dots⟩) root)

/-- Unless an expansion leaves out a dot that the base begins with, it begins as the base does. -/
theorem Plain.anchor_of_mem_files (h : w.Plain) (hinward : Scan.Inward base includes)
    (hne : base.text ≠ "")
    (hdot : (∃ s ∈ includes, Glob.hasWildcard s = true) → base.pieces.anchor ≠ .current)
    (hfile : file ∈ (w.scan base includes ignores).files) :
    (Path.pieces ⟨file⟩).anchor = base.pieces.anchor := by
  obtain ⟨-, root, hroot, htext, names, hnames, hunder⟩ := h.under_of_mem_files hfile
  rw [hunder, ← hinward.anchor_eq h hne hdot hroot]
  exact Path.anchor_foldl_join (fun s hs => (hnames s hs).1.2) htext

/-- A model file under a root is found, unless it is left out or cannot be reached. -/
theorem Plain.mem_files_of_root (h : w.Plain) {root : Path} {place : Place} {e : Entry}
    (names : List String) (hroot : root ∈ (Scan.roots w base includes).1)
    (hentry : w.entry root = .ok (place, e)) (hunder : ⟨file⟩ = under root names)
    (hsome : (w.tree.get? (place ++ names)).isSome)
    (hshort : names ≠ [] → isTooLong (under root names.dropLast) = false)
    (hkept : (Scan.readIgnores base ignores).1.cover ⟨file⟩ = false)
    (hmodel : w.isFile ⟨file⟩ = true ∧ Scan.isModelFile ⟨file⟩ = true) :
    file ∈ (w.scan base includes ignores).files := by
  have hstop : .visited ⟨file⟩ ∈ w.walk root :=
    (h.visited_mem_walk_of_entry hentry).mpr ⟨names, hunder, hsome, hshort⟩
  exact (w.mem_files_scan ..).mpr ⟨⟨root, hroot, hstop⟩, hkept, hmodel⟩

end Workspace

/-- Whatever is included and ignored, the files that a scan of a plain workspace finds lie at or
below the place of its base, if no include goes up and the base holds no wildcard where an include
makes a pattern of it. -/
theorem scan_inward (w : Workspace) (base : Path) (includes ignores : List String) (h : w.Plain)
    (hinward : Scan.Inward base includes) : ∀ file ∈ (w.scan base includes ignores).files,
    ∃ place content, w.entry ⟨file⟩ = .ok (place, .file content) ∧ w.placeOf base <+: place := by
  intro file hfile
  obtain ⟨⟨content, hentry⟩, -⟩ := h.under_of_mem_files hfile
  obtain ⟨more, -, hplace⟩ := (h.goesOn_of_mem_files hinward hfile).exists_placeOf_eq w
  exact ⟨_, content, hentry, hplace ▸ List.prefix_append ..⟩

/-- A model file, and another one in a directory for tests. -/
def testedWorkspace : Workspace where
  tree := ⟨[(["m"], .directory), (["m", "app"], .directory),
    (["m", "app", "main.viewbind.json"], .file .empty), (["m", "app", "test"], .directory),
    (["m", "app", "test", "fixture.viewbind.json"], .file .empty)]⟩

theorem plain_testedWorkspace : testedWorkspace.Plain :=
  ⟨FileTree.plain_of_entries (by decide +kernel) (by simp [testedWorkspace]) (by decide +kernel),
    rfl⟩

/-- The first model file is found from its directory, however that is written, unless it is left
out. -/
theorem main_mem_files_testedWorkspace {root base : Path} {includes ignores : List String}
    (hwritten : root ∈ [(⟨"m/app"⟩ : Path), ⟨"./m/app"⟩])
    (hroot : root ∈ (Scan.roots testedWorkspace base includes).1)
    (hkept : (Scan.readIgnores base ignores).1.cover (under root ["main.viewbind.json"]) = false) :
    (under root ["main.viewbind.json"]).text ∈
      (testedWorkspace.scan base includes ignores).files := by
  have hknown : ∀ root ∈ [(⟨"m/app"⟩ : Path), ⟨"./m/app"⟩],
      testedWorkspace.entry root = .ok (["m", "app"], .directory) ∧ isTooLong root = false ∧
      testedWorkspace.isFile (under root ["main.viewbind.json"]) = true ∧
      Scan.isModelFile (under root ["main.viewbind.json"]) = true := by
    decide +kernel
  obtain ⟨hentry, hshort, hmodel⟩ := hknown root hwritten
  exact plain_testedWorkspace.mem_files_of_root ["main.viewbind.json"] hroot hentry rfl
    (by decide +kernel) (fun _ => hshort) hkept hmodel

/-- An include with a wildcard leads to a model file below the base. -/
theorem scan_inward_testedWorkspace :
    "m/app/main.viewbind.json" ∈ (testedWorkspace.scan ⟨"m"⟩ ["ap*"] []).files ∧
    ∀ file ∈ (testedWorkspace.scan ⟨"m"⟩ ["ap*"] []).files, ∃ place content,
      testedWorkspace.entry ⟨file⟩ = .ok (place, .file content) ∧ ["m"] <+: place := by
  have hinward : Scan.Inward ⟨"m"⟩ ["ap*"] := by decide +kernel
  have hroot : (⟨"m/app"⟩ : Path) ∈ (Scan.roots testedWorkspace ⟨"m"⟩ ["ap*"]).1 := by
    decide +kernel
  exact ⟨main_mem_files_testedWorkspace (List.mem_cons_self ..) hroot rfl,
    scan_inward testedWorkspace ⟨"m"⟩ ["ap*"] [] plain_testedWorkspace hinward⟩

/-- Two directories with model files, one of them with a wildcard in its name. -/
def starredWorkspace : Workspace where
  tree := ⟨[(["a*"], .directory), (["a*", "app"], .directory),
    (["a*", "app", "x.viewbind.json"], .file .empty), (["ab"], .directory),
    (["ab", "app"], .directory), (["ab", "app", "y.viewbind.json"], .file .empty)]⟩

/-- The name of the one is a pattern that matches the other. -/
theorem mem_roots_starredWorkspace :
    ⟨"ab/app"⟩ ∈ (Scan.roots starredWorkspace ⟨"a*"⟩ ["ap*"]).1 := by
  have hfront : "ab" ∈ starredWorkspace.list ⟨"."⟩ :=
    mem_list_iff_entry.mpr ⟨[], by decide +kernel, FileTree.mem_names.mpr (by decide +kernel)⟩
  have hinside : "app" ∈ starredWorkspace.list ⟨"ab"⟩ :=
    mem_list_iff_entry.mpr ⟨["ab"], by decide +kernel, FileTree.mem_names.mpr (by decide +kernel)⟩
  have hparse : Glob.PathPattern.parse (Path.join ⟨"a*"⟩ "ap*").text = .ok ⟨⟨"."⟩,
      [⟨[.char 'a', .anyRun]⟩, ⟨[.char 'a', .char 'p', .anyRun]⟩], false⟩ := by decide +kernel
  refine Scan.mem_roots_iff.mpr (.inr ⟨"ap*", by simp, Scan.mem_readInclude_iff.mpr
    (.inl ⟨rfl, _, hparse, ?_, by decide +kernel⟩)⟩)
  rw [Glob.PathPattern.expand, if_neg (by decide)]
  refine Glob.mem_expandFrom_of_isMatch rfl rfl hfront (by decide) ?_
  rw [Glob.onward_of_ne_nil (by simp), show Glob.step ⟨"."⟩ "ab" = ⟨"ab"⟩ by decide +kernel]
  refine Glob.mem_expandFrom_of_isMatch rfl rfl hinside (by decide) ?_
  rw [Glob.onward_nil, show Glob.step ⟨"ab"⟩ "app" = ⟨"ab/app"⟩ by decide +kernel]
  exact Glob.mem_result.mpr ⟨rfl, by simp⟩

/-- So an include below the one leads to a model file that lies below the other. -/
theorem scan_starredWorkspace :
    starredWorkspace.Plain ∧ starredWorkspace.entry ⟨"a*"⟩ = .ok (["a*"], .directory) ∧
    "ab/app/y.viewbind.json" ∈ (starredWorkspace.scan ⟨"a*"⟩ ["ap*"] []).files ∧
    starredWorkspace.entry ⟨"ab/app/y.viewbind.json"⟩ =
      .ok (["ab", "app", "y.viewbind.json"], .file .empty) ∧
    ¬["a*"] <+: ["ab", "app", "y.viewbind.json"] := by
  have hplain : starredWorkspace.Plain :=
    ⟨FileTree.plain_of_entries (by decide +kernel) (by simp [starredWorkspace]) (by decide +kernel),
      rfl⟩
  have hentry : starredWorkspace.entry ⟨"ab/app"⟩ = .ok (["ab", "app"], .directory) := by
    decide +kernel
  refine ⟨hplain, by decide +kernel, ?_, by decide +kernel, by decide⟩
  exact hplain.mem_files_of_root ["y.viewbind.json"] mem_roots_starredWorkspace hentry rfl
    (by decide +kernel) (by decide +kernel) rfl (by decide +kernel)

/-- An ignore without wildcards covers the files that are found at or below the place of what it
names. -/
theorem Workspace.Plain.covers_iff {w : Workspace} {base : Path} {includes ignores : List String}
    {ignore file : String} (h : w.Plain) (hinward : Scan.Inward base includes)
    (hne : base.text ≠ "")
    (hdot : (∃ s ∈ includes, Glob.hasWildcard s = true) → base.pieces.anchor ≠ .current)
    (hplain : Glob.hasWildcard ignore = false) (hignore : Scan.Inward base [ignore])
    (hfile : file ∈ (w.scan base includes ignores).files) :
    Scan.Covers base ignore file ↔ w.placeOf (base.join ignore) <+: w.placeOf ⟨file⟩ := by
  have hself : ignore ∈ [ignore] := List.mem_singleton_self ignore
  have hanchor : (base.join ignore).pieces.anchor = base.pieces.anchor :=
    Path.anchor_join (hignore.relative ignore hself) base fun hempty => absurd hempty hne
  unfold Scan.Covers
  rw [hplain]
  exact (hignore.goesOn_join hself hplain).components_starts_iff
    (h.goesOn_of_mem_files hinward hfile)
    (hanchor.trans (h.anchor_of_mem_files hinward hne hdot hfile).symm) w

/-- An ignore without wildcards hides what it names below the base, and nothing else: no file that a
scan of a plain workspace finds lies at or below its place, and one more ignore takes away the files
that do. Neither includes nor the ignore go up here, and no expansion leaves out a dot that the base
begins with. -/
theorem scan_ignoring (w : Workspace) (base : Path) (includes ignores : List String)
    (ignore : String) (h : w.Plain) (hinward : Scan.Inward base includes) (hne : base.text ≠ "")
    (hdot : (∃ s ∈ includes, Glob.hasWildcard s = true) → base.pieces.anchor ≠ .current)
    (hplain : Glob.hasWildcard ignore = false) (hignore : Scan.Inward base [ignore]) :
    (ignore ∈ ignores → ∀ file ∈ (w.scan base includes ignores).files, ∃ place content,
      w.entry ⟨file⟩ = .ok (place, .file content) ∧ ¬w.placeOf (base.join ignore) <+: place) ∧
    (w.scan base includes (ignores ++ [ignore])).files =
      (w.scan base includes ignores).files.filter fun file =>
        decide ¬w.placeOf (base.join ignore) <+: w.placeOf ⟨file⟩ := by
  have hcovers : ∀ file ∈ (w.scan base includes ignores).files,
      (Scan.Covers base ignore file ↔ w.placeOf (base.join ignore) <+: w.placeOf ⟨file⟩) :=
    fun _ => h.covers_iff hinward hne hdot hplain hignore
  constructor
  · intro hmem file hfile
    obtain ⟨⟨content, hentry⟩, -⟩ := h.under_of_mem_files hfile
    refine ⟨_, content, hentry, fun habove => ?_⟩
    have hkept := ((w.mem_files_scan ..).mp hfile).2.1
    rw [← Bool.not_eq_true, Scan.cover_readIgnores] at hkept
    exact hkept ⟨ignore, hmem, (hcovers file hfile).mpr habove⟩
  · rw [files_scan_concat]
    refine List.filter_congr fun file hfile => ?_
    simp only [hcovers file hfile]

/-- The directory for tests is hidden from an include with a wildcard, and the other model file is
not. -/
theorem scan_ignoring_testedWorkspace :
    "m/app/main.viewbind.json" ∈ (testedWorkspace.scan ⟨"m"⟩ ["ap*"] ["app/test"]).files ∧
    ∀ file ∈ (testedWorkspace.scan ⟨"m"⟩ ["ap*"] ["app/test"]).files, ∃ place content,
      testedWorkspace.entry ⟨file⟩ = .ok (place, .file content) ∧
      ¬["m", "app", "test"] <+: place := by
  have hinward : Scan.Inward ⟨"m"⟩ ["ap*"] := by decide +kernel
  have hroot : (⟨"m/app"⟩ : Path) ∈ (Scan.roots testedWorkspace ⟨"m"⟩ ["ap*"]).1 := by
    decide +kernel
  refine ⟨main_mem_files_testedWorkspace (List.mem_cons_self ..) hroot (by decide +kernel), ?_⟩
  exact (scan_ignoring testedWorkspace ⟨"m"⟩ ["ap*"] ["app/test"] "app/test" plain_testedWorkspace
    hinward (by decide) (by decide +kernel) rfl (by decide +kernel)).1 (List.mem_singleton_self _)

/-- Written with a dot in front, the same base is expanded without it, and the ignore hides
nothing. -/
theorem scan_dottedWorkspace :
    "m/app/test/fixture.viewbind.json" ∈
      (testedWorkspace.scan ⟨"./m"⟩ ["ap*"] ["app/test"]).files ∧
    testedWorkspace.Plain ∧ Glob.hasWildcard "app/test" = false ∧
    testedWorkspace.entry (Path.join ⟨"./m"⟩ "app/test") = .ok (["m", "app", "test"], .directory) ∧
    testedWorkspace.entry ⟨"m/app/test/fixture.viewbind.json"⟩ =
      .ok (["m", "app", "test", "fixture.viewbind.json"], .file .empty) := by
  have hentry : testedWorkspace.entry ⟨"m/app"⟩ = .ok (["m", "app"], .directory) := by
    decide +kernel
  refine ⟨?_, plain_testedWorkspace, rfl, by decide +kernel, by decide +kernel⟩
  exact plain_testedWorkspace.mem_files_of_root ["test", "fixture.viewbind.json"]
    (by decide +kernel) hentry rfl (by decide +kernel) (by decide +kernel) (by decide +kernel)
    (by decide +kernel)

end ViewBinding
