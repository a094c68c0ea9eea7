import ViewBinding.Proofs.FileTree.Visiting
import ViewBinding.Proofs.Model.Scanning
import ViewBinding.Proofs.Text.Order

/-!
# What there is to find

A scan of a plain workspace is told by a set: the paths of the model files at or under its starts,
without those that an ignore covers and those too long to be used. So neither the order of includes
and ignores matters nor how often they are named, and one more ignore takes away what it covers.
-/

namespace ViewBinding

open Workspace

namespace Scan

/-- The paths that a scan starts from: its base if nothing is included, and else the includes below
the base, those with wildcards expanded to directories. -/
inductive Start (w : Workspace) (base : Path) (includes : List String) : Path → Prop
  | atBase : includes = [] → Start w base includes base
  | atPath {s : String} : s ∈ includes → Glob.hasWildcard s = false →
      Start w base includes (base.join s)
  | atPattern {s : String} {pattern : Glob.PathPattern} {root : Path} : s ∈ includes →
      Glob.hasWildcard s = true → Glob.PathPattern.parse (base.join s).text = .ok pattern →
      root ∈ pattern.expand w → w.isDirectory root = true → Start w base includes root

/-- The path and the place of what lies at or under where a start leads, by the names on the way. -/
inductive Reaches (w : Workspace) (base : Path) (includes : List String) : String → Place → Prop
  | below {root : Path} {place : Place} {e : Entry} (names : List String) :
      Start w base includes root → w.entry root = .ok (place, e) →
      Reaches w base includes (under root names).text (place ++ names)

/-- Does an ignore leave a path out? With wildcards it is a pattern for the whole text, and covers
nothing if it is not well formed; else it is a path below the base, with all that lies under it. -/
def Covers (base : Path) (ignore file : String) : Prop :=
  match Glob.hasWildcard ignore, Glob.Pattern.parse ignore with
  | true, .ok pattern => pattern.isMatch file = true
  | true, .error _ => False
  | false, _ => (base.join ignore).components <+: Path.components ⟨file⟩

/-- Is there a file to find by a path? It has the name of a model file, a start reaches it by that
path, and no ignore covers the path. -/
structure Wanted (w : Workspace) (base : Path) (includes ignores : List String) (file : String) :
    Prop where
  reached : ∃ place content name, Reaches w base includes file place ∧
    w.tree.get? place = some (.file content) ∧ place.getLast? = some name ∧
    suffix.toList <:+ name.toList
  kept : ∀ ignore ∈ ignores, ¬Covers base ignore file

section Starts

variable {w : Workspace} {base root : Path} {includes : List String}

/-- A walk starts from the starts that lead to something. -/
theorem mem_roots_iff_start {found : Place × Entry} (hentry : w.entry root = .ok found) :
    root ∈ (roots w base includes).1 ↔ Start w base includes root := by
  rw [mem_roots_iff]
  constructor
  · rintro (⟨hnone, rfl⟩ | ⟨s, hs, hin⟩)
    · exact .atBase hnone
    · rcases mem_readInclude_iff.mp hin with
        ⟨hwild, pattern, hparse, hroot, hdir⟩ | ⟨hplain, -, rfl⟩
      · exact .atPattern hs hwild hparse hroot hdir
      · exact .atPath hs hplain
  · rintro (hnone | ⟨hs, hplain⟩ | ⟨hs, hwild, hparse, hroot, hdir⟩)
    · exact .inl ⟨hnone, rfl⟩
    · have hholds := holds_iff_entry.mpr ⟨found.1, found.2, hentry⟩
      exact .inr ⟨_, hs, mem_readInclude_iff.mpr (.inr ⟨hplain, hholds, rfl⟩)⟩
    · exact .inr ⟨_, hs, mem_readInclude_iff.mpr (.inl ⟨hwild, _, hparse, hroot, hdir⟩)⟩

end Starts

section Ignores

variable {base : Path} {s file : String} {ignores : List String}

/-- One more ignore covers what it covers by itself. -/
theorem cover_readIgnores_cons : (readIgnores base (s :: ignores)).1.cover ⟨file⟩ = true ↔
    Covers base s file ∨ (readIgnores base ignores).1.cover ⟨file⟩ = true := by
  rw [readIgnores, Covers]
  cases hwild : Glob.hasWildcard s with
  | false => simp [Ignores.cover, Path.startsWith, or_assoc]
  | true =>
    cases hparse : Glob.Pattern.parse s with
    | error e => simp
    | ok pattern => simp [Ignores.cover, or_left_comm]

/-- The ignores of a scan cover what one of them does. -/
theorem cover_readIgnores : (readIgnores base ignores).1.cover ⟨file⟩ = true ↔
    ∃ s ∈ ignores, Covers base s file := by
  induction ignores with
  | nil => simp [readIgnores, Ignores.cover]
  | cons s ignores ih => rw [cover_readIgnores_cons, ih, List.exists_mem_cons_iff]

instance : Decidable (Covers base s file) :=
  decidable_of_iff ((readIgnores base [s]).1.cover ⟨file⟩ = true)
    (cover_readIgnores.trans (by simp))

end Ignores

/-- A path names a model file if its file name has the right end. -/
theorem isModelFile_iff {path : Path} : isModelFile path = true ↔
    ∃ name, path.fileName? = some name ∧ suffix.toList <:+ name.toList := by
  unfold isModelFile
  cases path.fileName? <;> simp

end Scan

namespace Workspace

section Files

variable {w : Workspace} {base : Path} {includes ignores : List String} {file : String}

/-- In a plain workspace a scan finds what there is to find, as far as the paths can be used. -/
theorem Plain.mem_files_scan_iff (h : w.Plain) (hnul : w.tree.NulFree) :
    file ∈ (w.scan base includes ignores).files ↔
      Scan.Wanted w base includes ignores file ∧ file.utf8ByteSize < pathByteLimit := by
  rw [mem_files_scan, Scan.isModelFile_iff, ← Bool.not_eq_true, Scan.cover_readIgnores, not_exists]
  simp only [not_and]
  constructor
  · rintro ⟨⟨root, hroot, hstop⟩, hkept, hfile, name, hname, hend⟩
    obtain ⟨place, e, hentry⟩ := holds_iff_entry.mp (h.visited_mem_walk_iff.mp hstop).1
    obtain ⟨names, hunder, hsome, -⟩ := (h.visited_mem_walk_of_entry hentry).mp hstop
    obtain ⟨below, hbelow⟩ := Option.isSome_iff_exists.mp hsome
    obtain ⟨p, content, hleads⟩ := isFile_iff_entry.mp hfile
    obtain ⟨hp, hget⟩ := h.get?_of_entry hleads
    have hplace : p = place ++ names := by
      rw [hp, hunder, placeOf_under w fun s hs =>
        h.tree.enters hbelow s (List.mem_append_right _ hs), (h.get?_of_entry hentry).1]
    have hreach := Scan.Reaches.below names ((Scan.mem_roots_iff_start hentry).mp hroot) hentry
    rw [← hunder, ← hplace] at hreach
    have htext := ((entry_eq_ok_iff_way h.tree.linkFree).mp hleads).1
    exact ⟨⟨⟨p, content, name, hreach, hget, h.fileName?_eq hleads ▸ hname, hend⟩, hkept⟩,
      (textFault?_eq_none_iff.mp htext).2.2⟩
  · rintro ⟨⟨⟨_, content, name, @⟨root, place, e, names, hstart, hentry⟩, hget, hname, hend⟩,
      hkept⟩, hshort⟩
    have hnames : ∀ s ∈ names, Path.IsName s :=
      fun s hs => (h.tree.enters hget s (List.mem_append_right _ hs)).1
    have hfree : ∀ s ∈ names, '\x00' ∉ s.toList := by
      intro s hs
      refine hnul _ ((FileTree.isSome_get?.mp (by rw [hget]; rfl)).resolve_left ?_) s
        (List.mem_append_right _ hs)
      exact List.append_ne_nil_of_right_ne_nil _ (List.ne_nil_of_mem hs)
    have htext := textFault?_under ((entry_eq_ok_iff_way h.tree.linkFree).mp hentry).1
      (fun s hs => ⟨hnames s hs, hfree s hs⟩) hshort
    have hleads := h.entry_under hentry hget htext
    have hlong : isTooLong (under root names.dropLast) = false := by
      have hstarts : (under root names.dropLast).text.toList <+: _ := starts_under_dropLast hnames
      have hle := Text.utf8ByteSize_le_of_starts hstarts
      simp only [isTooLong, decide_eq_false_iff_not]
      omega
    exact ⟨⟨root, (Scan.mem_roots_iff_start hentry).mpr hstart,
      (h.visited_mem_walk_of_entry hentry).mpr ⟨names, rfl, by rw [hget]; rfl, fun _ => hlong⟩⟩,
      hkept, isFile_iff_entry.mpr ⟨_, content, hleads⟩, name,
      (h.fileName?_eq hleads).trans hname, hend⟩

/-- A scan does not look at the order of includes and ignores, nor at how often they are named. -/
theorem files_scan_eq_of_members {includes' ignores' : List String}
    (hincludes : ∀ s, s ∈ includes' ↔ s ∈ includes) (hignores : ∀ s, s ∈ ignores' ↔ s ∈ ignores) :
    (w.scan base includes' ignores').files = (w.scan base includes ignores).files := by
  have hnone : includes' = [] ↔ includes = [] := by
    simp only [List.eq_nil_iff_forall_not_mem, hincludes]
  refine (w.pairwise_files_scan ..).eq_of_mem_iff (w.pairwise_files_scan ..) fun file => ?_
  simp only [mem_files_scan, ← Bool.not_eq_true, Scan.cover_readIgnores, Scan.mem_roots_iff, hnone,
    hincludes, hignores]

/-- One more ignore takes away what it covers, and nothing else. -/
theorem files_scan_concat (s : String) : (w.scan base includes (ignores ++ [s])).files =
    (w.scan base includes ignores).files.filter fun file => decide ¬Scan.Covers base s file := by
  refine (w.pairwise_files_scan ..).eq_of_mem_iff
    ((w.pairwise_files_scan ..).filter _) fun file => ?_
  simp only [List.mem_filter, decide_eq_true_eq, mem_files_scan, ← Bool.not_eq_true,
    Scan.cover_readIgnores, List.mem_append, List.mem_singleton, or_and_right, exists_or,
    exists_eq_left, not_or]
  tauto

end Files

end Workspace

/-- A scan of a plain workspace finds a set of files. They are listed in the strictly ascending
order of the bytes of their paths, and a path is among them exactly if there is a file to find by it
and it is short enough to be used. So includes and ignores may be named in any order and any number
of times, and one more ignore takes away the files that it covers and adds none. -/
theorem scan_plain (w : Workspace) (base : Path) (includes ignores : List String) (h : w.Plain)
    (hnul : w.tree.NulFree) :
    let files := (w.scan base includes ignores).files
    files.Pairwise Text.BytesBefore ∧
    (∀ file, file ∈ files ↔
      Scan.Wanted w base includes ignores file ∧ file.utf8ByteSize < pathByteLimit) ∧
    (∀ includes' ignores', (∀ s, s ∈ includes' ↔ s ∈ includes) →
      (∀ s, s ∈ ignores' ↔ s ∈ ignores) → (w.scan base includes' ignores').files = files) ∧
    ∀ ignore, (w.scan base includes (ignores ++ [ignore])).files =
      files.filter fun file => decide ¬Scan.Covers base ignore file := by
  refine ⟨?_, fun file => h.mem_files_scan_iff hnul, fun _ _ => files_scan_eq_of_members,
    files_scan_concat⟩
  exact (w.pairwise_files_scan base includes ignores).imp Text.bytesBefore_of_lt

/-- Model files in directories side by side, one of them below another. -/
def shelvedWorkspace : Workspace where
  tree := ⟨[(["m"], .directory), (["m", "app"], .directory),
    (["m", "app", "main.viewbind.json"], .file .empty), (["m", "app", "test"], .directory),
    (["m", "app", "test", "fixture.viewbind.json"], .file .empty), (["m", "legacy"], .directory),
    (["m", "legacy", "old.viewbind.json"], .file .empty)]⟩

/-- There are model files to find in both includes, but for one that an ignore covers. -/
theorem scan_shelvedWorkspace :
    let files := (shelvedWorkspace.scan ⟨"m"⟩ ["app", "legacy"] ["**/test/**"]).files
    files.Pairwise Text.BytesBefore ∧ "m/app/main.viewbind.json" ∈ files ∧
    "m/legacy/old.viewbind.json" ∈ files ∧ "m/app/test/fixture.viewbind.json" ∉ files ∧
    (shelvedWorkspace.scan ⟨"m"⟩ ["legacy", "app", "legacy"] ["**/test/**"]).files = files ∧
    "m/legacy/old.viewbind.json" ∉
      (shelvedWorkspace.scan ⟨"m"⟩ ["app", "legacy"] ["**/test/**", "legacy"]).files := by
  have hplain : shelvedWorkspace.Plain :=
    ⟨FileTree.plain_of_entries (by decide +kernel) (by simp [shelvedWorkspace]) (by decide +kernel),
      rfl⟩
  obtain ⟨hsorted, hmem, hsame, hmore⟩ := scan_plain shelvedWorkspace ⟨"m"⟩ ["app", "legacy"]
    ["**/test/**"] hplain (by decide +kernel)
  have hreach : ∀ s ∈ ["app", "legacy"], ∀ names,
      Scan.Reaches shelvedWorkspace ⟨"m"⟩ ["app", "legacy"]
        (under (Path.join ⟨"m"⟩ s) names).text (["m", s] ++ names) := by
    intro s hs names
    have hplain : Glob.hasWildcard s = false := by
      revert s
      decide
    have hentry : shelvedWorkspace.entry (Path.join ⟨"m"⟩ s) = .ok (["m", s], .directory) := by
      revert s
      decide +kernel
    exact .below names (.atPath hs hplain) hentry
  refine ⟨hsorted, (hmem _).mpr ⟨⟨?_, by decide +kernel⟩, by decide⟩,
    (hmem _).mpr ⟨⟨?_, by decide +kernel⟩, by decide⟩, fun hin => ?_, hsame _ _ (by simp) (by simp),
    fun hin => ?_⟩
  · exact ⟨_, .empty, _, hreach "app" (by simp) ["main.viewbind.json"], rfl, rfl, by decide⟩
  · exact ⟨_, .empty, _, hreach "legacy" (by simp) ["old.viewbind.json"], rfl, rfl, by decide⟩
  · exact ((hmem _).mp hin).1.kept _ (List.mem_singleton_self _) (by decide +kernel)
  · rw [show ["**/test/**", "legacy"] = ["**/test/**"] ++ ["legacy"] from rfl, hmore] at hin
    exact absurd (List.mem_filter.mp hin).2 (by decide +kernel)

/-- A directory with one model file. -/
def shallowWorkspace : Workspace where
  tree := ⟨[(["d"], .directory), (["d", "x.viewbind.json"], .file .empty)]⟩

/-- The path of the directory, written with this number of dots after it. -/
def dottedBase (n : Nat) : Path := under ⟨"d"⟩ (List.replicate n ".")

section Dots

variable {n : Nat}

theorem isName_of_mem_dots {s : String} (h : s ∈ List.replicate n ".") : Path.IsName s := by
  rw [List.eq_of_mem_replicate h]
  exact ⟨by decide, by decide⟩

/-- Each dot takes two bytes, with the slash before it. -/
theorem utf8ByteSize_under_dots (n : Nat) {path : Path} (hgap : path.gap = "/") :
    (under path (List.replicate n ".")).text.utf8ByteSize =
      path.text.utf8ByteSize + 2 * n := by
  have hdot : Path.IsName "." := ⟨by decide, by decide⟩
  induction n generalizing path with
  | zero => rfl
  | succ n ih =>
    have hjoin : (path.join ".").text.utf8ByteSize = path.text.utf8ByteSize + 1 + 1 := by
      rw [Path.text_join hdot, hgap, String.utf8ByteSize_append, String.utf8ByteSize_append]
      rfl
    rw [List.replicate_succ, under, List.foldl_cons, ← under, ih (Path.gap_join hdot path), hjoin]
    omega

/-- Dots stay in a directory. -/
theorem Workspace.Way.stay_dots {t : FileTree} {place : Place} :
    Way t place (List.replicate n ".") (.present place .directory) := by
  induction n with
  | zero => exact .arrived
  | succ n ih => exact .stay ih

/-- However many dots are written, the path leads to the directory, until it is too long. -/
theorem entry_dottedBase (hdots : n ≠ 0) (hshort : 1 + 2 * n < pathByteLimit) :
    shallowWorkspace.entry (dottedBase n) = .ok (["d"], .directory) := by
  have hne : List.replicate n "." ≠ [] := by simpa using hdots
  have hfree : shallowWorkspace.tree.LinkFree :=
    FileTree.linkFree_of_entries (by simp [shallowWorkspace])
  have hsize : (dottedBase n).text.utf8ByteSize = 1 + 2 * n :=
    utf8ByteSize_under_dots n (by decide)
  have htext : textFault? (dottedBase n) = none := by
    refine textFault?_under (by decide +kernel) (fun s hs => ⟨isName_of_mem_dots hs, ?_⟩)
      (hsize.trans_lt hshort)
    rw [List.eq_of_mem_replicate hs]
    decide
  refine (entry_eq_ok_iff_way hfree).mpr ⟨htext, ?_⟩
  rw [dottedBase, text_under hne fun s => isName_of_mem_dots,
    Path.steps_below _ hne fun s => isName_of_mem_dots,
    Path.origin_below _ hne fun s => isName_of_mem_dots]
  exact .enter ⟨by decide, by decide, by decide⟩ rfl .stay_dots

end Dots

/-- A directory may have a path that is short enough to be used while its files have not. There is a
model file to find, but the scan does not find it. -/
theorem scan_shallowWorkspace :
    shallowWorkspace.Plain ∧ shallowWorkspace.tree.NulFree ∧
    ∃ file, Scan.Wanted shallowWorkspace (dottedBase 2044) [] [] file ∧
      file ∉ (shallowWorkspace.scan (dottedBase 2044) [] []).files := by
  have hplain : shallowWorkspace.Plain :=
    ⟨FileTree.plain_of_entries (by decide +kernel) (by simp [shallowWorkspace]) (by decide +kernel),
      rfl⟩
  have hnul : shallowWorkspace.tree.NulFree := by decide +kernel
  have hname : Path.IsName "x.viewbind.json" := ⟨by decide, by decide⟩
  refine ⟨hplain, hnul, (under (dottedBase 2044) ["x.viewbind.json"]).text, ⟨?_, by simp⟩, ?_⟩
  · have hentry : shallowWorkspace.entry (dottedBase 2044) = .ok (["d"], .directory) :=
      entry_dottedBase (by decide) (by decide)
    exact ⟨_, .empty, _, .below ["x.viewbind.json"] (.atBase rfl) hentry, rfl, rfl, by decide⟩
  · rw [hplain.mem_files_scan_iff hnul]
    rintro ⟨-, hshort⟩
    have hlong : (dottedBase 2044).text.utf8ByteSize = 1 + 2 * 2044 :=
      utf8ByteSize_under_dots 2044 (by decide)
    have hle : 15 ≤ "x.viewbind.json".utf8ByteSize := by decide
    rw [under, List.foldl_cons, List.foldl_nil, Path.text_join hname, String.utf8ByteSize_append,
      String.utf8ByteSize_append, hlong] at hshort
    unfold pathByteLimit at hshort
    omega

end ViewBinding
