import ViewBinding.Proofs.FileTree.Visiting
import ViewBinding.Proofs.Glob.Expansion
import ViewBinding.Proofs.Model.Scanning

/-!
# Scanning again

A walk from a path that goes up nowhere stays below its place. So in a tree that has only grown, a
scan finds the same model files as before, as long as no model file is new: what includes stand for
beyond what they did holds nothing but what is new.
-/

namespace ViewBinding

open Workspace

namespace Workspace

section Walking

variable {w : Workspace} {start path : Path} {names : List String}

/-- Names under a path that goes up nowhere do not either. -/
theorem descends_under (hstart : start.Descends)
    (hnames : ∀ s ∈ names, Path.IsName s ∧ Enters s) : (under start names).Descends := by
  induction names generalizing start with
  | nil => exact hstart
  | cons s names ih =>
    obtain ⟨hs, henters⟩ := hnames s (List.mem_cons_self ..)
    have hdots := Path.dots_notMem_names hs.2 henters.not_dots
    exact ih (descends_join hstart hdots) fun t ht => hnames t (List.mem_cons_of_mem _ ht)

/-- What a walk visits leads below its start. -/
theorem leadsBelow_of_visited (h : w.Plain) (hstart : start.Descends)
    (hpath : .visited path ∈ w.walk start) :
    path.Descends ∧ w.placeOf start <+: w.placeOf path := by
  obtain ⟨-, names, rfl, hsome, -⟩ := h.visited_mem_walk_iff.mp hpath
  obtain ⟨e, he⟩ := Option.isSome_iff_exists.mp hsome
  have hnames : ∀ s ∈ names, Path.IsName s ∧ Enters s :=
    fun s hs => h.tree.enters he s (List.mem_append_right _ hs)
  exact ⟨descends_under hstart hnames, placeOf_under w hnames ▸ List.prefix_append ..⟩

/-- What led to something is visited in a later tree exactly if it was visited. -/
theorem Later.visited_mem_walk_iff {w' : Workspace} (h : w.Later w') (hstart : start.Descends)
    (hpath : w.Has path) : .visited path ∈ w'.walk start ↔ .visited path ∈ w.walk start := by
  rw [h.after.visited_mem_walk_iff, h.before.visited_mem_walk_iff, h.placeOf_eq]
  have hsome : ∀ names, path = under start names →
      ((w'.tree.get? (w.placeOf start ++ names)).isSome ↔
        (w.tree.get? (w.placeOf start ++ names)).isSome) := by
    rintro names rfl
    refine ⟨fun hafter => ?_, fun hbefore => h.isSome_get? hbefore⟩
    obtain ⟨e, he⟩ := Option.isSome_iff_exists.mp hafter
    unfold Has at hpath
    rwa [placeOf_under w fun s hs => h.after.tree.enters he s (List.mem_append_right _ hs)] at hpath
  rw [exists_congr fun names => and_congr_right fun hunder => and_congr_left fun _ =>
    hsome names hunder]
  refine and_congr_left fun ⟨names, _, hbelow, _⟩ => ?_
  rw [h.holds_eq hstart (h.before.tree.isSome_of_above hbelow (List.prefix_append ..))]

end Walking

end Workspace

namespace Scan

/-- Do all paths that a scan starts from go up nowhere? -/
structure Descends (base : Path) (includes : List String) : Prop where
  start : base.Descends
  paths : ∀ s ∈ includes, Glob.hasWildcard s = false → (base.join s).Descends
  patterns : ∀ s ∈ includes, Glob.hasWildcard s = true → ∀ pattern,
    Glob.PathPattern.parse (base.join s).text = .ok pattern → pattern.Descends

section Roots

variable {w w' : Workspace} {base root : Path} {includes ignores : List String}

/-- No walk of such a scan goes up. -/
theorem Descends.of_mem_roots (h : Descends base includes) (hw : w.Plain)
    (hroot : root ∈ (roots w base includes).1) : root.Descends := by
  rcases mem_roots_iff.mp hroot with ⟨-, rfl⟩ | ⟨s, hs, hin⟩
  · exact h.start
  · rcases mem_readInclude_iff.mp hin with ⟨hwild, pattern, hparse, hexpand, -⟩ | ⟨hplain, -, rfl⟩
    · exact Glob.descends_of_mem_expand hw hparse (h.patterns s hs hwild pattern hparse) hexpand
    · exact h.paths s hs hplain

/-- A later scan walks from what led to something exactly if the earlier one did. -/
theorem Descends.mem_roots_iff (h : Descends base includes) (hlater : w.Later w')
    (hroot : w.Has root) :
    root ∈ (roots w' base includes).1 ↔ root ∈ (roots w base includes).1 := by
  rw [Scan.mem_roots_iff, Scan.mem_roots_iff]
  refine or_congr_right (exists_congr fun s => and_congr_right fun hs => ?_)
  rw [mem_readInclude_iff, mem_readInclude_iff]
  refine or_congr (and_congr_right fun hwild => exists_congr fun pattern =>
    and_congr_right fun hparse => ?_) (and_congr_right fun hplain => and_congr_left ?_)
  · have hpattern := h.patterns s hs hwild pattern hparse
    rw [Glob.mem_expand_iff hlater hparse hpattern hroot]
    refine and_congr_right fun hin => ?_
    rw [hlater.isDirectory_eq (Glob.descends_of_mem_expand hlater.before hparse hpattern hin) hroot]
  · rintro rfl
    rw [hlater.holds_eq (h.paths s hs hplain) hroot]

end Roots

end Scan

namespace Workspace

/-- A scan finds the same files in a later tree, if no path to a model file leads to a new one. -/
theorem Later.files_scan_eq {w w' : Workspace} {base : Path} {includes ignores : List String}
    (h : w.Later w') (hscan : Scan.Descends base includes)
    (hfiles : ∀ path : Path, path.Descends → Scan.isModelFile path = true →
      w'.isFile path = w.isFile path) :
    (w'.scan base includes ignores).files = (w.scan base includes ignores).files := by
  refine w.files_scan_eq_of_mem_iff base includes ignores fun file => ?_
  rw [mem_files_scan, mem_files_scan]
  constructor
  · rintro ⟨⟨root, hroot, hstop⟩, hcover, hfile, hmodel⟩
    have hdescends := hscan.of_mem_roots h.after hroot
    obtain ⟨hpath, hbelow⟩ := leadsBelow_of_visited h.after hdescends hstop
    rw [hfiles _ hpath hmodel] at hfile
    rw [h.placeOf_eq, h.placeOf_eq] at hbelow
    have hhas := h.before.has_of_isFile hpath hfile
    exact ⟨⟨root, (hscan.mem_roots_iff h (h.before.has_of_above hhas hbelow)).mp hroot,
      (h.visited_mem_walk_iff hdescends hhas).mp hstop⟩, hcover, hfile, hmodel⟩
  · rintro ⟨⟨root, hroot, hstop⟩, hcover, hfile, hmodel⟩
    have hdescends := hscan.of_mem_roots h.before hroot
    obtain ⟨hpath, hbelow⟩ := leadsBelow_of_visited h.before hdescends hstop
    have hhas := h.before.has_of_isFile hpath hfile
    rw [← hfiles _ hpath hmodel] at hfile
    exact ⟨⟨root, (hscan.mem_roots_iff h (h.before.has_of_above hhas hbelow)).mpr hroot,
      (h.visited_mem_walk_iff hdescends hhas).mpr hstop⟩, hcover, hfile, hmodel⟩

end Workspace

end ViewBinding
