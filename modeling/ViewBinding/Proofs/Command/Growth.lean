import ViewBinding.Proofs.Command.Frame
import ViewBinding.Proofs.Model.Rescanning
import ViewBinding.Proofs.Source.Repeating

/-!
# What a run adds

To a plain tree a run adds source files and directories to put them in. Under the names of model
files it adds no file, and under those that tell a configuration or a repository it adds nothing, as
long as the output directory has no such name. So the configuration that was found is found again,
and it settles the same plan.
-/

namespace ViewBinding

open Workspace

/-- Is it a name that the search for a configuration looks at? -/
def IsMark (name : String) : Prop := name = Config.fileName ∨ name = repositoryMark

instance (name : String) : Decidable (IsMark name) :=
  inferInstanceAs (Decidable (name = Config.fileName ∨ name = repositoryMark))

/-- A later workspace in which no model file is new, nor anything that the search for a
configuration looks at. -/
structure Workspace.Grows (w w' : Workspace) : Prop extends w.Later w' where
  inputs : ∀ p content, Place.IsInput p →
    (w'.tree.get? p = some (.file content) ↔ w.tree.get? p = some (.file content))
  marks : ∀ p name, p.getLast? = some name → IsMark name → w'.tree.get? p = w.tree.get? p

/-- Nothing is new in the workspace itself. -/
theorem Workspace.Grows.refl {w : Workspace} (h : w.Plain) : w.Grows w :=
  ⟨⟨h, h, rfl, .refl _⟩, fun _ _ _ => Iff.rfl, fun _ _ _ _ => rfl⟩

/-- A path above one that goes up nowhere does not. -/
theorem Path.Descends.of_mem_upward {p above : Path} (h : p.Descends) (habove : above ∈ p.upward) :
    above.Descends := fun hin => h ((names_of_mem_upwardWithin habove).subset hin)

namespace DiskFiles

variable {name : String}

/-- No name below the output directory is one that the search for a configuration looks at. -/
theorem not_isMark_of_mem_namesFor (h : Name.isQualified name = true) {s : String}
    (hs : s ∈ namesFor name) : ¬ IsMark s := by
  have hhead := head?_ne_dot_of_mem_namesFor h s hs
  rintro (rfl | rfl)
  · exact hhead rfl
  · exact hhead rfl

/-- The file of some dotted name. -/
def IsSourcePath (root path : Path) : Prop :=
  ∃ name, Name.isQualified name = true ∧ path = pathFor root name

/-- What is touched at the paths of sources and above them is no model file, and nothing that the
search for a configuration looks at. -/
theorem grows_of_touches {w w' : Workspace} {root : Path} (h : w.Later w')
    (hroot : root.Descends) (hmarks : ∀ name ∈ root.names, ¬ IsMark name)
    (htouches : w.Touches (IsSourcePath root)
      (fun above => ∃ path, IsSourcePath root path ∧ above ∈ path.ancestors) w') : w.Grows w' := by
  refine ⟨h, fun p content hinput => ?_, fun p name hlast hmark => ?_⟩
  · rcases htouches.entries p with hsame | ⟨path, ⟨name, hname, hpath⟩, hp, -⟩ |
      ⟨above, -, -, hnone, hmade⟩
    · rw [hsame]
    · rw [hp, hpath] at hinput
      exact absurd hinput (not_isInput_placeOf_pathFor hname root w)
    · rw [hnone, hmade]
      exact ⟨nofun, nofun⟩
  · rcases htouches.entries p with hsame | ⟨path, ⟨source, hname, hpath⟩, hp, -⟩ |
      ⟨above, ⟨path, ⟨source, hname, hpath⟩, habove⟩, hp, hnone, -⟩
    · exact hsame
    · -- The last name of a source file is its own.
      have hends : (namesFor source).getLast? = some name := by
        rw [hp, hpath, placeOf_pathFor_eq_append hname] at hlast
        rwa [List.getLast?_append_of_ne_nil] at hlast
        simp [namesFor]
      exact absurd hmark (not_isMark_of_mem_namesFor hname (List.mem_of_getLast? hends))
    · -- That of a directory above is one of these, or one of the output directory.
      have hstarts := (Path.names_of_mem_ancestors habove).trans (List.dropLast_prefix _)
      rw [hpath, names_pathFor hname] at hstarts
      have hdescends : above.Descends := fun hin =>
        (List.mem_append.mp (hstarts.subset hin)).elim hroot
          fun hin => (ne_dots_of_mem_namesFor hname _ hin).2 rfl
      rw [placeOf_eq_append hdescends] at hp
      have hends : above.names.getLast? = some name := by
        rw [hp] at hlast
        rwa [List.getLast?_append_of_ne_nil] at hlast
        intro hnil
        rw [hp, hnil, List.append_nil, h.before.get?_origin] at hnone
        cases hnone
      rcases List.mem_append.mp (hstarts.subset (List.mem_of_getLast? hends)) with hin | hin
      · exact absurd hmark (hmarks name hin)
      · exact absurd hmark (not_isMark_of_mem_namesFor hname hin)

/-- Emitting bindings to a plain tree adds nothing that a run would look for. -/
theorem grows_emit {w : Workspace} {root : Path} {round : Round} {bs : List Binding} (h : w.Plain)
    (hroot : root.Descends) (hmarks : ∀ name ∈ root.names, ¬ IsMark name)
    (hnames : ∀ b ∈ bs, ∀ s, round.source b = .ok s → Name.isQualified s.qualifiedName = true) :
    w.Grows ((filer root).emit round bs ⟨w, []⟩).2.workspace := by
  have hproper : Proper root ⟨w, []⟩ := ⟨h, nofun, nofun⟩
  obtain ⟨hplain, hadvances⟩ := hproper.emit hroot hnames
  have hlater : w.Later ((filer root).emit round bs ⟨w, []⟩).2.workspace :=
    ⟨h, hplain.plain, hadvances.retained.here, hadvances.retained.later⟩
  refine grows_of_touches hlater hroot hmarks
    (touches_emit (fun b hb s hs => ?_) (d := ⟨w, []⟩) h.tree.linkFree)
  have hpath : IsSourcePath root (pathFor root s.qualifiedName) := ⟨_, hnames b hb s hs, rfl⟩
  exact ⟨hpath, fun above habove => ⟨_, hpath, habove⟩⟩

end DiskFiles

/-- A directory of the configuration goes up nowhere if neither it nor the project root does. -/
theorem descends_resolveDirectory {root : Path} {configured : String} (hroot : root.Descends)
    (h : Path.Descends ⟨configured⟩) : (resolveDirectory root configured).Descends := by
  unfold resolveDirectory
  dsimp only
  split
  · exact h
  · split
    · exact h
    · refine descends_join hroot ?_
      cases hafter : Path.afterDot? ⟨configured⟩ with
      | none => exact h
      | some s =>
        unfold Path.Descends
        rw [Option.getD_some, Path.names_of_afterDot? hafter]
        exact h

/-- Do all paths of the arguments and a configuration go up nowhere? No directory of the output is
to have a name that the search for a configuration looks at. -/
structure GenerateOptions.Descends (o : GenerateOptions) (c : Config) : Prop where
  models : Path.Descends ⟨c.modelRoot⟩
  includes : ∀ s ∈ c.includes, Path.Descends ⟨s⟩
  patterns : ∀ s ∈ c.includes, Glob.hasWildcard s = true → ∀ pattern,
    Glob.PathPattern.parse ((resolveDirectory o.start c.modelRoot).join s).text = .ok pattern →
      pattern.Descends
  output : Path.Descends ⟨c.outputRoot⟩
  marks : ∀ name ∈ (resolveDirectory o.start c.outputRoot).names, ¬ IsMark name

/-- Then no walk of the scan goes up. -/
theorem GenerateOptions.Descends.scan {o : GenerateOptions} {c : Config} (h : o.Descends c)
    (hstart : o.start.Descends) :
    Scan.Descends (resolveDirectory o.start c.modelRoot) c.includes :=
  ⟨descends_resolveDirectory hstart h.models,
    fun s hs _ => descends_join (descends_resolveDirectory hstart h.models) (h.includes s hs),
    h.patterns⟩

namespace Workspace.Grows

section Reading

variable {w w' : Workspace} (h : w.Grows w')

include h

/-- A file at the place of an input still reads the same. -/
theorem read_eq_ok {path : Path} {content : Content} (hpath : path.Descends)
    (hinput : Place.IsInput (w.placeOf path)) (hread : w.read path = .ok content) :
    w'.read path = .ok content := by
  unfold read at hread
  cases hentry : w.entry path with
  | error fault =>
    rw [hentry] at hread
    exact nomatch hread
  | ok found =>
    obtain ⟨p, e⟩ := found
    rw [hentry] at hread
    cases e with
    | directory => exact nomatch hread
    | link target => exact nomatch hread
    | file content' =>
      obtain rfl := Except.ok.inj hread
      obtain ⟨htext, rfl, hfile, hend⟩ := (h.before.entry_eq_ok_iff hpath).mp hentry
      have hentry' : w'.entry path = .ok (w.placeOf path, .file content') := by
        rw [h.after.entry_eq_ok_iff hpath, h.placeOf_eq]
        exact ⟨htext, rfl, (h.inputs _ _ hinput).mpr hfile, hend⟩
      rw [read, hentry']

/-- A path names a model file exactly if it named one. -/
theorem isFile_eq {path : Path} (hpath : path.Descends) (hmodel : Scan.isModelFile path = true) :
    w'.isFile path = w.isFile path := by
  rw [Bool.eq_iff_iff, h.after.isFile_iff hpath, h.before.isFile_iff hpath, h.placeOf_eq]
  simp only [h.inputs _ _ (isInput_of_isModelFile hmodel)]

/-- What the search for a configuration looks at is there exactly if it was. -/
theorem holds_join_eq {directory : Path} {name : String} (hdirectory : directory.Descends)
    (hmark : IsMark name) :
    w'.holds (directory.join name) = w.holds (directory.join name) := by
  have hname : Path.IsName name ∧ name ≠ "." ∧ name ≠ ".." := by
    rcases hmark with rfl | rfl
    · exact ⟨⟨by decide, by decide⟩, by decide, by decide⟩
    · exact ⟨⟨by decide, by decide⟩, by decide, by decide⟩
  obtain ⟨hname, hdot, hdots⟩ := hname
  obtain ⟨hjoin, hplace⟩ := placeOf_join (w := w) hdirectory hname.2 hdots
  rw [Path.names_of_isName hname hdot] at hplace
  have hsame := h.marks (w.placeOf (directory.join name)) name
    (by rw [hplace, List.getLast?_concat]) hmark
  rw [Bool.eq_iff_iff, h.after.holds_iff hjoin, h.before.holds_iff hjoin, h.placeOf_eq, hsame]

/-- The configuration that is found is the one that was found. -/
theorem findConfig_eq {start : Path} (hstart : start.Descends) :
    w'.findConfig start = w.findConfig start := by
  have hfound : ∀ directories : List Path, (∀ d ∈ directories, d.Descends) →
      w'.findConfigIn directories = w.findConfigIn directories := by
    intro directories hall
    induction directories with
    | nil => rfl
    | cons directory above ih =>
      have hdirectory := hall directory (List.mem_cons_self ..)
      rw [findConfigIn, findConfigIn, h.holds_join_eq hdirectory (.inl rfl),
        h.holds_join_eq hdirectory (.inr rfl), ih fun d hd => hall d (List.mem_cons_of_mem _ hd)]
  exact hfound _ fun d hd => hstart.of_mem_upward hd

/-- A configuration that was loaded is loaded again. -/
theorem loadConfig_eq_ok {start : Path} {loaded : LoadedConfig} (hstart : start.Descends)
    (hloaded : w.loadConfig start = .ok loaded) : w'.loadConfig start = .ok loaded := by
  cases hfound : w.findConfig start with
  | none =>
    unfold loadConfig at hloaded ⊢
    rw [h.findConfig_eq hstart, hfound]
    rwa [hfound] at hloaded
  | some path =>
    obtain ⟨content, hread⟩ := read_of_loadConfig hloaded hfound
    have hpath : path.Descends := by
      obtain ⟨directory, hdirectory, rfl⟩ := findConfigIn_eq_some hfound
      exact descends_join (hstart.of_mem_upward hdirectory) (by decide)
    have hread' := h.read_eq_ok hpath (isInput_of_findConfig hfound) hread
    unfold loadConfig readText at hloaded ⊢
    rw [h.findConfig_eq hstart, hfound]
    simp only [hfound, hread] at hloaded
    simp only [hread']
    exact hloaded

end Reading

section Planning

variable {w w' : Workspace} (h : w.Grows w') {o : GenerateOptions} {plan : Plan}
  {notes : List Note} (hstart : o.start.Descends)
  (hpaths : ∀ loaded, w.loadConfig o.start = .ok loaded → o.Descends (o.override loaded.config))
  (hplan : w.plan o = (notes, .ok plan))

include h hstart hpaths hplan

/-- A run plans what an earlier one planned. -/
theorem plan_eq_ok : ∃ notes', w'.plan o = (notes', .ok plan) := by
  obtain ⟨loaded, hloaded, hconfig, hmodels, houtput, hfiles⟩ := Workspace.plan_eq_ok hplan
  have hscan := (hpaths loaded hloaded).scan hstart
  obtain ⟨config, outputDirectory, files⟩ := plan
  dsimp only at hconfig hmodels houtput hfiles
  subst hconfig houtput hfiles
  rw [← h.isDirectory_eq hscan.start (h.before.has_of_isDirectory hscan.start hmodels)] at hmodels
  rw [← h.files_scan_eq hscan fun path hpath hmodel => h.isFile_eq hpath hmodel]
  unfold Workspace.plan
  simp only [h.loadConfig_eq_ok hstart hloaded, hmodels, Bool.not_true, Bool.false_eq_true,
    if_false]
  exact ⟨_, rfl⟩

/-- The files that were found load alike. -/
theorem loadModel_eq : ∀ file ∈ plan.files, w'.loadModel file = w.loadModel file := by
  obtain ⟨loaded, hloaded, hconfig, -, -, hfiles⟩ := Workspace.plan_eq_ok hplan
  rw [hconfig] at hfiles
  have hscan := (hpaths loaded hloaded).scan hstart
  intro file hfile
  rw [hfiles] at hfile
  obtain ⟨⟨root, hroot, hstop⟩, -, hisFile, hmodel⟩ := (w.mem_files_scan ..).mp hfile
  have hpath := (leadsBelow_of_visited h.before (hscan.of_mem_roots h.before hroot) hstop).1
  obtain ⟨content, hread⟩ := read_of_isFile hisFile
  have hread' := h.read_eq_ok hpath (isInput_of_isModelFile hmodel) hread
  unfold loadModel readText
  rw [hread, hread']

end Planning

end Workspace.Grows

end ViewBinding
