import ViewBinding.Proofs.Command.Stages
import ViewBinding.Proofs.Model.Scanning
import ViewBinding.Proofs.Path.Names
import ViewBinding.Proofs.Source.Touching

/-!
# What a run may touch

A run that is stopped by a fault, or that is dry, leaves the workspace as it is. Any other run
touches the files of the artifacts of its round and adds directories above them. These files lie
below the output directory and end unlike every file that a run reads, so what it has read stays as
it was.
-/

namespace ViewBinding

open DiskFiles

/-- The file of a collected binding whose package the round finds. -/
def Round.IsArtifactPath (round : Round) (output path : Path) : Prop :=
  ∃ b ∈ round.collect.bindings, ∃ package, round.packageOf? b.owner = some package ∧
    path = pathFor output (b.source package).qualifiedName

/-- The name of an artifact of a round that is loaded is a dotted name. -/
theorem LoadedRound.exists_of_isArtifactPath {w : Workspace} {files : List String}
    {notes : List Note} {round : LoadedRound} (h : w.loadRound files = (notes, .ok round))
    {output path : Path} (hpath : round.program.round.IsArtifactPath output path) :
    ∃ name, Name.isQualified name = true ∧ path = pathFor output name := by
  obtain ⟨b, hb, package, hpackage, hname⟩ := hpath
  have hsource : round.program.round.source b = .ok (b.source package) := by
    rw [Round.source, hpackage]
  exact ⟨_, (w.accepted_loadedFiles files).isQualified_qualifiedName
    (Workspace.ofFiles_of_loadRound h).1 hb hsource, hname⟩

/-- A place whose last name is that of a model file or of a configuration. -/
def Place.IsInput (p : Place) : Prop :=
  ∃ name, p.getLast? = some name ∧
    (Scan.suffix.toList <:+ name.toList ∨ name = Config.fileName)

/-- No artifact is at the place of a model file or a configuration: they end in different
letters. -/
theorem not_isInput_placeOf_pathFor {name : String} (h : Name.isQualified name = true)
    (root : Path) (w : Workspace) : ¬ Place.IsInput (w.placeOf (pathFor root name)) := by
  rintro ⟨last, hlast, hinput⟩
  rw [placeOf_pathFor_eq_append h, namesFor, ← List.append_assoc, List.getLast?_concat] at hlast
  have hartifact : last.toList.getLast? = some 'a' := by
    rw [← Option.some.inj hlast]
    simp [extension, List.getLast?_append]
  have hother : last.toList.getLast? = some 'n' := by
    rcases hinput with hsuffix | rfl
    · obtain ⟨front, hfront⟩ := hsuffix
      rw [← hfront, List.getLast?_append]
      rfl
    · rfl
  exact absurd (hartifact.symm.trans hother) (by decide)

namespace Workspace

section Inputs

variable {w : Workspace} {base : Path} {includes ignores : List String} {file : String}

/-- A path that names a model file leads to the place of one. -/
theorem isInput_of_isModelFile {path : Path} (h : Scan.isModelFile path = true) :
    Place.IsInput (w.placeOf path) := by
  unfold Scan.isModelFile at h
  cases hlast : path.fileName? with
  | none =>
    rw [hlast] at h
    exact nomatch h
  | some name =>
    rw [hlast] at h
    obtain ⟨hnames, hdots⟩ := Path.getLast?_names_of_fileName? hlast
    exact ⟨name, w.getLast?_placeOf hnames hdots, .inl (by simpa using h)⟩

/-- A file that a scan finds is at the place of a model file. -/
theorem isInput_of_mem_scan (h : file ∈ (w.scan base includes ignores).files) :
    Place.IsInput (w.placeOf ⟨file⟩) := by
  obtain ⟨-, -, -, hmodel⟩ := (w.mem_files_scan ..).mp h
  exact isInput_of_isModelFile hmodel

/-- A path that leads to a file reads its content. -/
theorem read_of_isFile {path : Path} (h : w.isFile path = true) :
    ∃ content, w.read path = .ok content := by
  unfold isFile at h
  unfold read
  split at h
  · rename_i place content hentry
    rw [hentry]
    exact ⟨content, rfl⟩
  · exact nomatch h

/-- A configuration is found in a directory, under its name. -/
theorem findConfigIn_eq_some {directories : List Path} {path : Path}
    (h : w.findConfigIn directories = some path) :
    ∃ directory ∈ directories, path = directory.join Config.fileName := by
  induction directories with
  | nil => exact nomatch h
  | cons directory above ih =>
    unfold findConfigIn at h
    dsimp only at h
    split at h
    · exact ⟨directory, List.mem_cons_self .., (Option.some.inj h).symm⟩
    · split at h
      · exact nomatch h
      · obtain ⟨found, hfound, hpath⟩ := ih h
        exact ⟨found, List.mem_cons_of_mem _ hfound, hpath⟩

/-- The configuration that is found is at the place of one. -/
theorem isInput_of_findConfig {start path : Path} (h : w.findConfig start = some path) :
    Place.IsInput (w.placeOf path) := by
  obtain ⟨directory, -, rfl⟩ := findConfigIn_eq_some h
  have hnames : (directory.join Config.fileName).names = directory.names ++ [Config.fileName] :=
    Path.names_join (by decide) directory
  have hlast : (directory.join Config.fileName).names.getLast? = some Config.fileName := by
    rw [hnames, List.getLast?_concat]
  exact ⟨Config.fileName, w.getLast?_placeOf hlast (by decide), .inr rfl⟩

/-- A configuration that is loaded could be read. -/
theorem read_of_loadConfig {start path : Path} {loaded : LoadedConfig}
    (h : w.loadConfig start = .ok loaded) (hpath : w.findConfig start = some path) :
    ∃ content, w.read path = .ok content := by
  unfold loadConfig readText at h
  simp only [hpath] at h
  cases hread : w.read path with
  | error fault =>
    rw [hread] at h
    exact nomatch h
  | ok content => exact ⟨content, rfl⟩

end Inputs

/-- Emitting the bindings of a round touches its artifacts and adds directories above them. -/
theorem touches_emit (w : Workspace) (hfree : w.tree.LinkFree) (round : Round) (output : Path)
    (dryRun : Bool) :
    w.Touches (round.IsArtifactPath output)
      (fun above => ∃ path, round.IsArtifactPath output path ∧ above ∈ path.ancestors)
      (w.emit round round.collect.bindings output dryRun).2 := by
  cases dryRun with
  | true => exact .refl w
  | false =>
    refine DiskFiles.touches_emit (fun b hb s hs => ?_) (d := ⟨w, []⟩) hfree
    cases hpackage : round.packageOf? b.owner with
    | none =>
      rw [Round.source, hpackage] at hs
      cases hs
    | some package =>
      rw [Round.source, hpackage] at hs
      obtain rfl := Except.ok.inj hs
      have hpath : round.IsArtifactPath output (pathFor output (b.source package).qualifiedName) :=
        ⟨b, hb, package, hpackage, rfl⟩
      exact ⟨hpath, fun above habove => ⟨_, hpath, habove⟩⟩

section Reading

variable {w w' : Workspace} {files directories : Path → Prop}

/-- A file that could be read, and is not among those touched, still reads the same. -/
theorem Touches.read_eq (h : w.Touches files directories w') (hfree : w.tree.LinkFree)
    {path : Path} {content : Content} (hread : w.read path = .ok content)
    (hother : ∀ touched, files touched → w.placeOf path ≠ w.placeOf touched) :
    w'.read path = w.read path := by
  have hfile := get?_of_read hfree hread
  rw [hread]
  refine (h.keeps hfree).read_of_read hfree hread ?_
  rw [h.get?_of_file hfile hother, hfile]

end Reading

end Workspace

/-- What a run may touch, in a tree without links. A run that is stopped by a fault, or is dry,
leaves everything as it was. Any other run changes the files of the artifacts of its round and adds
directories above them, and nothing else; it takes nothing away. What was a model file, a
configuration, or any file outside of the output directory stays as it was, so all that the run has
read still reads the same. -/
theorem generate_touches (w : Workspace) (o : GenerateOptions) (hfree : w.tree.LinkFree) :
    ((∃ fault, (w.generate o).result = .error fault) ∨ o.dryRun = true →
      (w.generate o).workspace = w) ∧
    ∀ outcome, (w.generate o).result = .ok outcome →
      ∃ notes plan roundNotes round, w.plan o = (notes, .ok plan) ∧
        w.loadRound plan.files = (roundNotes, .ok round) ∧
        let isArtifact := round.program.round.IsArtifactPath plan.outputDirectory
        let after := (w.generate o).workspace
        after.here = w.here ∧
        (∀ p, after.tree.get? p ≠ w.tree.get? p →
          (∃ path, isArtifact path ∧ p = w.placeOf path ∧ w.placeOf plan.outputDirectory <+: p ∧
            ∃ content, after.tree.get? p = some (.file content)) ∨
          ∃ path, isArtifact path ∧ ∃ above ∈ path.ancestors, p = w.placeOf above ∧
            w.tree.get? p = none ∧ after.tree.get? p = some .directory) ∧
        (∀ p, (w.tree.get? p).isSome → (after.tree.get? p).isSome) ∧
        (∀ p content, w.tree.get? p = some (.file content) →
          p.IsInput ∨ ¬ w.placeOf plan.outputDirectory <+: p → after.tree.get? p = w.tree.get? p) ∧
        (∀ file ∈ plan.files, after.read ⟨file⟩ = w.read ⟨file⟩) ∧
        ∀ path, w.findConfig o.start = some path → after.read path = w.read path := by
  have hexit := w.generateExit o
  revert hexit
  generalize w.generate o = run
  intro hexit
  cases hexit with
  | unplanned hplan => exact ⟨fun _ => rfl, nofun⟩
  | unloaded hplan hround => exact ⟨fun _ => rfl, nofun⟩
  | @emitted planNotes roundNotes plan round hplan hround =>
    refine ⟨?_, fun outcome _ => ?_⟩
    · rintro (⟨fault, hfault⟩ | hdry)
      · exact nomatch hfault
      · simp [Workspace.emitRound, Workspace.emit, hdry]
    · refine ⟨planNotes, plan, roundNotes, round, hplan, hround, ?_⟩
      have htouches := w.touches_emit hfree round.program.round plan.outputDirectory o.dryRun
      have hbelow : ∀ path, round.program.round.IsArtifactPath plan.outputDirectory path →
          w.placeOf plan.outputDirectory <+: w.placeOf path := by
        intro path hpath
        obtain ⟨name, hname, heq⟩ := LoadedRound.exists_of_isArtifactPath hround hpath
        rw [heq, placeOf_pathFor_eq_append hname]
        exact List.prefix_append ..
      have hoff : ∀ p : Place, p.IsInput ∨ ¬ w.placeOf plan.outputDirectory <+: p →
          ∀ path, round.program.round.IsArtifactPath plan.outputDirectory path →
            p ≠ w.placeOf path := by
        intro p hp path hpath hsame
        rw [hsame] at hp
        rcases hp with hinput | houtside
        · obtain ⟨name, hname, heq⟩ := LoadedRound.exists_of_isArtifactPath hround hpath
          exact not_isInput_placeOf_pathFor hname _ w (heq ▸ hinput)
        · exact houtside (hbelow path hpath)
      obtain ⟨loaded, hloaded, -, -, -, hscan⟩ := Workspace.plan_eq_ok hplan
      refine ⟨htouches.here, fun p hp => ?_, fun p => htouches.isSome_get?,
        fun p content hfile hinput => htouches.get?_of_file hfile (hoff p hinput),
        fun file hfile => ?_, fun path hpath => ?_⟩
      · rcases htouches.entries p with hsame | ⟨path, hpath, hplace, -, hfile⟩ |
          ⟨above, ⟨path, hpath, habove⟩, rest⟩
        · exact absurd hsame hp
        · exact .inl ⟨path, hpath, hplace, hplace ▸ hbelow path hpath, hfile⟩
        · exact .inr ⟨path, hpath, above, habove, rest⟩
      · rw [hscan] at hfile
        obtain ⟨-, -, hisFile, -⟩ := (w.mem_files_scan ..).mp hfile
        obtain ⟨content, hread⟩ := Workspace.read_of_isFile hisFile
        exact htouches.read_eq hfree hread (hoff _ (.inl (Workspace.isInput_of_mem_scan hfile)))
      · obtain ⟨content, hread⟩ := Workspace.read_of_loadConfig hloaded hpath
        exact htouches.read_eq hfree hread (hoff _ (.inl (Workspace.isInput_of_findConfig hpath)))

/-- A model file with one bound class. -/
def singleWorkspace : Workspace where
  tree := ⟨[(["build"], .directory), (["build", "viewbind"], .directory),
    (["build", "viewbind", "main.viewbind.json"], .file (.ofText
      "\x7b\"classes\":[\x7b\"name\":\"Main\",\"package\":\"p\",\"contentView\":1\x7d]\x7d"))]⟩

/-- A run adds the artifact of the class, and the model file stays as it was. -/
theorem generate_singleWorkspace : singleWorkspace.tree.LinkFree ∧
    (∃ outcome, (singleWorkspace.generate {}).result = .ok outcome) ∧
    ((singleWorkspace.generate {}).workspace.tree.get?
      ["build", "generated", "viewbind", "p", "Main_ViewBinding.java"]).isSome = true ∧
    (singleWorkspace.generate {}).workspace.tree.get? ["build", "viewbind", "main.viewbind.json"] =
      singleWorkspace.tree.get? ["build", "viewbind", "main.viewbind.json"] := by
  have hfree : singleWorkspace.tree.LinkFree := by
    apply FileTree.linkFree_of_entries
    simp [singleWorkspace]
  have hrun : (singleWorkspace.generate {}).result.isOk = true ∧
      ((singleWorkspace.generate {}).workspace.tree.get?
        ["build", "generated", "viewbind", "p", "Main_ViewBinding.java"]).isSome = true := by
    decide +kernel
  have hinput : Place.IsInput ["build", "viewbind", "main.viewbind.json"] :=
    ⟨"main.viewbind.json", rfl, .inl (by decide)⟩
  cases hresult : (singleWorkspace.generate {}).result with
  | error fault =>
    rw [hresult] at hrun
    exact nomatch hrun.1
  | ok outcome =>
    obtain ⟨_, plan, _, round, -, -, -, -, -, hkept, -⟩ :=
      (generate_touches singleWorkspace {} hfree).2 outcome hresult
    exact ⟨hfree, ⟨outcome, rfl⟩, hrun.2, hkept _ _ rfl (.inl hinput)⟩

end ViewBinding
