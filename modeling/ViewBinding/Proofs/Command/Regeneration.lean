import ViewBinding.Proofs.Command.Growth
import ViewBinding.Proofs.Report.Grouping

/-!
# Generating again

Over what a run has left, the same arguments plan the same run, load the same round and emit the
same bindings to the same files. So a run that is repeated ends as it did, says that it has done the
same, and changes nothing.
-/

namespace ViewBinding

open Workspace

namespace EmitReport

variable {ends ends' : List (Except EmitFailure String)}

/-- What is written is told by which bindings end well, and under which names. -/
theorem written_ofEnds_eq (h : ends'.map (·.toOption) = ends.map (·.toOption)) :
    (ofEnds ends').written = (ofEnds ends).written := by
  have hwritten : ∀ ends : List (Except EmitFailure String),
      (ofEnds ends).written = (ends.map (·.toOption)).filterMap id := fun ends => by
    rw [List.filterMap_map]
    rfl
  rw [hwritten, hwritten, h]

/-- Some binding fails exactly if one does not end well. -/
theorem failures_ofEnds_eq_nil_iff :
    (ofEnds ends).failures = [] ↔ none ∉ ends.map (·.toOption) := by
  rw [ofEnds, List.filterMap_eq_nil_iff, List.mem_map]
  constructor
  · rintro h ⟨e, he, hnone⟩
    have hend := h e he
    cases e with
    | ok name => exact nomatch hnone
    | error failure => exact nomatch hend
  · intro h e he
    cases e with
    | ok name => rfl
    | error failure => exact absurd ⟨_, he, rfl⟩ h

end EmitReport

/-- A round has errors in itself, or because a binding fails. -/
theorem LoadedRound.exists_error_issues_iff (round : LoadedRound) (strict : Bool)
    (report : EmitReport) :
    (∃ i ∈ round.issues strict report, i.severity = .error) ↔
      (∃ i ∈ round.leftOut.map leftOutIssue ++
        round.program.round.collect.dropped.map (·.issue strict), i.severity = .error) ∨
      report.failures ≠ [] := by
  unfold issues
  constructor
  · rintro ⟨i, hi, hsevere⟩
    rcases List.mem_append.mp hi with hi | hi
    · exact .inl ⟨i, hi, hsevere⟩
    · exact .inr fun hnil => nomatch hnil ▸ hi
  · rintro (⟨i, hi, hsevere⟩ | hfailed)
    · exact ⟨i, List.mem_append_left _ hi, hsevere⟩
    · obtain ⟨failure, hfailure⟩ := List.exists_mem_of_ne_nil _ hfailed
      exact ⟨failure.issue, List.mem_append_right _ (List.mem_map_of_mem hfailure), rfl⟩

/-- A command ends with an error exactly if one was found. -/
theorem Outcome.exists_error_finish_iff {summary : Summary} {found : List Issue} :
    (∃ i ∈ (finish summary found).issues, i.severity = .error) ↔
      ∃ i ∈ found, i.severity = .error := by
  simp only [finish, (Issue.grouped_perm found).mem_iff]

/-- Outcomes that both have errors, or both have none, have the same status. -/
theorem Outcome.status_eq_of_iff {o o' : Outcome}
    (h : (∃ i ∈ o'.issues, i.severity = .error) ↔ ∃ i ∈ o.issues, i.severity = .error) :
    o'.status = o.status := by
  rw [← Issue.errorCount_pos_iff, ← Issue.errorCount_pos_iff] at h
  exact if_congr h rfl rfl

namespace Workspace

section Emitting

variable {w : Workspace} {o : GenerateOptions} {plan : Plan} {round : LoadedRound}

/-- Emitting a round in a run adds nothing that a run would look for. -/
theorem grows_emitRound (h : w.Plain) (hroot : plan.outputDirectory.Descends)
    (hmarks : ∀ name ∈ plan.outputDirectory.names, ¬ IsMark name)
    (hnames : ∀ b ∈ round.program.round.collect.bindings, ∀ s,
      round.program.round.source b = .ok s → Name.isQualified s.qualifiedName = true) :
    w.Grows (w.emitRound o plan round).2 := by
  unfold emitRound emit
  cases o.dryRun with
  | true => exact .refl h
  | false => exact DiskFiles.grows_emit h hroot hmarks hnames

/-- A round that is emitted again writes the same artifacts, fails if it failed, and changes
nothing. -/
theorem emitRound_again (h : w.Plain) (hroot : plan.outputDirectory.Descends)
    (hnames : ∀ b ∈ round.program.round.collect.bindings, ∀ s,
      round.program.round.source b = .ok s → Name.isQualified s.qualifiedName = true)
    {w' : Workspace} (hw' : w' = (w.emitRound o plan round).2) :
    (w'.emitRound o plan round).2 = w' ∧
      (w'.emitRound o plan round).1.written = (w.emitRound o plan round).1.written ∧
      ((w'.emitRound o plan round).1.failures = [] ↔
        (w.emitRound o plan round).1.failures = []) := by
  unfold emitRound emit at hw' ⊢
  cases hdry : o.dryRun with
  | true =>
    rw [hdry] at hw'
    exact ⟨rfl, rfl, Iff.rfl⟩
  | false =>
    simp only [hdry, Bool.false_eq_true, if_false] at hw' ⊢
    have hproper : DiskFiles.Proper plan.outputDirectory ⟨w, []⟩ := ⟨h, nofun, nofun⟩
    have hplain := (hproper.emit hroot hnames).1.plain
    have hagain := hproper.emit_again hroot hnames hplain (.refl _)
    rw [← hw'] at hagain
    obtain ⟨hstore, hends⟩ := hagain
    rw [Filer.report_emit, Filer.report_emit, hstore, EmitReport.written_ofEnds_eq hends,
      EmitReport.failures_ofEnds_eq_nil_iff, EmitReport.failures_ofEnds_eq_nil_iff, hends]
    exact ⟨rfl, rfl, Iff.rfl⟩

end Emitting

/-- A run that is repeated over what it has left ends alike, has done the same, and leaves what the
first run left. -/
theorem generate_again {w : Workspace} {o : GenerateOptions} (h : w.Plain)
    (hstart : o.start.Descends)
    (hpaths : ∀ loaded, w.loadConfig o.start = .ok loaded →
      o.Descends (o.override loaded.config)) {first second : Run} (hfirst : w.generate o = first)
    (hsecond : first.workspace.generate o = second) :
    second.result.map (·.status) = first.result.map (·.status) ∧
      second.result.map (·.summary) = first.result.map (·.summary) ∧
      second.workspace = first.workspace := by
  have hexit := w.generateExit o
  rw [hfirst] at hexit
  cases hexit with
  | unplanned =>
    dsimp only at hsecond
    obtain rfl := hfirst.symm.trans hsecond
    exact ⟨rfl, rfl, rfl⟩
  | unloaded =>
    dsimp only at hsecond
    obtain rfl := hfirst.symm.trans hsecond
    exact ⟨rfl, rfl, rfl⟩
  | @emitted planNotes roundNotes plan round hplan hround =>
    obtain ⟨loaded, hloaded, hconfig, -, houtput, -⟩ := Workspace.plan_eq_ok hplan
    have hdescends := hpaths loaded hloaded
    rw [← hconfig] at hdescends
    have hroot : plan.outputDirectory.Descends := by
      rw [houtput]
      exact descends_resolveDirectory hstart hdescends.output
    have hnames : ∀ b ∈ round.program.round.collect.bindings, ∀ s,
        round.program.round.source b = .ok s → Name.isQualified s.qualifiedName = true :=
      fun b hb s hs => (w.accepted_loadedFiles plan.files).isQualified_qualifiedName
        (ofFiles_of_loadRound hround).1 hb hs
    -- The second run gets as far as the first, with the same plan and the same round.
    have hgrows : w.Grows (w.emitRound o plan round).2 :=
      grows_emitRound h hroot (houtput ▸ hdescends.marks) hnames
    obtain ⟨planNotes', hplan'⟩ := hgrows.plan_eq_ok hstart hpaths hplan
    have hround' := loadRound_congr (hgrows.loadModel_eq hstart hpaths hplan)
    rw [hround] at hround'
    dsimp only at hsecond
    have hexit := (w.emitRound o plan round).2.generateExit o
    rw [hsecond] at hexit
    cases hexit with
    | unplanned hnot => exact nomatch (Prod.mk.inj (hplan'.symm.trans hnot)).2
    | @unloaded _ _ plan' _ hplan'' hnot =>
      obtain rfl : plan = plan' := Except.ok.inj (Prod.mk.inj (hplan'.symm.trans hplan'')).2
      exact nomatch (Prod.mk.inj (hround'.symm.trans hnot)).2
    | @emitted _ _ plan' round' hplan'' hround'' =>
      obtain rfl : plan = plan' := Except.ok.inj (Prod.mk.inj (hplan'.symm.trans hplan'')).2
      obtain rfl : round = round' := Except.ok.inj (Prod.mk.inj (hround'.symm.trans hround'')).2
      obtain ⟨hworkspace, hwritten, hfailures⟩ := emitRound_again h hroot hnames rfl
      refine ⟨?_, ?_, hworkspace⟩
      · refine congrArg Except.ok (Outcome.status_eq_of_iff ?_)
        rw [Outcome.exists_error_finish_iff, Outcome.exists_error_finish_iff,
          LoadedRound.exists_error_issues_iff, LoadedRound.exists_error_issues_iff, ne_eq, ne_eq,
          hfailures]
      · refine congrArg Except.ok ?_
        dsimp only [Outcome.finish]
        rw [GenerateOptions.summary, GenerateOptions.summary, hwritten]

end Workspace

/-- Generating is idempotent. In a plain tree, when the paths of the arguments and the configuration
go up nowhere, no component of an include stands for the directory above, and no directory of the
output has a name that the search for a configuration looks at, a second run with the same arguments
ends with the same fault or status, prints the same output, and leaves the tree as the first run
left it. -/
theorem run_generate_again (w : Workspace) (o : GenerateOptions) (styled : Bool) (h : w.Plain)
    (hstart : o.start.Descends)
    (hpaths : ∀ loaded, w.loadConfig o.start = .ok loaded →
      o.Descends (o.override loaded.config)) :
    let first := w.run styled (some (.generate o))
    let second := first.workspace.run styled (some (.generate o))
    second.result = first.result ∧ second.printed.output = first.printed.output ∧
      second.workspace = first.workspace := by
  obtain ⟨hstatus, hsummary, hworkspace⟩ := generate_again h hstart hpaths rfl rfl
  refine ⟨hstatus, ?_, hworkspace⟩
  have houtput := Report.output_run styled o.verbose ((w.generate o).workspace.generate o)
  rw [hsummary, ← Report.output_run styled o.verbose] at houtput
  exact houtput

/-- A model file with a class that has an artifact and one that lies in a class of no file. -/
def nestedWorkspace : Workspace where
  tree := ⟨[(["m"], .directory), (["m", "main.viewbind.json"], .file (.ofText
    "\x7b\"classes\":[
      \x7b\"name\":\"Main\",\"package\":\"p\",\"contentView\":1\x7d,
      \x7b\"name\":\"Pane\",\"enclosingClass\":\"q.Lost\",\"contentView\":2\x7d]\x7d"))]⟩

/-- The artifacts go below the directory of the model files. -/
def nestedOptions : GenerateOptions := { modelRoot := some "m", outputRoot := some "m/out" }

/-- A run that writes into the model directory and fails for one class fails again. -/
theorem run_generate_nestedWorkspace :
    nestedWorkspace.Plain ∧ nestedOptions.start.Descends ∧
      (∀ loaded, nestedWorkspace.loadConfig nestedOptions.start = .ok loaded →
        nestedOptions.Descends (nestedOptions.override loaded.config)) ∧
      (nestedWorkspace.run false (some (.generate nestedOptions))).result = .ok .failure ∧
      let first := nestedWorkspace.run false (some (.generate nestedOptions))
      let second := first.workspace.run false (some (.generate nestedOptions))
      second.result = first.result ∧ second.printed.output = first.printed.output ∧
        second.workspace = first.workspace := by
  have hplain : nestedWorkspace.Plain := by
    refine ⟨FileTree.plain_of_entries (by decide +kernel) ?_ (by decide +kernel), rfl⟩
    simp [nestedWorkspace]
  have hconfig : nestedWorkspace.loadConfig nestedOptions.start = .ok ⟨{}, none⟩ := by
    decide +kernel
  have hpaths : ∀ loaded, nestedWorkspace.loadConfig nestedOptions.start = .ok loaded →
      nestedOptions.Descends (nestedOptions.override loaded.config) := by
    intro loaded hloaded
    obtain rfl := Except.ok.inj (hconfig.symm.trans hloaded)
    exact ⟨by decide +kernel, nofun, nofun, by decide +kernel, by decide +kernel⟩
  have hstart : nestedOptions.start.Descends := by decide +kernel
  exact ⟨hplain, hstart, hpaths, by decide +kernel,
    run_generate_again nestedWorkspace nestedOptions false hplain hstart hpaths⟩

/-- The paths of the arguments and of a configuration, as they are written. -/
def GenerateOptions.writtenPaths (o : GenerateOptions) (c : Config) : List String :=
  o.root.toList ++ o.modelRoot.toList ++ o.outputRoot.toList ++ [c.modelRoot, c.outputRoot] ++
    c.includes ++ c.ignores

/-- A model file below an include, another that no include reaches, and an include that stands for
what the first run makes. -/
def climbingWorkspace : Workspace where
  tree := ⟨[
    ([".viewbindrc.json"], .file (.ofText "\x7b\"includes\":[\"in\",\"out/app/.*\"]\x7d")),
    (["m"], .directory),
    (["m", "in"], .directory),
    (["m", "in", "b.viewbind.json"], .file (.ofText
      "\x7b\"classes\":[\x7b\"name\":\"B\",\"package\":\"app\",\"contentView\":1\x7d]\x7d")),
    (["m", "out"], .directory),
    (["m", "out", "extra.viewbind.json"], .file (.ofText
      "\x7b\"classes\":[\x7b\"name\":\"C\",\"package\":\"app\",\"contentView\":2\x7d]\x7d"))]⟩

/-- The configuration in it. -/
def climbingConfig : Config := { includes := ["in", "out/app/.*"] }

/-- The model files that are found after the first run. -/
def climbedFiles : List String := ["m/in/b.viewbind.json", "m/out/app/../extra.viewbind.json"]

/-- After the first run the include stands for the directory above the artifacts too, and leads to
the other model file. -/
structure LeadsUp (after : Workspace) : Prop where
  config : after.loadConfig nestedOptions.start =
    .ok ⟨climbingConfig, some ⟨"./.viewbindrc.json"⟩⟩
  roots : (Scan.roots after ⟨"m"⟩ ["in", "out/app/.*"]).1 =
    [⟨"m/in"⟩, ⟨"m/out/app/.."⟩, ⟨"m/out/app/."⟩]
  entries : ∀ x ∈ [("m/in", ["m", "in"]), ("m/out/app/..", ["m", "out"])],
    after.entry ⟨x.1⟩ false = .ok (x.2, .directory) ∧ after.entry ⟨x.1⟩ = .ok (x.2, .directory)
  listed : ∀ p ∈ [["m", "in", "b.viewbind.json"], ["m", "out", "extra.viewbind.json"]],
    p ∈ after.tree.entries.keys
  files : ∀ file ∈ climbedFiles, after.isFile ⟨file⟩ = true ∧ Scan.isModelFile ⟨file⟩ = true ∧
    (after.loadModel file).isOk = true

instance (after : Workspace) : Decidable (LeadsUp after) :=
  decidable_of_iff (_ ∧ _ ∧ _ ∧ _ ∧ _)
    ⟨fun ⟨hconfig, hroots, hentries, hlisted, hfiles⟩ =>
      ⟨hconfig, hroots, hentries, hlisted, hfiles⟩,
    fun h => ⟨h.config, h.roots, h.entries, h.listed, h.files⟩⟩

/-- Both model files are walked over. -/
theorem LeadsUp.visited {after : Workspace} (h : LeadsUp after) :
    ∀ file ∈ climbedFiles, ∃ root ∈ (Scan.roots after ⟨"m"⟩ ["in", "out/app/.*"]).1,
      .visited ⟨file⟩ ∈ after.walk root := by
  rw [h.roots]
  intro file hfile
  rcases List.mem_cons.mp hfile with rfl | hfile
  · obtain ⟨hfalse, hentry⟩ := h.entries ("m/in", ["m", "in"]) (by simp)
    refine ⟨⟨"m/in"⟩, by simp, (visited_mem_walk_of_entry ⟨_, hfalse⟩ hentry).mpr (.inr ?_)⟩
    exact ⟨["b.viewbind.json"], by simp, by decide +kernel, h.listed _ (by simp), by decide +kernel⟩
  · obtain rfl := List.mem_singleton.mp hfile
    obtain ⟨hfalse, hentry⟩ := h.entries ("m/out/app/..", ["m", "out"]) (by simp)
    refine ⟨⟨"m/out/app/.."⟩, by simp, (visited_mem_walk_of_entry ⟨_, hfalse⟩ hentry).mpr (.inr ?_)⟩
    exact ⟨["extra.viewbind.json"], by simp, by decide +kernel, h.listed _ (by simp),
      by decide +kernel⟩

/-- A round of these files is loaded from more than one. -/
theorem LeadsUp.loaded_ne_one {after : Workspace} (h : LeadsUp after) {files : List String}
    (hfound : ∀ file ∈ climbedFiles, file ∈ files) {notes : List Note} {round : LoadedRound}
    (hround : after.loadRound files = (notes, .ok round)) : round.loaded ≠ 1 := by
  have hloads : ∀ file ∈ climbedFiles, ∃ m, ⟨file, m⟩ ∈ after.loadedFiles files := by
    intro file hfile
    have hok := (h.files file hfile).2.2
    cases hload : after.loadModel file with
    | error fault =>
      rw [hload] at hok
      exact nomatch hok
    | ok m => exact ⟨m, mem_loadedFiles (hfound file hfile) hload⟩
  obtain ⟨m, hhere⟩ := hloads "m/in/b.viewbind.json" (List.mem_cons_self ..)
  obtain ⟨m', hthere⟩ := hloads "m/out/app/../extra.viewbind.json"
    (List.mem_cons_of_mem _ (List.mem_singleton_self _))
  rw [(ofFiles_of_loadRound hround).2.2]
  intro hone
  obtain ⟨only, honly⟩ := List.length_eq_one_iff.mp hone
  rw [honly, List.mem_singleton] at hhere hthere
  have hpath : "m/in/b.viewbind.json" = "m/out/app/../extra.viewbind.json" :=
    congrArg LoadedFile.path (hhere.trans hthere.symm)
  exact absurd hpath (by decide)

/-- Then a run finds both, if it is not stopped. -/
theorem LeadsUp.summary_ne {after : Workspace} (h : LeadsUp after) {outcome : Outcome}
    (hresult : (after.generate nestedOptions).result = .ok outcome) :
    ∃ artifacts files directory, outcome.summary = .generated artifacts files directory false ∧
      files ≠ 1 := by
  have hexit := after.generateExit nestedOptions
  revert hexit hresult
  generalize after.generate nestedOptions = run
  intro hresult hexit
  cases hexit with
  | unplanned => exact nomatch hresult
  | unloaded => exact nomatch hresult
  | @emitted _ _ plan round hplan hround =>
    obtain ⟨loaded, hloaded, hconfig, -, -, hscan⟩ := plan_eq_ok hplan
    obtain rfl := Except.ok.inj (h.config.symm.trans hloaded)
    have hbase : resolveDirectory nestedOptions.start plan.config.modelRoot = ⟨"m"⟩ := by
      rw [hconfig]
      decide +kernel
    have hincludes : plan.config.includes = ["in", "out/app/.*"] := by rw [hconfig]; rfl
    have hignores : plan.config.ignores = [] := by rw [hconfig]; rfl
    rw [hbase, hincludes, hignores] at hscan
    have hfound : ∀ file ∈ climbedFiles, file ∈ plan.files := by
      intro file hfile
      rw [hscan, mem_files_scan]
      exact ⟨h.visited file hfile, rfl, (h.files file hfile).1, (h.files file hfile).2.1⟩
    obtain rfl := Except.ok.inj hresult
    exact ⟨_, _, _, rfl, h.loaded_ne_one hfound hround⟩

/-- A summary of several model files does not end like that of one. -/
theorem Report.summary_ne_of_files {artifacts : List Artifact} {files : Nat} {directory : Path}
    (h : files ≠ 1) (start : String) :
    Report.summary false (.generated artifacts files directory false) ≠ start ++ "file\n" := by
  intro hsame
  have hend := congrArg (fun s : String => s.toList.reverse.take 2) hsame
  simp [Report.summary, Report.painted, Style.paint, Report.plural, h] at hend

/-- Two dots need not be written for an include to lead up: `.*` stands for the directory above as
well, and a run that has made a directory for it to lead up from finds more the next time. -/
theorem run_generate_climbingWorkspace :
    climbingWorkspace.Plain ∧
      climbingWorkspace.loadConfig nestedOptions.start =
        .ok ⟨climbingConfig, some ⟨"./.viewbindrc.json"⟩⟩ ∧
      (∀ s ∈ nestedOptions.writtenPaths climbingConfig, ¬ ['.', '.'] <:+: s.toList) ∧
      (∀ name ∈ Path.names ⟨"m/out"⟩, ¬ IsMark name) ∧
      (climbingWorkspace.run false (some (.generate nestedOptions))).result = .ok .success ∧
      let first := climbingWorkspace.run false (some (.generate nestedOptions))
      let second := first.workspace.run false (some (.generate nestedOptions))
      first.printed.output = "✓ Generated 1 binding(s) from 1 model file\n" ∧
        second.printed.output ≠ first.printed.output := by
  obtain ⟨hfirst, houtput, hup⟩ :
      (climbingWorkspace.run false (some (.generate nestedOptions))).result = .ok .success ∧
      (climbingWorkspace.run false (some (.generate nestedOptions))).printed.output =
        "✓ Generated 1 binding(s) from 1 model file\n" ∧
      LeadsUp (climbingWorkspace.run false (some (.generate nestedOptions))).workspace := by
    decide +kernel
  refine ⟨⟨FileTree.plain_of_entries (by decide +kernel) ?_ (by decide +kernel), rfl⟩,
    by decide +kernel, by decide +kernel, by decide +kernel, hfirst, houtput, ?_⟩
  · simp [climbingWorkspace]
  · rw [houtput]
    revert hup
    generalize (climbingWorkspace.run false (some (.generate nestedOptions))).workspace = after
    intro hup hsame
    have hprinted := Report.output_run false nestedOptions.verbose (after.generate nestedOptions)
    replace hsame := hprinted.symm.trans hsame
    cases hresult : (after.generate nestedOptions).result with
    | error fault =>
      rw [hresult] at hsame
      have hnothing : "" = "✓ Generated 1 binding(s) from 1 model file\n" := hsame
      exact absurd hnothing (by decide)
    | ok outcome =>
      obtain ⟨artifacts, files, directory, hsummary, hfiles⟩ := hup.summary_ne hresult
      rw [hresult, Except.map, hsummary] at hsame
      have hsplit : "✓ Generated 1 binding(s) from 1 model file\n" =
          "✓ Generated 1 binding(s) from 1 model " ++ "file\n" := by decide
      exact Report.summary_ne_of_files hfiles _ (hsame.trans hsplit)

end ViewBinding
