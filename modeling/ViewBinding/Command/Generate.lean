import ViewBinding.Command.Arguments
import ViewBinding.Command.Outcome
import ViewBinding.Model.Scan
import ViewBinding.Round.Binding
import ViewBinding.Source.Disk
import ViewBinding.Source.Emission

/-!
# Generating

One run: find the configuration, let the arguments override it, find the model files, load them as
one round, collect the bindings, and write a source for each. A file that does not parse is left
out and reported; a class declared twice stops the run before anything is written.

The other command starts a configuration: the default one is written into a directory that has none.
-/

namespace ViewBinding

/-- What a run has settled before it looks into the model files. -/
structure Plan where
  config : Config
  outputDirectory : Path
  /-- The model files, in ascending order. -/
  files : List String
  deriving DecidableEq

/-- A result and the remarks made on the way to it, or to the fault. -/
abbrev Remarked (α : Type) := List Note × Except RunFault α

/-- A directory of the configuration, seen from the project root. When the root is the current
directory the path is kept as it is written, so that reported paths stay short. -/
def resolveDirectory (root : Path) (configured : String) : Path :=
  let path : Path := ⟨configured⟩
  if path.isAbsolute then path
  else if root.components.all (· == .current) then path
  else root.join (path.afterDot?.getD configured)

namespace GenerateOptions

/-- The directory that the search for the configuration starts at. -/
def start (o : GenerateOptions) : Path := ⟨o.root.getD "."⟩

/-- The configuration with what the arguments override. -/
def override (o : GenerateOptions) (c : Config) : Config :=
  { c with
    modelRoot := o.modelRoot.getD c.modelRoot
    outputRoot := o.outputRoot.getD c.outputRoot }

end GenerateOptions

/-- The remark on where the configuration comes from. -/
def LoadedConfig.note (c : LoadedConfig) : Note :=
  match c.path with
  | some path => .usingConfig path
  | none => .noConfig

/-- The remark on paths that were skipped, if there are any. -/
def skippedNote (count : Nat) : List Note := if count = 0 then [] else [.skippedPaths count]

/-- Settle the configuration and find the model files. -/
def Workspace.plan (w : Workspace) (o : GenerateOptions) : Remarked Plan :=
  match w.loadConfig o.start with
  | .error fault => ([], .error (.config fault))
  | .ok loaded =>
    let config := o.override loaded.config
    let models := resolveDirectory o.start config.modelRoot
    if !w.isDirectory models then ([loaded.note], .error (.noModelDirectory models))
    else
      let scan := w.scan models config.includes config.ignores
      (loaded.note :: scan.notes ++ skippedNote scan.skipped ++
        [.foundFiles scan.files.length models],
       .ok ⟨config, resolveDirectory o.start config.outputRoot, scan.files⟩)

/-- Read and check one model file. -/
def Workspace.loadModel (w : Workspace) (path : String) : Except LoadFault ModelFile :=
  match w.readText ⟨path⟩ with
  | .error fault => .error (.unreadable path fault)
  | .ok content =>
    match ModelFile.parse content with
    | .error fault => .error (.malformed path fault)
    | .ok m => .ok m

/-- A round with the files that were left out of it. -/
structure LoadedRound where
  program : Program
  /-- The paths left out, each with the reason. -/
  leftOut : List (String × LoadFault)
  /-- The number of files in the round. -/
  loaded : Nat
  deriving DecidableEq

/-- The remark on a file that is left out. -/
def leftOutNote (x : String × LoadFault) : Note := .skippedFile x.1 x.2.message

/-- Load model files as one round. -/
def Workspace.loadRound (w : Workspace) (files : List String) : Remarked LoadedRound :=
  let results := files.map fun path => (path, w.loadModel path)
  let loaded := results.filterMap fun (path, r) =>
    match r with
    | .ok m => some (LoadedFile.mk path m)
    | .error _ => none
  let leftOut := results.filterMap fun (path, r) =>
    match r with
    | .ok _ => none
    | .error fault => some (path, fault)
  (leftOut.map leftOutNote,
   match Program.ofFiles loaded with
   | .error fault => .error (.duplicate fault (leftOut.map (·.1)))
   | .ok program => .ok ⟨program, leftOut, loaded.length⟩)

/-- The issue of a file that is left out. -/
def leftOutIssue (x : String × LoadFault) : Issue := .parseError x.1 x.2.message

/-- The issue of a dropped marker. -/
def DroppedMarker.issue (strict : Bool) (d : DroppedMarker) : Issue :=
  .droppedMarker d.marker d.element d.owner (if strict then .error else .warning)

/-- The issue of a binding that was not produced. -/
def EmitFailure.issue (f : EmitFailure) : Issue := .writeFailure f.artifact f.fault.message

/-- Produce the bindings of a round: below the output directory, or in memory for a dry run. -/
def Workspace.emit (w : Workspace) (round : Round) (bindings : List Binding) (output : Path)
    (dryRun : Bool) : EmitReport × Workspace :=
  if dryRun then ((MemoryFiles.filer.emit round bindings {}).1, w)
  else
    let (report, d) := (DiskFiles.filer output).emit round bindings ⟨w, []⟩
    (report, d.workspace)

/-- What a command leaves: remarks, its outcome or fault, and the workspace after it. -/
structure Run where
  notes : List Note
  result : Except RunFault Outcome
  workspace : Workspace

/-- Run `generate`. -/
def Workspace.generate (w : Workspace) (o : GenerateOptions) : Run :=
  match w.plan o with
  | (notes, .error fault) => ⟨notes, .error fault, w⟩
  | (planNotes, .ok plan) =>
    match w.loadRound plan.files with
    | (notes, .error fault) => ⟨planNotes ++ notes, .error fault, w⟩
    | (roundNotes, .ok round) =>
      let found := round.program.round.collect
      let strict := plan.config.strictMarkers || o.strict
      let (report, w) :=
        w.emit round.program.round found.bindings plan.outputDirectory o.dryRun
      let issues := round.leftOut.map leftOutIssue ++ found.dropped.map (·.issue strict) ++
        report.failures.map (·.issue)
      let artifacts := report.written.map fun name =>
        ⟨name, DiskFiles.pathFor plan.outputDirectory name⟩
      { notes := planNotes ++ roundNotes ++
          [.collected found.bindings.length round.program.classes.length]
        result := .ok (.finish
          (.generated artifacts round.loaded plan.outputDirectory o.dryRun) issues)
        workspace := w }

/-- Write the default configuration into a directory; one that is there is never overwritten. -/
def Workspace.createConfig (w : Workspace) (directory : Path) : Run :=
  let path := directory.join Config.fileName
  if w.holds path then ⟨[], .error .configExists, w⟩
  else
    match w.writeFile path (.ofText (Config.document {})) with
    | .error fault => ⟨[], .error (.configNotWritten path fault), w⟩
    | .ok w => ⟨[], .ok (.finish .configCreated []), w⟩

end ViewBinding
