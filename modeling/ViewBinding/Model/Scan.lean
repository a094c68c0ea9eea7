import ViewBinding.FileTree.Walk
import ViewBinding.Glob.Expand

/-!
# Scanning for model files

Model files are the files with the right suffix under the base directory, or under the included
directories if any are named. Includes and ignores with wildcards are patterns, others are paths
below the base. What lies at or under an ignored path, or matches an ignore pattern, is left out.

What a run remarks on its way, here and elsewhere, is for the reader of the terminal only; nothing
that is generated depends on it.
-/

namespace ViewBinding

/-- A remark of a run. -/
inductive Note where
  | usingConfig (path : Path)
  | noConfig
  | invalidIgnore (pattern : String) (error : Glob.PatternError)
  | invalidInclude (pattern : String) (error : Glob.PatternError)
  | missingInclude (path : Path)
  | barred (path : Path) (fault : FileFault)
  /-- The number of paths that could not be visited; remarked even when remarks are not wanted. -/
  | skippedPaths (count : Nat)
  | foundFiles (count : Nat) (directory : Path)
  | skippedFile (path : String) (reason : String)
  | collected (bindings classes : Nat)
  deriving DecidableEq

/-- The files found and what was remarked on the way. -/
structure Scan where
  /-- The model files, in ascending order, each once. -/
  files : List String
  /-- The number of paths that could not be visited. -/
  skipped : Nat
  notes : List Note
  deriving DecidableEq

namespace Scan

/-- The end of a model file's name. -/
def suffix : String := ".viewbind.json"

/-- Does a path name a model file? -/
def isModelFile (path : Path) : Bool :=
  match path.fileName? with
  | some name => suffix.toList.isSuffixOf name.toList
  | none => false

/-- The ignores of a scan: paths, and patterns that are well formed. -/
structure Ignores where
  paths : List Path := []
  patterns : List Glob.Pattern := []
  deriving DecidableEq

/-- Sort ignores into paths and patterns; one that is no pattern is remarked on. -/
def readIgnores (base : Path) : List String → Ignores × List Note
  | [] => ({}, [])
  | s :: rest =>
    let (ignores, notes) := readIgnores base rest
    if Glob.hasWildcard s then
      match Glob.Pattern.parse s with
      | .ok p => ({ ignores with patterns := p :: ignores.patterns }, notes)
      | .error e => (ignores, .invalidIgnore s e :: notes)
    else ({ ignores with paths := base.join s :: ignores.paths }, notes)

/-- Is a path left out? -/
def Ignores.cover (ignores : Ignores) (path : Path) : Bool :=
  ignores.paths.any path.startsWith || ignores.patterns.any (·.isMatch path.text)

/-- The paths that one include stands for, and what is remarked on it. -/
def readInclude (w : Workspace) (base : Path) (s : String) : List Path × List Note :=
  let path := base.join s
  if Glob.hasWildcard s then
    match Glob.PathPattern.parse path.text with
    | .ok p => ((p.expand w).filter w.isDirectory, [])
    | .error e => ([], [.invalidInclude s e])
  else if w.holds path then ([path], [])
  else ([], [.missingInclude path])

/-- The paths to walk: the base, or what the includes stand for. -/
def roots (w : Workspace) (base : Path) (includes : List String) : List Path × List Note :=
  if includes.isEmpty then ([base], [])
  else
    let found := includes.map (readInclude w base)
    (found.flatMap (·.1), found.flatMap (·.2))

/-- The model file at a stop, if there is one that is not left out. -/
def fileAt (w : Workspace) (ignores : Ignores) : Stop → Option String
  | .barred _ _ => none
  | .visited path =>
    if ignores.cover path then none
    else if w.isFile path && isModelFile path then some path.text
    else none

/-- The remark on a stop. -/
def noteAt : Stop → Option Note
  | .barred path fault => some (.barred path fault)
  | .visited _ => none

end Scan

/-- Find the model files below a base directory. -/
def Workspace.scan (w : Workspace) (base : Path) (includes ignores : List String) : Scan :=
  let (left, ignoreNotes) := Scan.readIgnores base ignores
  let (roots, includeNotes) := Scan.roots w base includes
  let stops := roots.flatMap w.walk
  let barred := stops.filterMap Scan.noteAt
  { files := ((stops.filterMap (Scan.fileAt w left)).mergeSort fun a b => a ≤ b).eraseDups
    skipped := barred.length
    notes := ignoreNotes ++ includeNotes ++ barred }

end ViewBinding
