import ViewBinding.Report.Printer

/-!
# Surveys

A command runs on a tree of files held in memory. A survey copies from the disk what the command
can ask about: the way up to the configuration, the directories that models are looked for in, and
the output directory. What the command changed is then written back.
-/

namespace ViewBinding

/-- The tree copied so far, and the directories whose contents are in it. -/
structure Survey where
  tree : FileTree := {}
  listed : List Place := []

/-- A step of a survey. -/
abbrev Surveying := StateT Survey IO

namespace Survey

/-- A place as the disk knows it. -/
def address (place : Place) : IO.FS.DirEntry :=
  ⟨"/" ++ "/".intercalate place.dropLast, place.getLast?.getD ""⟩

/-- What the disk holds at a place. A link is taken to lead to its final target; one that leads
nowhere is passed over, and so is what cannot be read. The content of a file is copied only if it
is wanted. -/
def entryOnDisk (wanted : Bool) (place : Place) : IO (Option Entry) := do
  let path := (address place).path
  let .ok found ← path.symlinkMetadata.toBaseIO | return none
  match found.type with
  | .dir => return some .directory
  | .file =>
    if !wanted then return some (.file .empty)
    let .ok content ← (IO.FS.readBinFile path).toBaseIO | return none
    return some (.file content)
  | .symlink =>
    let .ok target ← (IO.FS.realPath path).toBaseIO | return none
    return some (.link target.toString)
  | .other => return none

/-- Copy the entry at a place, unless it is there. -/
def visit (wanted : Bool) (place : Place) : Surveying (Option Entry) := do
  match (← get).tree.get? place with
  | some e => return some e
  | none =>
    let found ← entryOnDisk wanted place
    if let some e := found then modify fun s => { s with tree := s.tree.insert place e }
    return found

/-- Follow names from a directory and copy every entry on the way, with at most `links` links. The
place that is reached, if it is a directory. -/
partial def way (wanted : Bool) (links : Nat) (place : Place) :
    List String → Surveying (Option Place)
  | [] => return some place
  | "." :: rest => way wanted links place rest
  | ".." :: rest => way wanted links place.dropLast rest
  | name :: rest => do
    match ← visit wanted (place ++ [name]) with
    | some .directory => way wanted links (place ++ [name]) rest
    | some (.link target) =>
      if links = 0 then return none
      way wanted (links - 1) [] (Workspace.steps target ++ rest)
    | _ => return none

/-- Copy all that lies under a directory, through links too. -/
partial def below (wanted : Bool) (place : Place) : Surveying Unit := do
  if place ∈ (← get).listed then return
  modify fun s => { s with listed := place :: s.listed }
  let .ok inside ← (address place).path.readDir.toBaseIO | return
  for e in inside do
    let next := place ++ [e.fileName]
    match ← visit wanted next with
    | some .directory => below wanted next
    | some (.link target) =>
      if let some there ← way wanted Workspace.maxLinks [] (Workspace.steps target) then
        below wanted there
    | _ => pure ()

/-- Copy the way that a path leads. -/
def path (wanted : Bool) (here : Place) (p : Path) : Surveying (Option Place) :=
  way wanted Workspace.maxLinks (Workspace.origin p.text here) (Workspace.steps p.text)

/-- Copy the way that a path leads, and all that lies under its end. -/
def pathAndBelow (wanted : Bool) (here : Place) (p : Path) : Surveying Unit := do
  if let some place ← path wanted here p then below wanted place

/-- The path under which all paths lie that an include stands for: for a pattern, its components
before the first wildcard. -/
def includeTop (base : Path) (s : String) : Path :=
  let whole := base.join s
  if Glob.hasWildcard s then
    match Glob.PathPattern.parse whole.text with
    | .ok p => ((p.components.map (·.literal?)).takeWhile (·.isSome)).reduceOption.foldl
        Glob.step p.start
    | .error _ => whole
  else whole

/-- Copy what `generate` can ask about. -/
def forGenerate (here : Place) (o : GenerateOptions) : Surveying Unit := do
  for directory in o.start.upward do
    let _ ← path true here (directory.join Config.fileName)
    let _ ← path false here (directory.join Workspace.repositoryMark)
  if let .ok loaded := (Workspace.mk (← get).tree here).loadConfig o.start then
    let config := o.override loaded.config
    let models := resolveDirectory o.start config.modelRoot
    if config.includes.isEmpty then pathAndBelow true here models
    else
      let _ ← path true here models
      for s in config.includes do pathAndBelow true here (includeTop models s)
    pathAndBelow false here (resolveDirectory o.start config.outputRoot)

/-- Copy what a command can ask about. -/
def forCommand (here : Place) : Option Command → Surveying Unit
  | none => pure ()
  | some (.generate o) => forGenerate here o
  | some .init => do let _ ← path false here ⟨Config.fileName⟩

/-- The workspace of a command in the current directory. -/
def ofCommand (command : Option Command) : IO Workspace := do
  let here := Workspace.steps (← IO.currentDir).toString
  let survey : Surveying Unit := do
    let _ ← way false Workspace.maxLinks [] here
    forCommand here command
  let (_, s) ← survey.run {}
  return ⟨s.tree, here⟩

/-- Write to the disk what is new or different in the later of two trees. -/
def writeBack (earlier later : FileTree) : IO Unit := do
  for (place, e) in later.entries do
    if earlier.get? place != some e then
      let path := (address place).path
      match e with
      | .directory => IO.FS.createDir path
      | .file content => IO.FS.writeBinFile path content
      | .link _ => pure ()

end Survey

end ViewBinding
