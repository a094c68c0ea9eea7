import ViewBinding.FileTree.Change
import ViewBinding.Source.Filer

/-!
# Sources on disk

The filer that writes below an output directory: a directory for every segment of the package, and
a file named for the class. It remembers what it created, so that no name is created twice in one
round; files from earlier rounds are overwritten.
-/

namespace ViewBinding

/-- A workspace and the names created in it during this round. -/
structure DiskFiles where
  workspace : Workspace
  created : List String := []
  deriving DecidableEq

namespace DiskFiles

/-- The extension of source files. -/
def extension : String := "java"

/-- The file of a qualified name below an output directory. -/
def pathFor (root : Path) (name : String) : Path :=
  ((Text.split '.' name).foldl Path.join root).withExtension extension

/-- Make the directory that a path lies in, if it lies in one. -/
def makeParent (path : Path) (w : Workspace) : Except FileFault Unit × Workspace :=
  match path.parent? with
  | some above => Workspace.makeDirectories above w
  | none => (.ok (), w)

/-- Create the file of a name, with the directories above it. The name counts as created only when
all has gone well. -/
def create (root : Path) (name : String) : Filing DiskFiles := fun d =>
  if name ∈ d.created then (.error (.alreadyCreated name), d)
  else
    let path := pathFor root name
    match makeParent path d.workspace with
    | (.error fault, w) => (.error (.file fault), { d with workspace := w })
    | (.ok (), w) =>
      match w.createFile path with
      | .error fault => (.error (.file fault), { d with workspace := w })
      | .ok (_, w) => (.ok (), ⟨w, name :: d.created⟩)

/-- Write the content of a name that was just created. -/
def write (root : Path) (name : String) (content : Content) : Filing DiskFiles := fun d =>
  match d.workspace.writeFile (pathFor root name) content with
  | .error fault => (.error (.file fault), d)
  | .ok w => (.ok (), { d with workspace := w })

/-- The filer below an output directory. -/
def filer (root : Path) : Filer DiskFiles where
  create := create root
  write := write root
  flush := fun _ d => (.ok (), d)

end DiskFiles

end ViewBinding
