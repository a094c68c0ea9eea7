import ViewBinding.FileTree.Workspace

/-!
# Changes to a workspace

Directories and files can be made, and files written. A step that is refused changes nothing, but
making a directory with all above it may have made some of them before it is refused.
-/

namespace ViewBinding

namespace Workspace

/-- Put an entry at a place. -/
def put (w : Workspace) (place : Place) (e : Entry) : Workspace :=
  { w with tree := w.tree.insert place e }

/-- The names of a path without its last, and the last if it is a name of its own. -/
def splitLast (path : Path) : List String × Option String :=
  let names := (Text.split '/' path.text).filter (· ≠ "")
  match names.getLast? with
  | none => ([], none)
  | some "." | some ".." => (names.dropLast, none)
  | some name => (names.dropLast, some name)

/-- The directory that the names before the last lead to. -/
def locateAbove (w : Workspace) (path : Path) : Except FileFault Place :=
  match textFault? path with
  | some fault => .error fault
  | none =>
    let start := origin path.text w.here
    match followWithin w.tree true maxLinks start ((splitLast path).1 ++ ["."]) with
    | .error fault => .error fault
    | .ok (.present place _) => .ok place
    | .ok (.absent _ _) => .error .notFound

/-- Make one directory. Its name must be free, even of a link that leads nowhere. -/
def makeDirectory (w : Workspace) (path : Path) : Except FileFault Workspace :=
  match w.locateAbove path with
  | .error fault => .error fault
  | .ok above =>
    match (splitLast path).2 with
    | none => .error .alreadyExists
    | some name =>
      if maxNameBytes < name.utf8ByteSize then .error .nameTooLong
      else if (w.tree.get? (above ++ [name])).isSome then .error .alreadyExists
      else .ok (w.put (above ++ [name]) .directory)

/-- End a refused step well if the directory is there after all. -/
def acceptDirectory (w : Workspace) (path : Path) (fault : FileFault) :
    Except FileFault Unit × Workspace :=
  if w.isDirectory path then (.ok (), w) else (.error fault, w)

/-- Make a directory and those above it, `fuel` bounding how far up to go. -/
def makeDirectoriesWithin : Nat → Path → Workspace → Except FileFault Unit × Workspace
  | 0, _, w => (.ok (), w)
  | fuel + 1, path, w =>
    if path.text.isEmpty then (.ok (), w)
    else
      match w.makeDirectory path with
      | .ok w => (.ok (), w)
      | .error .notFound =>
        match path.parent? with
        | none => (.error .notFound, w)
        | some above =>
          match makeDirectoriesWithin fuel above w with
          | (.error fault, w) => (.error fault, w)
          | (.ok (), w) =>
            match w.makeDirectory path with
            | .ok w => (.ok (), w)
            | .error fault => w.acceptDirectory path fault
      | .error fault => w.acceptDirectory path fault

/-- Make a directory and those above it that are missing. Each step up shortens the path. -/
def makeDirectories (path : Path) (w : Workspace) : Except FileFault Unit × Workspace :=
  makeDirectoriesWithin (path.text.length + 1) path w

/-- Make a file empty, or make an empty file where there is none, at the end of links too. -/
def createFile (w : Workspace) (path : Path) : Except FileFault (Place × Workspace) :=
  match w.locateAbove path with
  | .error fault => .error fault
  | .ok _ =>
    if (splitLast path).2.isNone || path.text.toList.getLast? = some '/' then .error .isDirectory
    else
      match w.locate path with
      | .error fault => .error fault
      | .ok (.present _ .directory) => .error .isDirectory
      | .ok (.present place _) => .ok (place, w.put place (.file .empty))
      | .ok (.absent above name) =>
        .ok (above ++ [name], w.put (above ++ [name]) (.file .empty))

/-- Create a file with a content. -/
def writeFile (w : Workspace) (path : Path) (content : Content) : Except FileFault Workspace :=
  match w.createFile path with
  | .error fault => .error fault
  | .ok (place, w) => .ok (w.put place (.file content))

end Workspace

end ViewBinding
