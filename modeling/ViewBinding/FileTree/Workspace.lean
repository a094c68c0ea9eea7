import ViewBinding.FileTree.Basic
import ViewBinding.Path

/-!
# Workspaces

A workspace is a file tree and the directory that relative paths begin at. Paths are followed name
by name; a double dot goes to the directory above, and a symbolic link goes on at its target, though
not more than forty times. What can be asked of a path is whether it leads to something, what that
is, and what a file or directory holds.
-/

namespace ViewBinding

/-- A file tree and the directory that relative paths begin at. -/
structure Workspace where
  tree : FileTree := {}
  here : Place := []
  deriving DecidableEq

/-- Where a path leads: to an entry, or to a free name in a directory. -/
inductive Located where
  | present (place : Place) (entry : Entry)
  | absent (directory : Place) (name : String)
  deriving DecidableEq

namespace Workspace

/-- The number of bytes that a name may have. -/
def maxNameBytes : Nat := 255

/-- The number of bytes from which on a path is too long. -/
def pathByteLimit : Nat := 4096

/-- The number of links that are followed on one way. -/
def maxLinks : Nat := 40

/-- The names to follow for a path. A final slash asks for a directory, as a dot does. -/
def steps (path : String) : List String :=
  let names := (Text.split '/' path).filter (· ≠ "")
  if path.toList.getLast? = some '/' then names ++ ["."] else names

/-- The place that a path begins at when it is used in a directory. -/
def origin (path : String) (directory : Place) : Place :=
  if path.toList.head? = some '/' then [] else directory

/-- Follow names from a directory. `jump` goes on at the target of a link; a link at the end is
followed only if asked. -/
def follow (tree : FileTree) (followLast : Bool)
    (jump : Place → String → List String → Except FileFault Located) :
    Place → List String → Except FileFault Located
  | place, [] => .ok (.present place .directory)
  | place, name :: rest =>
    if name = "." then follow tree followLast jump place rest
    else if name = ".." then follow tree followLast jump place.dropLast rest
    else if maxNameBytes < name.utf8ByteSize then .error .nameTooLong
    else
      let next := place ++ [name]
      match tree.get? next with
      | none => if rest.isEmpty then .ok (.absent place name) else .error .notFound
      | some .directory => follow tree followLast jump next rest
      | some (.file content) =>
        if rest.isEmpty then .ok (.present next (.file content)) else .error .notDirectory
      | some (.link target) =>
        if rest.isEmpty && !followLast then .ok (.present next (.link target))
        else jump place target rest

/-- Follow names, with at most `links` links on the way. -/
def followWithin (tree : FileTree) (followLast : Bool) :
    Nat → Place → List String → Except FileFault Located
  | 0 => follow tree followLast fun _ _ _ => .error .tooManyLinks
  | links + 1 => follow tree followLast fun place target rest =>
    followWithin tree followLast links (origin target place) (steps target ++ rest)

/-- The faults of a path's text: a path is not empty, holds no NUL and has a limited length. -/
def textFault? (path : Path) : Option FileFault :=
  if path.text.toList.contains '\x00' then some .nulInName
  else if path.text.isEmpty then some .notFound
  else if pathByteLimit ≤ path.text.utf8ByteSize then some .nameTooLong
  else none

/-- Where a path leads. -/
def locate (w : Workspace) (path : Path) (followLast : Bool := true) :
    Except FileFault Located :=
  match textFault? path with
  | some fault => .error fault
  | none =>
    followWithin w.tree followLast maxLinks (origin path.text w.here) (steps path.text)

/-- The place and entry that a path leads to, through links or, if asked, not through a last one. -/
def entry (w : Workspace) (path : Path) (followLast : Bool := true) :
    Except FileFault (Place × Entry) :=
  match w.locate path followLast with
  | .error fault => .error fault
  | .ok (.absent _ _) => .error .notFound
  | .ok (.present place e) => .ok (place, e)

/-- Does a path lead to anything? -/
def holds (w : Workspace) (path : Path) : Bool := (w.entry path).isOk

/-- Does a path lead to a directory? -/
def isDirectory (w : Workspace) (path : Path) : Bool :=
  match w.entry path with
  | .ok (_, .directory) => true
  | _ => false

/-- Does a path lead to a file? -/
def isFile (w : Workspace) (path : Path) : Bool :=
  match w.entry path with
  | .ok (_, .file _) => true
  | _ => false

/-- The content of the file that a path leads to. -/
def read (w : Workspace) (path : Path) : Except FileFault Content :=
  match w.entry path with
  | .error fault => .error fault
  | .ok (_, .file content) => .ok content
  | .ok (_, _) => .error .isDirectory

/-- The text of the file that a path leads to. -/
def readText (w : Workspace) (path : Path) : Except FileFault String :=
  match w.read path with
  | .error fault => .error fault
  | .ok content =>
    match content.text? with
    | some s => .ok s
    | none => .error .notText

/-- The names in the directory that a path leads to, in ascending order. -/
def list (w : Workspace) (path : Path) : List String :=
  match w.entry path with
  | .ok (place, .directory) => w.tree.names place
  | _ => []

end Workspace

end ViewBinding
