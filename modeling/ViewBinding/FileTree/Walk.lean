import ViewBinding.FileTree.Workspace

/-!
# Walks

A walk visits a path and all that lies under it. A link is followed where the walk begins and not
further down. What cannot be visited is reported with its fault, and the walk goes on.
-/

namespace ViewBinding

/-- One stop of a walk. -/
inductive Stop where
  | visited (path : Path)
  | barred (path : Path) (fault : FileFault)
  deriving DecidableEq

namespace Workspace

/-- The path of what lies under a path by these names. -/
def under (path : Path) (names : List String) : Path := names.foldl Path.join path

/-- Is the path too long to be used? -/
def isTooLong (path : Path) : Bool := pathByteLimit ≤ path.text.utf8ByteSize

/-- The stop at what lies under the start by these names. A directory whose path is too long is
visited but cannot be read, so nothing under it is. -/
def stopsUnder (w : Workspace) (start : Path) (place : Place) (names : List String) : List Stop :=
  let path := under start names
  if isTooLong (under start names.dropLast) then []
  else if isTooLong path && w.tree.get? (place ++ names) == some .directory then
    [.visited path, .barred path .nameTooLong]
  else [.visited path]

/-- The stops of the walk from a path, a directory before what it holds. -/
def walk (w : Workspace) (start : Path) : List Stop :=
  match w.entry start false, w.entry start with
  | .error fault, _ => [.barred start fault]
  | .ok _, .error fault => [.barred start fault]
  | .ok _, .ok (place, .directory) =>
    .visited start ::
      (w.tree.below place).flatMap fun q => w.stopsUnder start place (q.drop place.length)
  | .ok _, .ok _ => [.visited start]

end Workspace

end ViewBinding
