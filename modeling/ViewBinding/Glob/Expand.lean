import ViewBinding.FileTree.Workspace
import ViewBinding.Glob.Pattern

/-!
# Expanding patterns

A pattern that is a path is expanded component by component to the paths that exist. A component
without wildcards is taken as it is written; any other is matched against the names in a directory.
The component `**` stands for any number of directories, links to directories included.
-/

namespace ViewBinding.Glob

/-- A pattern as a path: the directory it begins in, its components, and whether a final slash asks
for directories only. -/
structure PathPattern where
  start : Path
  components : List Pattern
  wantsDirectory : Bool
  deriving DecidableEq, Repr

namespace PathPattern

/-- The pieces of a text between slashes; one that is empty at the end does not count. -/
def splitTerminated (s : String) : List String :=
  let pieces := Text.split '/' s
  if pieces.getLast? = some "" then pieces.dropLast else pieces

/-- Read a pattern as a path: it has to be well formed as a whole and in each component. -/
def parse (s : String) : Except PatternError PathPattern := do
  let _ ← Pattern.parse s
  let absolute := s.toList.head? == some '/'
  let components ← (splitTerminated (if absolute then String.ofList s.toList.tail else s)).mapM
    Pattern.parse
  pure ⟨⟨if absolute then "/" else "."⟩, components, s.toList.getLast? == some '/'⟩

end PathPattern

/-- Go on from a path to a name. The starting dot is not written. -/
def step (path : Path) (name : String) : Path :=
  if path.isDot then ⟨name⟩ else path.join name

/-- The pattern components after leading `**` components but the last of them. -/
def lastRecursive : List Pattern → List Pattern
  | p :: q :: rest => if q.isRecursive then lastRecursive (q :: rest) else p :: q :: rest
  | ps => ps

/-- Is the first token of a pattern a plain dot? Only then may it match `.` and `..`. -/
def beginsWithDot (p : Pattern) : Bool := p.tokens.head? == some (.char '.')

variable (w : Workspace) (wantsDirectory : Bool)

/-- A path that the whole pattern matches, unless it has to be a directory and is none. -/
def result (path : Path) : List Path :=
  if !wantsDirectory || w.isDirectory path then [path] else []

mutual

/-- The paths that components match from a directory. `fuel` bounds how far down to go. -/
def expandFrom : Nat → List Pattern → Path → List Path
  | 0, _, _ => []
  | _, [], _ => []
  | fuel + 1, p :: rest, path =>
    match p.literal? with
    | some name =>
      let next := step path name
      let there := if name = "." ∨ name = ".." then w.isDirectory path else w.holds next
      if !there then []
      else if rest.isEmpty then result w wantsDirectory next
      else expandFrom fuel rest next
    | none =>
      if !w.isDirectory path then []
      else
        let special := if beginsWithDot p then ["..", "."].filter p.isMatch else []
        (special.flatMap fun name =>
          if rest.isEmpty then result w wantsDirectory (path.join name)
          else expandFrom fuel rest (path.join name)) ++
        (w.list path).flatMap fun name => visit fuel (p :: rest) name (step path name)

/-- The paths that components match at an entry of a directory, the first by its name. -/
def visit : Nat → List Pattern → String → Path → List Path
  | 0, _, _, _ => []
  | _, [], _, _ => []
  | fuel + 1, p :: rest, name, path =>
    if p.isRecursive then
      let ps := lastRecursive (p :: rest)
      if ps.tail.isEmpty then
        if w.isDirectory path then path :: expandFrom fuel ps path else []
      else
        visit fuel ps.tail name path ++
          if w.isDirectory path then expandFrom fuel ps path else []
    else if !p.isMatch name then []
    else if rest.isEmpty then result w wantsDirectory path
    else expandFrom fuel rest path

end

/-- The paths that a pattern matches. Every step goes on to the next component or to a longer path,
and no path is longer than the limit. -/
def PathPattern.expand (pattern : PathPattern) : List Path :=
  let fuel := 2 * Workspace.pathByteLimit + 2 * pattern.components.length
  if pattern.components.isEmpty then []
  else expandFrom w pattern.wantsDirectory fuel pattern.components pattern.start

end ViewBinding.Glob
