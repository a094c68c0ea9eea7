import ViewBinding.Command.Generate
import ViewBinding.Command.Help
import ViewBinding.Report.Terminal

/-!
# Reports

What a run prints. Remarks and issues go to the error stream, the summary to the output stream.
-/

namespace ViewBinding

/-- What a process prints on its two streams. -/
structure Printed where
  output : String := ""
  errors : String := ""
  deriving DecidableEq, Repr

namespace Report

/-- The mark of success. -/
def successMark : String := "✓"

/-- The mark of failure. -/
def failureMark : String := "✘"

/-- One form of a noun for one thing, another for any other number. -/
def plural (n : Nat) (one many : String) : String := if n = 1 then one else many

/-- What introduces a remark. -/
def noteLabel (styled : Bool) : String := ({ bold := true } : Style).paint styled "note:"

/-- What introduces a warning. -/
def warningLabel (styled : Bool) : String :=
  ({ bold := true, color := some .yellow } : Style).paint styled "warning:"

/-- A text in one colour. -/
def painted (styled : Bool) (color : Color) (text : String) : String :=
  ({ color := some color } : Style).paint styled text

/-- The line of a remark. Only the number of skipped paths is printed when remarks are not wanted,
and then says how to see them. -/
def noteLine (styled verbose : Bool) (note : Note) : Option String :=
  let remark (s : String) := noteLabel styled ++ " " ++ s ++ "\n"
  let warning (s : String) := warningLabel styled ++ " " ++ s ++ "\n"
  match note, verbose with
  | .skippedPaths count, verbose =>
    some (warning (toString count ++ " path(s) skipped due to access errors" ++
      if verbose then "" else " (use -v for details)"))
  | _, false => none
  | .usingConfig path, true => some (remark ("Using " ++ path.text))
  | .noConfig, true =>
    some (remark ("No " ++ Config.fileName ++ " found, using default configuration"))
  | .invalidIgnore pattern error, true =>
    some (warning ("Invalid ignore pattern '" ++ pattern ++ "': " ++ error.message))
  | .invalidInclude pattern error, true =>
    some (warning ("Invalid glob pattern '" ++ pattern ++ "': " ++ error.message))
  | .missingInclude path, true =>
    some (warning ("Include path does not exist: " ++ path.text))
  | .barred path fault, true =>
    some (warning ("Cannot access path: IO error for operation on " ++ path.text ++ ": " ++
      fault.message))
  | .foundFiles count directory, true =>
    some (remark ("Found " ++ toString count ++ " model file(s) in " ++ directory.text))
  | .skippedFile path reason, true => some (warning ("Skipping " ++ path ++ ": " ++ reason))
  | .collected bindings classes, true =>
    some (remark ("Collected " ++ toString bindings ++ " binding(s) from " ++ toString classes ++
      " class(es)"))

/-- The lines of the remarks that are printed. -/
def notes (styled verbose : Bool) (ns : List Note) : String :=
  String.join (ns.filterMap (noteLine styled verbose))

/-- The word for a severity in its colour. -/
def severity (styled : Bool) : Severity → String
  | .error => ({ bold := true, color := some .red } : Style).paint styled Severity.error.label
  | .warning =>
    ({ bold := true, color := some .yellow } : Style).paint styled Severity.warning.label

/-- The lines of an issue: what it is, where it is, and how it can be mended if that is known. -/
def issue (styled : Bool) (i : Issue) : String :=
  let rule := ({ dimmed := true, color := some .cyan } : Style).paint styled i.rule.label
  let hint := match i.hint? with
    | some text =>
      "  " ++ painted styled .blue "=" ++ " " ++
        ({ bold := true, color := some .cyan } : Style).paint styled "hint:" ++ " " ++ text ++ "\n"
    | none => ""
  severity styled i.severity ++ ": " ++ i.message ++ "  " ++ rule ++ "\n" ++
    "  " ++ painted styled .blue "-->" ++ " " ++ i.location ++ "\n" ++ hint ++ "\n"

/-- The line that counts the issues. -/
def issueCount (styled : Bool) (issues : List Issue) : String :=
  let errors := Issue.errorCount issues
  let warnings := issues.length - errors
  painted styled .red failureMark ++ " " ++ toString issues.length ++ " " ++
    plural issues.length "problem" "problems" ++ " (" ++ toString errors ++ " " ++
    painted styled .red (plural errors "error" "errors") ++ ", " ++ toString warnings ++ " " ++
    painted styled .yellow (plural warnings "warning" "warnings") ++ ")\n"

/-- The lines of all issues and their count; nothing if there are none. -/
def issues (styled : Bool) (is : List Issue) : String :=
  if is.isEmpty then "" else String.join (is.map (issue styled)) ++ issueCount styled is

/-- The line of an artifact that was written. -/
def written (styled : Bool) (a : Artifact) : String :=
  "  " ++ painted styled .green "wrote" ++ " " ++ a.name ++ " -> " ++ a.path.text ++ "\n"

/-- The lines on what was done. -/
def summary (styled : Bool) : Summary → String
  | .generated artifacts _ directory true =>
    ({ bold := true, color := some .yellow } : Style).paint styled "Would generate" ++ " " ++
      toString artifacts.length ++ " binding(s) into " ++ directory.text ++ ":\n" ++
      String.join (artifacts.map fun a => "  - " ++ a.name ++ "\n") ++
      "Run without " ++ painted styled .cyan "--dry-run" ++ " to write these files.\n"
  | .generated artifacts files _ false =>
    painted styled .green successMark ++ " " ++
      painted styled .green ("Generated " ++ toString artifacts.length ++ " binding(s) from " ++
        toString files ++ " model " ++ plural files "file" "files") ++ "\n"
  | .configCreated =>
    painted styled .green successMark ++ " " ++
      painted styled .green ("Created " ++ Config.fileName) ++ "\n"

/-- The lines on what was written, where that is told. -/
def writtenLines (styled : Bool) : Summary → String
  | .generated artifacts _ _ false => String.join (artifacts.map (written styled))
  | _ => ""

/-- What a run prints. -/
def run (styled verbose : Bool) (r : Run) : Printed :=
  let remarks := notes styled verbose r.notes
  match r.result with
  | .error _ => { errors := remarks }
  | .ok o =>
    { output := summary styled o.summary
      errors := remarks ++ issues styled o.issues ++
        if verbose then writtenLines styled o.summary else "" }

end Report

/-- How a command ends: its status or fault, what it prints, and the workspace after it. -/
structure Finished where
  result : Except RunFault ExitStatus
  printed : Printed
  workspace : Workspace

namespace Finished

/-- The status of the process. -/
def status (f : Finished) : ExitStatus :=
  match f.result with
  | .ok status => status
  | .error _ => .error

/-- All that the process prints: a fault that kept the command from running comes last. -/
def allPrinted (f : Finished) : Printed :=
  match f.result with
  | .ok _ => f.printed
  | .error fault =>
    { f.printed with errors := f.printed.errors ++ "Error: " ++ fault.message ++ "\n" }

end Finished

/-- What is printed when the reading of the words ended early. -/
def Halt.printed : Halt → Printed
  | help topic => { output := topic.text }
  | version => { output := versionText }
  | refused fault => { errors := fault.message }

/-- The status of the process when the reading of the words ended early. -/
def Halt.status : Halt → ExitStatus
  | help _ | version => .success
  | refused _ => .error

/-- End a run. -/
def Run.finished (r : Run) (styled verbose : Bool) : Finished where
  result := r.result.map (·.status)
  printed := Report.run styled verbose r
  workspace := r.workspace

/-- Run a command in a workspace. Without a command the help is printed. -/
def Workspace.run (w : Workspace) (styled : Bool) : Option Command → Finished
  | none => ⟨.ok .success, (Halt.help .program).printed, w⟩
  | some (.generate o) => (w.generate o).finished styled o.verbose
  | some .init => (w.createConfig ⟨"."⟩).finished styled false

end ViewBinding
