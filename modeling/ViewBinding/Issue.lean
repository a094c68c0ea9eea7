import ViewBinding.Round.Element

/-!
# Issues

What a run has to report. An issue never stops a run; whether any of them is an error decides how
the run ends. Issues are grouped by their rule, and within a rule keep the order they were found in.
-/

namespace ViewBinding

/-- How much an issue weighs. -/
inductive Severity where
  | error
  | warning
  deriving DecidableEq, Repr

/-- The word for a severity. -/
def Severity.label : Severity → String
  | error => "error"
  | warning => "warning"

/-- The kind of an issue. -/
inductive Rule where
  | parseError
  | droppedMarker
  | writeFailure
  deriving DecidableEq, Repr

namespace Rule

/-- The name of a rule in reports. -/
def label : Rule → String
  | parseError => "parse-error"
  | droppedMarker => "dropped-marker"
  | writeFailure => "write-failure"

/-- The place of a rule in reports. -/
def rank : Rule → Nat
  | parseError => 0
  | droppedMarker => 1
  | writeFailure => 2

end Rule

/-- An issue with all that is needed to show it. -/
inductive Issue where
  /-- A model file that was left out because it could not be read or parsed. -/
  | parseError (path : String) (reason : String)
  /-- A marker on a member of a class without a content view. -/
  | droppedMarker (marker : Marker) (element : String) (owner : ClassId) (severity : Severity)
  /-- A binding that was not produced. -/
  | writeFailure (artifact : String) (reason : String)
  deriving DecidableEq, Repr

namespace Issue

/-- The rule of an issue. -/
def rule : Issue → Rule
  | parseError .. => .parseError
  | droppedMarker .. => .droppedMarker
  | writeFailure .. => .writeFailure

/-- The severity of an issue; only a dropped marker can be less than an error. -/
def severity : Issue → Severity
  | parseError .. => .error
  | droppedMarker _ _ _ severity => severity
  | writeFailure .. => .error

/-- Where the issue is: a file, a member of a class, or an artifact. -/
def location : Issue → String
  | parseError path _ => path
  | droppedMarker _ element owner _ => owner ++ "#" ++ element
  | writeFailure artifact _ => artifact

/-- What the issue is. -/
def message : Issue → String
  | parseError _ reason => reason
  | droppedMarker marker _ owner _ =>
    marker.label ++ " marker ignored: " ++ owner ++ " has no content-view marker"
  | writeFailure _ reason => reason

/-- How the issue can be mended, where that is known. -/
def hint? : Issue → Option String
  | droppedMarker .. => some "add a contentView to the enclosing class or remove the marker"
  | _ => none

/-- The issues of error severity, counted. -/
def errorCount (issues : List Issue) : Nat := issues.countP (·.severity == .error)

/-- Issues grouped by rule, in the order they were found within each. -/
def grouped (issues : List Issue) : List Issue :=
  issues.mergeSort fun a b => a.rule.rank ≤ b.rule.rank

end Issue

/-- How a run ends: cleanly, with errors reported, or without having run. -/
inductive ExitStatus where
  | success
  | failure
  | error
  deriving DecidableEq, Repr

namespace ExitStatus

/-- The process status. -/
def code : ExitStatus → Nat
  | success => 0
  | failure => 1
  | error => 2

/-- A run that reports an error fails. -/
def ofErrorCount (n : Nat) : ExitStatus := if 0 < n then failure else success

end ExitStatus

end ViewBinding
