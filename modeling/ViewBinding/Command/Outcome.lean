import ViewBinding.Config.Search
import ViewBinding.Issue
import ViewBinding.Model.Document
import ViewBinding.Model.Scan
import ViewBinding.Round.Program

/-!
# Outcomes

How a command ends: with a summary and issues, or with a fault that kept it from running.
-/

namespace ViewBinding

/-- Why a model file is left out of a round. -/
inductive LoadFault where
  | unreadable (path : String) (fault : FileFault)
  | malformed (path : String) (fault : ModelFault)
  deriving DecidableEq, Repr

/-- The text of the reason. -/
def LoadFault.message : LoadFault → String
  | unreadable path fault => "Failed to read model file: " ++ path ++ ": " ++ fault.message
  | malformed path fault => "Failed to parse model file: " ++ path ++ ": " ++ fault.message

/-- Why a command could not run. -/
inductive RunFault where
  | config (fault : ConfigFault)
  | noModelDirectory (path : Path)
  /-- A class declared twice, and the files that had been left out before. -/
  | duplicate (fault : DuplicateClass) (leftOut : List String)
  | configExists
  | configNotWritten (path : Path) (fault : FileFault)
  deriving DecidableEq

/-- The text of a fault. -/
def RunFault.message : RunFault → String
  | config fault => fault.message
  | noModelDirectory path => "Model directory does not exist: " ++ path.text
  | duplicate fault [] => fault.message
  | duplicate fault leftOut =>
    toString leftOut.length ++ " model file(s) also failed to parse: " ++
      ", ".intercalate leftOut ++ ": " ++ fault.message
  | configExists => Config.fileName ++ " already exists"
  | configNotWritten path fault => "Failed to write " ++ path.text ++ ": " ++ fault.message

/-- A source that was written, or would be. -/
structure Artifact where
  name : String
  path : Path
  deriving DecidableEq, Repr

/-- What a command has done. -/
inductive Summary where
  | generated (artifacts : List Artifact) (modelFiles : Nat) (outputDirectory : Path)
    (dryRun : Bool)
  | configCreated
  deriving DecidableEq, Repr

/-- A summary and all issues found, grouped by rule. -/
structure Outcome where
  summary : Summary
  issues : List Issue
  deriving DecidableEq, Repr

namespace Outcome

/-- End a command with the issues found. -/
def finish (summary : Summary) (found : List Issue) : Outcome := ⟨summary, Issue.grouped found⟩

/-- The number of errors. -/
def errorCount (o : Outcome) : Nat := Issue.errorCount o.issues

/-- The number of warnings. -/
def warningCount (o : Outcome) : Nat := o.issues.length - o.errorCount

/-- How the process ends. -/
def status (o : Outcome) : ExitStatus := .ofErrorCount o.errorCount

end Outcome

end ViewBinding
