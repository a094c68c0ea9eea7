import ViewBinding.Config.Basic
import ViewBinding.FileTree.Workspace

/-!
# Finding the configuration

The configuration of a directory is the nearest one on the way up from it, as far as the first
directory that holds a repository. The way up shortens the path as it is written.
-/

namespace ViewBinding

/-- Why no configuration could be loaded. -/
inductive ConfigFault where
  | unreadable (path : Path) (fault : FileFault)
  | malformed (path : Path) (error : Json.Error)
  | pattern (fault : Config.PatternFault)
  deriving DecidableEq

/-- The text of a fault; paths are quoted. -/
def ConfigFault.message : ConfigFault → String
  | unreadable path fault =>
    "Failed to read config file: " ++ Text.quoted path.text ++ ": " ++ fault.message
  | malformed path error =>
    "Failed to parse config file: " ++ Text.quoted path.text ++ ": " ++ error.message
  | pattern fault => fault.message

/-- A configuration and the file it was read from; the default comes from no file. -/
structure LoadedConfig where
  config : Config
  path : Option Path
  deriving DecidableEq

namespace Workspace

/-- What marks the top directory of a repository. -/
def repositoryMark : String := ".git"

/-- Look for a configuration in directories, one after the other, as far as the first that holds a
repository. -/
def findConfigIn (w : Workspace) : List Path → Option Path
  | [] => none
  | directory :: above =>
    let path := directory.join Config.fileName
    if w.holds path then some path
    else if w.holds (directory.join repositoryMark) then none
    else w.findConfigIn above

/-- The nearest configuration file on the way up from a directory. -/
def findConfig (w : Workspace) (start : Path) : Option Path := w.findConfigIn start.upward

/-- Load the configuration of a directory, or the default if there is none. -/
def loadConfig (w : Workspace) (start : Path) : Except ConfigFault LoadedConfig :=
  match w.findConfig start with
  | none => .ok ⟨{}, none⟩
  | some path =>
    match w.readText path with
    | .error fault => .error (.unreadable path fault)
    | .ok document =>
      match Config.parse document with
      | .error e => .error (.malformed path e)
      | .ok config =>
        match config.fault? with
        | some fault => .error (.pattern fault)
        | none => .ok ⟨config, some path⟩

end Workspace

end ViewBinding
