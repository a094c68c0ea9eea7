import ViewBinding.Glob.Pattern
import ViewBinding.Json.Decoder
import ViewBinding.Json.Value

/-!
# Configuration

Where a run looks for model files, what it leaves out, where it writes, and how strict it is. In a
document every key may be absent and unknown keys are passed over.
-/

namespace ViewBinding

/-- The settings of a run. -/
structure Config where
  /-- The directory that holds the model files. -/
  modelRoot : String := "./build/viewbind"
  /-- Directories below it to scan, or patterns for them; all of it if there are none. -/
  includes : List String := []
  /-- Paths below it to leave out, or patterns for them. -/
  ignores : List String := []
  /-- The directory that receives the sources. -/
  outputRoot : String := "./build/generated/viewbind"
  /-- Are markers on classes without a content view errors? -/
  strictMarkers : Bool := false
  deriving DecidableEq, Repr

namespace Config

open Json Json.Reader

/-- The name of a configuration file. -/
def fileName : String := ".viewbindrc.json"

/-- Configurations in documents. -/
def recordType : RecordType Config where
  name := "Config"
  closed := false
  blank := {}
  fields := [
    .defaulted "modelRoot" text fun v c => { c with modelRoot := v },
    .defaulted "includes" (list text) fun v c => { c with includes := v },
    .defaulted "ignores" (list text) fun v c => { c with ignores := v },
    .defaulted "outputRoot" text fun v c => { c with outputRoot := v },
    .defaulted "strictMarkers" boolean fun v c => { c with strictMarkers := v }]

/-- Read a configuration. -/
def parse (document : String) : Except Json.Error Config := decode recordType.read document

/-- The configuration as a tree. -/
def value (c : Config) : Value :=
  .object [("modelRoot", .text c.modelRoot), ("includes", .list (c.includes.map .text)),
    ("ignores", .list (c.ignores.map .text)), ("outputRoot", .text c.outputRoot),
    ("strictMarkers", .boolean c.strictMarkers)]

/-- The configuration as a document. -/
def document (c : Config) : String := c.value.document

/-- A pattern of a configuration that is not well formed, and the setting it is in. -/
structure PatternFault where
  setting : String
  pattern : String
  error : Glob.PatternError
  deriving DecidableEq, Repr

/-- The text of a pattern's refusal. -/
def PatternFault.message (f : PatternFault) : String :=
  "Invalid glob pattern in '" ++ f.setting ++ "': \"" ++ f.pattern ++ "\": " ++ f.error.message

/-- The fault of a pattern in a setting. -/
def patternFault? (setting pattern : String) : Option PatternFault :=
  match Glob.Pattern.parse pattern with
  | .ok _ => none
  | .error e => some ⟨setting, pattern, e⟩

/-- The first pattern that is not well formed. Every ignore has to be a pattern, and every include
that has wildcards. -/
def fault? (c : Config) : Option PatternFault :=
  c.ignores.findSome? (patternFault? "ignores") <|>
  (c.includes.filter Glob.hasWildcard).findSome? (patternFault? "includes")

end Config

end ViewBinding
