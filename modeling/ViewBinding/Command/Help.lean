import ViewBinding.Command.Arguments

/-!
# Help

The texts that describe the program, its commands and their options.
-/

namespace ViewBinding

/-- The name and version of the program. -/
def versionText : String := "viewbind 0.1.0\n"

/-- Lines as one text, each ended. -/
def linesText (lines : List String) : String := String.join (lines.map (· ++ "\n"))

/-- The text of a topic. -/
def HelpTopic.text : HelpTopic → String
  | program => linesText [
      "A compile-time generator for Android view-binding companion classes",
      "",
      "Usage: viewbind [COMMAND]",
      "",
      "Commands:",
      "  generate  Generate view binding sources from the exported element models",
      "  init      Initialize a new .viewbindrc.json configuration file",
      "  help      Print this message or the help of the given subcommand(s)",
      "",
      "Options:",
      "  -h, --help     Print help",
      "  -V, --version  Print version"]
  | generate => linesText [
      "Generate view binding sources from the exported element models",
      "",
      "Usage: viewbind generate [OPTIONS]",
      "",
      "Options:",
      "      --root <ROOT>                Project root, where the config file search starts",
      "      --model-root <MODEL_ROOT>    Model directory (overrides config file)",
      "      --output-root <OUTPUT_ROOT>  Output directory for generated sources " ++
        "(overrides config file)",
      "  -v, --verbose                    Enable verbose output",
      "      --strict                     Report markers on classes without a content view " ++
        "as errors",
      "      --dry-run                    Render bindings without writing them",
      "  -h, --help                       Print help"]
  | init => linesText [
      "Initialize a new .viewbindrc.json configuration file",
      "",
      "Usage: viewbind init",
      "",
      "Options:",
      "  -h, --help  Print help"]
  | help => linesText [
      "Print this message or the help of the given subcommand(s)",
      "",
      "Usage: viewbind help [COMMAND]...",
      "",
      "Arguments:",
      "  [COMMAND]...  Print help for the subcommand(s)"]

/-- The words for a refused word. -/
def UsageFault.describe : UsageFault → String
  | unknownCommand => "unrecognized subcommand"
  | unknownArgument => "unexpected argument"
  | invalidValue => "a value is required for an option"
  | repeated => "an option cannot be used multiple times"
  | unwantedValue => "unexpected value for an option that takes none"

/-- The text of a refusal. -/
def UsageFault.message (f : UsageFault) : String :=
  "error: " ++ f.describe ++ "\n\nFor more information, try '--help'.\n"

end ViewBinding
