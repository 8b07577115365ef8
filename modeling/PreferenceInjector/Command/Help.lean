import PreferenceInjector.Command.Arguments

/-!
# Help

The pages that explain the command and its subcommands, and the line that names its version.
-/

namespace PreferenceInjector.Command

/-- The lines of a page. -/
def Page.lines : Page → List String
  | root => [
    "Generates preference injectors from component and class declarations",
    "",
    "Usage: prefgen [OPTIONS] <COMMAND>",
    "",
    "Commands:",
    "  generate  Resolve all declarations and write the generated injectors",
    "  check     Resolve all declarations and report the injectors that would be generated",
    "  help      Print this message or the help of the given subcommand(s)",
    "",
    "Options:",
    "  -v, --verbose  Run in verbose mode",
    "  -h, --help     Print help",
    "  -V, --version  Print version"]
  | generate => [
    "Resolve all declarations and write the generated injectors",
    "",
    "Usage: prefgen generate [OPTIONS]",
    "",
    "Options:",
    "  -i, --input <INPUT>          Directory containing declaration files (overrides `input.dir`)",
    "  -v, --verbose                Run in verbose mode",
    "      --extension <EXTENSION>  Declaration file extension (overrides `input.extension`)",
    "  -o, --output <OUTPUT>        Output directory for generated sources (overrides `output.dir`)",
    "  -h, --help                   Print help"]
  | check => [
    "Resolve all declarations and report the injectors that would be generated",
    "",
    "Usage: prefgen check [OPTIONS]",
    "",
    "Options:",
    "  -i, --input <INPUT>          Directory containing declaration files (overrides `input.dir`)",
    "  -v, --verbose                Run in verbose mode",
    "      --extension <EXTENSION>  Declaration file extension (overrides `input.extension`)",
    "      --json                   Print the generation plan as JSON",
    "  -h, --help                   Print help"]
  | help => [
    "Print this message or the help of the given subcommand(s)",
    "",
    "Usage: prefgen help [COMMAND]...",
    "",
    "Arguments:",
    "  [COMMAND]...  Print help for the subcommand(s)"]

/-- A text of lines, each ended by a line feed. -/
def linesText (lines : List String) : String := String.join (lines.map (· ++ "\n"))

/-- The line that names the version. -/
def versionText : String := linesText ["prefgen 0.1.0"]

/-- The text that an interruption puts on standard output. -/
def Interruption.output : Interruption → String
  | help page => linesText page.lines
  | version => versionText
  | misuse _ => ""

/-- The exit code of an interruption. -/
def Interruption.exitCode : Interruption → Nat
  | help _ | version => 0
  | misuse _ => 2

/-- The name of an interruption. -/
def Interruption.name : Interruption → String
  | help _ => "DisplayHelp"
  | version => "DisplayVersion"
  | misuse what => what.name

end PreferenceInjector.Command
