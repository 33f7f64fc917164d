import WasmBuild.CommandLine.Basic
import WasmBuild.Report.Event

/-!
# Help pages

The texts that answer a command line which asks for help, for the version, or for nothing, and the
exit codes that go with them.
-/
namespace WasmBuild.CommandLine

def about : String :=
  "Builds directories of C sources into WebAssembly with Emscripten, one compilation unit per file"

def helpSummary : String := "Print this message or the help of the given subcommand(s)"

/-- A text followed by blanks up to a width. -/
def padded (width : Nat) (text : String) : String :=
  text ++ String.ofList (List.replicate (width - text.length) ' ')

def usage (first : String) : String := first ++ "\n\nUsage: \n\n"

def commandSection : String :=
  "Commands:\n" ++ String.join ((Command.all.map fun c => (c.name, c.summary)) ++
      [(helpName, helpSummary)] |>.map fun (name, summary) =>
    "  " ++ padded 13 name ++ summary ++ "\n")

/-- The options that every page lists. -/
def sharedOptions : String :=
  "Options:\n" ++
  "      --json                 Output format for CI (NDJSON events on stdout)\n" ++
  "  -v, --verbose...           Verbosity level (-v, -vv)\n" ++
  "  -m, --manifest <MANIFEST>  Path to the project manifest [default: emproj.toml]\n" ++
  "  -p, --project <NAME>       Only act on this project (can be specified multiple times)\n" ++
  "  -h, --help                 Print help\n"

def HelpPage.text : HelpPage → String
  | overview =>
    usage about ++ commandSection ++ "\n" ++ sharedOptions ++
      "  -V, --version              Print version\n" ++
      "\nThe build command requires EMCC_DIR to point at a directory containing emcc.\n"
  | command c => usage c.summary ++ sharedOptions
  | help =>
    usage helpSummary ++ "Arguments:\n  [COMMAND]...  Print help for the subcommand(s)\n"

def versionLine : String := "emproj " ++ Report.version ++ "\n"

namespace Stop

def text : Stop → String
  | mistake error => error.message
  | help page => page.text
  | version => versionLine
  | nothingAsked => HelpPage.overview.text

/-- Whether the text is a complaint, which goes to standard error. -/
def isComplaint : Stop → Bool
  | mistake _ | nothingAsked => true
  | help _ | version => false

def exitCode (stop : Stop) : Nat := if stop.isComplaint then 2 else 0

end Stop
end WasmBuild.CommandLine
