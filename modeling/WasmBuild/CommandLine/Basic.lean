import WasmBuild.Manifest.Basic

/-!
# Command lines

What a command line asks for, and the ways in which reading one can end without a request.
-/
namespace WasmBuild.CommandLine

inductive Command where
  | build
  | needsBuild
  | clean
  | results
  | sources
  deriving Repr, DecidableEq

namespace Command

/-- All commands, in the order in which the help lists them. -/
def all : List Command := [build, needsBuild, clean, results, sources]

def name : Command → String
  | build => "build"
  | needsBuild => "needs-build"
  | clean => "clean"
  | results => "results"
  | sources => "sources"

def summary : Command → String
  | build => "Compile every .c source to .js/.wasm with emcc"
  | needsBuild => "Report whether a build is needed (always yes)"
  | clean => "Remove build outputs (does nothing; stale artifacts are kept)"
  | results => "List the declared .wasm results"
  | sources => "List compilation units and their derived artifacts"

end Command

/-- A word in the place of a command: a command, or the request for help. -/
inductive Word where
  | command (command : Command)
  | help
  deriving Repr, DecidableEq

def helpName : String := "help"

def Command.ofBytes? (arg : Bytes) : Option Command :=
  Command.all.find? (Utf8.encode ·.name == arg)

def Word.ofBytes? (arg : Bytes) : Option Word :=
  if arg = Utf8.encode helpName then some .help
  else (Command.ofBytes? arg).map .command

/-- What a command line asks for. -/
structure Request where
  json : Bool
  verbose : Nat
  manifest : Path
  projects : List String
  command : Command
  deriving Repr, DecidableEq

/-- The mistakes that a command line can hold. -/
inductive UsageError where
  | unknownArgument
  | invalidSubcommand
  | missingSubcommand
  | argumentConflict
  | tooManyValues
  | invalidValue
  | invalidUtf8
  deriving Repr, DecidableEq

def UsageError.message : UsageError → String
  | unknownArgument => "error: unexpected argument found\n"
  | invalidSubcommand => "error: unrecognized subcommand\n"
  | missingSubcommand => "error: a subcommand is required but one was not provided\n"
  | argumentConflict =>
    "error: an argument cannot be used with one or more of the other specified arguments\n"
  | tooManyValues => "error: unexpected value for an argument found\n"
  | invalidValue => "error: one of the values isn't valid for an argument\n"
  | invalidUtf8 => "error: invalid UTF-8 was detected in one or more arguments\n"

/-- The pages of the help. -/
inductive HelpPage where
  | overview
  | command (command : Command)
  | help
  deriving Repr, DecidableEq

/-- Why reading ended without a request: a mistake, a request for help or for the version, or a
line with nothing on it, which is answered by the help. -/
inductive Stop where
  | mistake (error : UsageError)
  | help (page : HelpPage)
  | version
  | nothingAsked
  deriving Repr, DecidableEq

end WasmBuild.CommandLine
