import WasmBuild.CommandLine.Basic

/-!
# Reading a command line

Arguments are read from left to right. Options may stand before the command and after it, and the
two places are read in the same way; what is given after the command replaces what was given
before. An option whose value is a separate argument stays open until the next option or the end,
and only then is its value looked at. The first mistake, or the first request for help or the
version, ends the reading.
-/
namespace WasmBuild.CommandLine

inductive Flag where
  | json
  | verbose
  | help
  | version
  deriving Repr, DecidableEq

inductive Setting where
  | manifest
  | project
  deriving Repr, DecidableEq

/-- An option of either kind. -/
inductive Switch where
  | flag (flag : Flag)
  | setting (setting : Setting)
  deriving Repr, DecidableEq

/-- The place of an option: before the command or after a certain one. The version can be asked for
before the command only. -/
inductive Place where
  | before
  | after (command : Command)
  deriving Repr, DecidableEq

def Place.page : Place → HelpPage
  | before => .overview
  | after command => .command command

/-- The option of a long name. -/
def Switch.ofLong? (place : Place) (name : Bytes) : Option Switch :=
  if name = Utf8.encode "json" then some (.flag .json)
  else if name = Utf8.encode "verbose" then some (.flag .verbose)
  else if name = Utf8.encode "manifest" then some (.setting .manifest)
  else if name = Utf8.encode "project" then some (.setting .project)
  else if name = Utf8.encode "help" then some (.flag .help)
  else if name = Utf8.encode "version" ∧ place = .before then some (.flag .version)
  else none

/-- The option of a letter. -/
def Switch.ofShort? (place : Place) (letter : UInt8) : Option Switch :=
  if letter = 0x76 then some (.flag .verbose)
  else if letter = 0x6D then some (.setting .manifest)
  else if letter = 0x70 then some (.setting .project)
  else if letter = 0x68 then some (.flag .help)
  else if letter = 0x56 ∧ place = .before then some (.flag .version)
  else none

/-- What the options of one place have said. -/
structure Given where
  json : Bool
  verbose : Option Nat
  manifest : Option Path
  projects : List String
  deriving Repr, DecidableEq

namespace Given

def nothing : Given := ⟨false, none, none, []⟩

/-- The greatest count of verbose flags. -/
def maxVerbose : Nat := 255

/-- What two places say together: the later place wins, option by option. -/
def merge (earlier later : Given) : Given where
  json := earlier.json || later.json
  verbose := later.verbose.or earlier.verbose
  manifest := later.manifest.or earlier.manifest
  projects := if later.projects.isEmpty then earlier.projects else later.projects

/-- The request made by options and a command. -/
def toRequest (given : Given) (command : Command) : Request where
  json := given.json
  verbose := given.verbose.getD 0
  manifest := given.manifest.getD Manifest.defaultPath
  projects := given.projects
  command := command

/-- Taking in a flag. Asking for machine-readable output twice in one place is a mistake. -/
def addFlag (given : Given) (place : Place) : Flag → Except Stop Given
  | .json =>
    if given.json then .error (.mistake .argumentConflict) else .ok { given with json := true }
  | .verbose => .ok { given with verbose := some (min (given.verbose.getD 0 + 1) maxVerbose) }
  | .help => .error (.help place.page)
  | .version => .error .version

/-- Taking in a value. Naming the manifest twice in one place is a mistake, and so are an empty
manifest and a project name that is not valid UTF-8. -/
def addSetting (given : Given) (setting : Setting) (value : Bytes) : Except Stop Given :=
  match setting with
  | .manifest =>
    if given.manifest.isSome then .error (.mistake .argumentConflict)
    else if value.isEmpty then .error (.mistake .invalidValue)
    else .ok { given with manifest := some ⟨value⟩ }
  | .project =>
    match Utf8.decode? value with
    | some name => .ok { given with projects := given.projects ++ [name] }
    | none => .error (.mistake .invalidUtf8)

end Given

/-- An option whose value stands or will stand in a separate argument. -/
structure OpenSetting where
  setting : Setting
  value? : Option Bytes
  deriving Repr, DecidableEq

/-- What was read in one place: what is settled, and the option that is still open. -/
structure Level where
  given : Given
  opened : Option OpenSetting
  deriving Repr, DecidableEq

namespace Level

def start : Level := ⟨.nothing, none⟩

/-- Settles the open option. One that never got its value is a mistake. -/
def settle (level : Level) : Except Stop Given :=
  match level.opened with
  | none => .ok level.given
  | some ⟨_, none⟩ => .error (.mistake .invalidValue)
  | some ⟨setting, some value⟩ => level.given.addSetting setting value

/-- Whether the next argument may be the value of the open option. -/
def isWaiting (level : Level) : Bool :=
  match level.opened with
  | some ⟨_, none⟩ => true
  | _ => false

/-- Gives the open option its value. -/
def supply (level : Level) (value : Bytes) : Level :=
  { level with opened := level.opened.map fun o => { o with value? := some value } }

def readFlag (level : Level) (place : Place) (flag : Flag) : Except Stop Level :=
  match level.settle with
  | .error stop => .error stop
  | .ok given =>
    match given.addFlag place flag with
    | .error stop => .error stop
    | .ok given => .ok ⟨given, none⟩

/-- Reads an option with its attached value, or opens it. -/
def readSetting (level : Level) (setting : Setting) (value? : Option Bytes) :
    Except Stop Level :=
  match level.settle with
  | .error stop => .error stop
  | .ok given =>
    match value? with
    | none => .ok ⟨given, some ⟨setting, none⟩⟩
    | some value =>
      match given.addSetting setting value with
      | .error stop => .error stop
      | .ok given => .ok ⟨given, none⟩

end Level

def equalsSign : UInt8 := 0x3D

def hyphen : UInt8 := 0x2D

/-- The argument after which no option is read. -/
def endOfOptions : Bytes := [hyphen, hyphen]

/-- Reads a long option, without its hyphens. -/
def Level.readLong (level : Level) (place : Place) (text : Bytes) : Except Stop Level :=
  let name := text.takeWhile (· ≠ equalsSign)
  let attached? := match text.dropWhile (· ≠ equalsSign) with
    | [] => none
    | _ :: value => some value
  match Switch.ofLong? place name, attached? with
  | none, _ => .error (.mistake .unknownArgument)
  | some (.flag _), some _ => .error (.mistake .tooManyValues)
  | some (.flag flag), none => level.readFlag place flag
  | some (.setting setting), value? => level.readSetting setting value?

/-- Reads letters that stand together behind one hyphen. The letter of an option with a value takes
the rest as its value, without an equals sign in front. -/
def Level.readLetters (place : Place) : Level → Bytes → Except Stop Level
  | level, [] => .ok level
  | level, letter :: rest =>
    match Switch.ofShort? place letter with
    | none => .error (.mistake .unknownArgument)
    | some (.flag flag) =>
      match level.readFlag place flag with
      | .error stop => .error stop
      | .ok level => Level.readLetters place level rest
    | some (.setting setting) =>
      match rest with
      | [] => level.readSetting setting none
      | first :: value =>
        level.readSetting setting (some (if first = equalsSign then value else rest))

/-- The forms of an argument. A lone hyphen is a plain word. -/
inductive Argument where
  | endOfOptions
  | long (text : Bytes)
  | letters (text : Bytes)
  | plain (text : Bytes)
  deriving Repr, DecidableEq

/-- The form of an argument. -/
def Argument.ofBytes (arg : Bytes) : Argument :=
  match arg with
  | [] => .plain []
  | first :: rest =>
    if first ≠ hyphen then .plain arg
    else match rest with
      | [] => .plain arg
      | second :: text =>
        if second ≠ hyphen then .letters rest
        else if text.isEmpty then .endOfOptions
        else .long text

/-- Reads the arguments after a command. -/
def readAfter (command : Command) : Level → List Bytes → Except Stop Given
  | level, [] => level.settle
  | level, arg :: rest =>
    match Argument.ofBytes arg with
    | .endOfOptions =>
      if rest.isEmpty then level.settle else .error (.mistake .unknownArgument)
    | .long text =>
      match level.readLong (.after command) text with
      | .error stop => .error stop
      | .ok level => readAfter command level rest
    | .letters text =>
      match level.readLetters (.after command) text with
      | .error stop => .error stop
      | .ok level => readAfter command level rest
    | .plain text =>
      if level.isWaiting then readAfter command (level.supply text) rest
      else .error (.mistake .unknownArgument)

/-- The page that the arguments of the help command ask for. -/
def helpFor : List Bytes → Except Stop HelpPage
  | [] => .ok .overview
  | [arg] =>
    match Word.ofBytes? arg with
    | some (.command command) => .ok (.command command)
    | some .help => .ok .help
    | none => .error (.mistake .invalidSubcommand)
  | _ :: _ :: _ => .error (.mistake .invalidSubcommand)

/-- The end of a line on which there is no command. -/
def withoutCommand (level : Level) : Stop :=
  match level.settle with
  | .error stop => stop
  | .ok given => if given = .nothing then .nothingAsked else .mistake .missingSubcommand

/-- Reads a command line. The arguments after a command are read before an option that is still
open in front of it is settled. -/
def readBefore : Level → List Bytes → Except Stop Request
  | level, [] => .error (withoutCommand level)
  | level, arg :: rest =>
    match if level.isWaiting then none else Word.ofBytes? arg with
    | some .help =>
      match helpFor rest with
      | .ok page => .error (.help page)
      | .error stop => .error stop
    | some (.command command) =>
      match readAfter command .start rest with
      | .error stop => .error stop
      | .ok later =>
        match level.settle with
        | .error stop => .error stop
        | .ok earlier => .ok ((earlier.merge later).toRequest command)
    | none =>
      match Argument.ofBytes arg with
      | .endOfOptions =>
        match rest with
        | [] => .error (withoutCommand level)
        | next :: _ =>
          if (Word.ofBytes? next).isSome then .error (.mistake .unknownArgument)
          else .error (.mistake .invalidSubcommand)
      | .long text =>
        match level.readLong .before text with
        | .error stop => .error stop
        | .ok level => readBefore level rest
      | .letters text =>
        match level.readLetters .before text with
        | .error stop => .error stop
        | .ok level => readBefore level rest
      | .plain text =>
        if level.isWaiting then readBefore (level.supply text) rest
        else .error (.mistake .invalidSubcommand)

/-- The request that a command line makes. -/
def parse (args : List Bytes) : Except Stop Request := readBefore .start args

end WasmBuild.CommandLine
