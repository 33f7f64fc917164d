import WasmBuild.Suggestion
import WasmBuild.Text.Basic

/-!
# Environment variables

A variable whose value is not valid UTF-8 counts as unset. Some variables should hold one of a few
names: any other value is met with a warning that lists the names, offers a correction where one is
near, and leaves the fallback in force. Others tell whether progress lines may use Unicode icons,
and whether a continuous-integration service is watching.
-/
namespace WasmBuild

/-- The variables of a process. -/
structure Environment where
  bindings : List (String × Bytes)
  deriving Repr, DecidableEq

namespace Environment

/-- The value of a variable that is set to a text. -/
def get? (env : Environment) (name : String) : Option String :=
  (env.bindings.lookup name).bind Utf8.decode?

/-- Whether a variable is set to a text. -/
def isSet (env : Environment) (name : String) : Bool := (env.get? name).isSome

end Environment

/-! ## Choices made by variables -/

/-- A choice among named values, made by an environment variable. A value that names none is
reported and then ignored. -/
structure NamedChoice where
  variableName : String
  valid : List String

namespace NamedChoice

/-- The correction offered for a value: the name nearest to its lower-case form, unless it is that
form itself. -/
def suggestion? (choice : NamedChoice) (value : String) : Option String :=
  let word := Text.lowercase value
  (Suggestion.closest? word choice.valid Suggestion.defaultLimit).filter (· ≠ word)

def warning (choice : NamedChoice) (value : String) : String :=
  let hint := match choice.suggestion? value with
    | some word => ". Did you mean '" ++ word ++ "'?"
    | none => ""
  "Warning: Invalid " ++ choice.variableName ++ " value '" ++ value ++ "'" ++ hint ++
    "\nValid values: " ++ String.intercalate ", " choice.valid ++ "\n"

/-- The value chosen, or the fallback together with a warning. -/
def resolve {α : Type} (choice : NamedChoice) (parse : String → Option α) (fallback : α)
    (value : String) : α × Option String :=
  match parse value with
  | some a => (a, none)
  | none => (fallback, some (choice.warning value))

end NamedChoice

/-! ## The terminal -/

/-- What is known about the stream that progress is written to. -/
structure Terminal where
  isTerminal : Bool
  supportsUnicode : Bool
  isCi : Bool
  deriving Repr, DecidableEq

namespace Terminal

def githubVariable : String := "GITHUB_ACTIONS"

def ciVariables : List String := ["CI", githubVariable, "BUILDKITE", "JENKINS_HOME"]

/-- Variables that name the locale, the decisive one first. -/
def localeVariables : List String := ["LC_ALL", "LC_CTYPE", "LANG"]

/-- Whether the locale is explicitly one that knows ASCII only. The first non-empty variable
decides. -/
def hasAsciiLocale (env : Environment) : Bool :=
  match localeVariables.findSome? fun name => (env.get? name).filter (· ≠ "") with
  | some value => Text.lowercase value == "c" || Text.lowercase value == "posix"
  | none => false

def isDumb (env : Environment) : Bool :=
  ((env.get? "TERM").getD "").toList.map Char.toLower == "dumb".toList

/-- The capabilities of a stream that is or is not a terminal. -/
def detect (env : Environment) (isTerminal : Bool) : Terminal where
  isTerminal := isTerminal
  supportsUnicode := isTerminal && !isDumb env && !hasAsciiLocale env
  isCi := ciVariables.any env.isSet

end Terminal

end WasmBuild
