import WasmBuild.FileTree.Locate
import WasmBuild.Manifest.Excerpt
import WasmBuild.Suggestion
import WasmBuild.Text.Basic
import WasmBuild.Toml.Document

/-!
# Loading a manifest

A manifest is loaded from a file of the tree. Keys that mean nothing do not stop it, but each
causes a warning with the first line on which the key's name occurs and, where there is one near
enough, the name of a key that does mean something.
-/
namespace WasmBuild.Manifest

/-- A warning about a key that means nothing. -/
structure Warning where
  key : String
  file : Path
  line : Option Nat
  suggestion : Option String
  deriving Repr, DecidableEq

/-- The keys that mean something somewhere. -/
def knownKeys : List String :=
  ["output_base", "output", "verbosity", "project", "name", "sub_dir", "dir"]

/-- The part of a key's name after its last dot. -/
def afterLastDot (name : String) : String :=
  String.ofList (name.toList.reverse.takeWhile (· ≠ '.')).reverse

/-- Whether a text occurs in a line. -/
def occursIn (word : List Char) : List Char → Bool
  | [] => word.isEmpty
  | c :: rest => word.isPrefixOf (c :: rest) || occursIn word rest

/-- The number of the first line on which a word occurs, counted from one. -/
def lineOf? (text : List Char) (word : String) : Option Nat :=
  ((Text.lines text).findIdx? (occursIn word.toList)).map (· + 1)

/-- The warning about an unknown key. -/
def warningOf (file : Path) (text : List Char) (key : UnknownKey) : Warning :=
  let name := afterLastDot key.name
  { key := name
    file := file
    line := lineOf? text name
    suggestion := Suggestion.closest? name knownKeys Suggestion.defaultLimit }

/-- A manifest that was loaded, with its warnings. -/
structure Loaded where
  manifest : Manifest
  warnings : List Warning
  deriving Repr, DecidableEq

/-- What is said of a text that is no document at all. -/
def syntaxMessage : String := "not a well-formed TOML document"

/-- The manifest in a text, which came from a file. -/
def ofText (file : Path) (text : String) : Except Failure Loaded :=
  match Toml.parse? text.toList with
  | none => .error (.invalidManifest file syntaxMessage)
  | some entries =>
    match ofEntries entries with
    | .error fault => .error (.invalidManifest file (fault.report text.toList))
    | .ok noted => .ok ⟨noted.value, noted.unknown.map (warningOf file text.toList)⟩

def load (tree : FileTree) (path : Path) : Except Failure Loaded :=
  match tree.readText path with
  | .ok text => ofText path text
  | .error error => .error (.io error)

/-- The manifest with the level that an environment asks for, and the warning that this causes. -/
def override (manifest : Manifest) (env : Environment) : Manifest × Option String :=
  let (level, warning) := Verbosity.override env manifest.verbosity
  ({ manifest with verbosity := level }, warning)

end WasmBuild.Manifest
