import WasmBuild.Environment
import WasmBuild.Text.Basic

/-!
# Verbosity

The four levels, how they compare, and where the level in force comes from: the command line, then
an environment variable, then the manifest.
-/
namespace WasmBuild

/-- How much is reported to people. -/
inductive Verbosity where
  | quiet
  | normal
  | verbose
  | debug
  deriving Repr, DecidableEq, Inhabited

namespace Verbosity

def all : List Verbosity := [quiet, normal, verbose, debug]

def name : Verbosity → String
  | quiet => "quiet"
  | normal => "normal"
  | verbose => "verbose"
  | debug => "debug"

def names : List String := all.map name

def rank : Verbosity → Nat
  | quiet => 0
  | normal => 1
  | verbose => 2
  | debug => 3

instance : LE Verbosity := ⟨fun a b => a.rank ≤ b.rank⟩
instance : LT Verbosity := ⟨fun a b => a.rank < b.rank⟩
instance (a b : Verbosity) : Decidable (a ≤ b) := inferInstanceAs (Decidable (a.rank ≤ b.rank))
instance (a b : Verbosity) : Decidable (a < b) := inferInstanceAs (Decidable (a.rank < b.rank))

def ofName? (name : String) : Option Verbosity := all.find? (·.name == name)

/-- The level asked for by repeating the verbose flag; without it the base level stays. -/
def ofCount (count : Nat) (base : Verbosity) : Verbosity :=
  match count with
  | 0 => base
  | 1 => verbose
  | _ => debug

/-- The level that a value names, in any case and with blanks around it. -/
def parse? (value : String) : Option Verbosity := ofName? (Text.lowercase (Text.trim value))

def choice : NamedChoice := ⟨"EMPROJ_VERBOSITY", names⟩

/-- The level that an environment leaves in force, with the warning that it causes. -/
def override (env : Environment) (base : Verbosity) : Verbosity × Option String :=
  match env.get? choice.variableName with
  | some value => choice.resolve parse? base value
  | none => (base, none)

end Verbosity
end WasmBuild
