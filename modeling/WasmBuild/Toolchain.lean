import WasmBuild.Environment
import WasmBuild.Failure

/-!
# The toolchain and its calls

The directory that holds the compiler comes from one environment variable. An empty value counts
as unset. A build without a toolchain fails before it touches anything. The exact command line for
one unit is `<emcc_dir>/emcc -Os <source> -o <js>`.
-/
namespace WasmBuild

/-- Where the compiler lives, if that is known. -/
structure Toolchain where
  emccDir? : Option Path
  deriving Repr, DecidableEq

namespace Toolchain

def variableName : String := "EMCC_DIR"

def unset : Toolchain := ⟨none⟩

/-- The toolchain given by the value of the variable. -/
def ofValue? (value : Option String) : Toolchain :=
  ⟨(value.filter (· ≠ "")).map Path.ofString⟩

def ofEnvironment (env : Environment) : Toolchain := ofValue? (env.get? variableName)

def isConfigured (t : Toolchain) : Bool := t.emccDir?.isSome

/-- The directory of the compiler, or the failure of having none. -/
def emccDir (t : Toolchain) : Except Failure Path :=
  match t.emccDir? with
  | some dir => .ok dir
  | none => .error .missingToolchain

end Toolchain

/-- A program and its arguments. -/
structure Invocation where
  program : Path
  args : List Bytes
  deriving Repr, DecidableEq

namespace Invocation

/-- The compiler call that turns `source` into `js`. -/
def compile (emccDir source js : Path) : Invocation where
  program := emccDir.join (.ofString "emcc")
  args := [Utf8.encode "-Os", source.bytes, Utf8.encode "-o", js.bytes]

/-- The program and its arguments on one line, for diagnostics; nothing is quoted. -/
def display (i : Invocation) : String :=
  i.args.foldl (fun line arg => line ++ " " ++ Utf8.lossy arg) i.program.display

end Invocation

end WasmBuild
