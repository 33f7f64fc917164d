import WasmBuild.Build.Event
import WasmBuild.Verbosity

/-!
# Progress for people

The lines that a build event prints. The quiet level prints nothing, and every higher level prints
what the levels below it print and possibly more.
-/
namespace WasmBuild.Report

/-- The marks in front of progress lines. -/
structure Icons where
  build : String
  ok : String
  fail : String
  deriving Repr, DecidableEq

/-- The marks for a terminal that can or cannot show Unicode. -/
def Icons.ofUnicode (unicode : Bool) : Icons :=
  if unicode then ⟨"🔨", "✓", "✗"⟩ else ⟨"[BUILD]", "[OK]", "[FAIL]"⟩

/-- How progress is printed. -/
structure Console where
  verbosity : Verbosity
  icons : Icons
  deriving Repr, DecidableEq

/-- A number of things, with the plural left to an added `s`. -/
def counted (count : Nat) (noun : String) : String :=
  toString count ++ " " ++ noun ++ (if count = 1 then "" else "s")

namespace Console

/-- A line that is printed from a level on. -/
def from? (console : Console) (least : Verbosity) (line : String) : List String :=
  if least ≤ console.verbosity then [line] else []

def lines (console : Console) : Build.Event → List String
  | .started project sourceDir outputDir =>
    console.from? .normal (console.icons.build ++ " Building " ++ project ++ " with Emscripten") ++
      console.from? .verbose ("  Source: " ++ sourceDir.display) ++
      console.from? .verbose ("  Output: " ++ outputDir.display)
  | .unitStarted _ _ command => console.from? .debug ("  $ " ++ command)
  | .unitCompiled _ source wasm =>
    console.from? .verbose
      ("  " ++ console.icons.ok ++ " " ++ source.display ++ " -> " ++ wasm.display)
  | .completed project compiled durationMs =>
    console.from? .normal (console.icons.ok ++ " " ++ project ++ ": compiled " ++
      counted compiled "file" ++ " in " ++ toString durationMs ++ " ms")
  | .failed project _ => console.from? .normal (console.icons.fail ++ " " ++ project ++
      ": build aborted")

def text (console : Console) (event : Build.Event) : String :=
  String.join ((console.lines event).map (· ++ "\n"))

/-- Whether events of single units are wanted at all. -/
def wantsDetail (console : Console) : Bool := decide (Verbosity.verbose ≤ console.verbosity)

end Console
end WasmBuild.Report
