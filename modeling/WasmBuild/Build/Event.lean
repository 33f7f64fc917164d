import WasmBuild.Path

/-!
# Build events

What a build reports while it runs. A build starts once and ends once; in between it may report
each unit when it is started and when it is compiled. Durations are reported in whole milliseconds,
as an unsigned number of 64 bits that stops at its greatest value.
-/
namespace WasmBuild

/-- The greatest number of milliseconds that is reported. -/
def maxMilliseconds : Nat := Nat.pow 2 64 - 1

/-- Whole milliseconds in a duration of seconds and nanoseconds. -/
def milliseconds (seconds nanoseconds : Nat) : Nat :=
  min (seconds * 1000 + nanoseconds / 1000000) maxMilliseconds

namespace Build

/-- One report of a build. -/
inductive Event where
  | started (project : String) (sourceDir outputDir : Path)
  | unitStarted (index : Nat) (source : Path) (command : String)
  | unitCompiled (index : Nat) (source wasm : Path)
  | completed (project : String) (compiled durationMs : Nat)
  | failed (project : String) (error : String)
  deriving Repr, DecidableEq

namespace Event

def kind : Event → String
  | started .. => "started"
  | unitStarted .. => "unit_started"
  | unitCompiled .. => "unit_compiled"
  | completed .. => "completed"
  | failed .. => "failed"

def isUnit : Event → Bool
  | unitStarted .. | unitCompiled .. => true
  | _ => false

end Event

end Build

end WasmBuild
