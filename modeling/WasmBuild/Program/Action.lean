import WasmBuild.Build.Compiler
import WasmBuild.Report.Complaint

/-!
# What a program does

The actions of a run in the order in which they happen: printing to either stream, reporting an
event, calling the compiler. What appears on the streams is read off the actions.
-/
namespace WasmBuild.Program

open Report

/-- One action. -/
inductive Action where
  | out (text : String)
  | err (text : String)
  | emit (event : Event)
  | call (invocation : Invocation)
  deriving Repr, DecidableEq

namespace Action

/-- What an action adds to standard output. -/
def stdout : Action → String
  | out text => text
  | emit event => (event.line.toOption).getD ""
  | err _ | call _ => ""

/-- What an action adds to standard error. -/
def stderr : Action → String
  | err text => text
  | out _ | emit _ | call _ => ""

def invocation? : Action → Option Invocation
  | call invocation => some invocation
  | _ => none

def event? : Action → Option Event
  | emit event => some event
  | _ => none

end Action

def outLine (text : String) : Action := .out (text ++ "\n")

def errLine (text : String) : Action := .err (text ++ "\n")

/-- Reports an event that has a line, and nothing otherwise. -/
def emitIfWritable (event : Event) : List Action :=
  match event.line with
  | .ok _ => [.emit event]
  | .error _ => []

/-- Actions that lead to success or to a complaint. -/
structure Output where
  actions : List Action
  result : Except Complaint Unit
  deriving Repr

namespace Output

def done : Output := ⟨[], .ok ()⟩

def one (action : Action) : Output := ⟨[action], .ok ()⟩

/-- One output after another; a complaint ends both. -/
def append (first second : Output) : Output :=
  match first.result with
  | .ok () => ⟨first.actions ++ second.actions, second.result⟩
  | .error complaint => ⟨first.actions, .error complaint⟩

/-- The outputs of several things, one after the other. -/
def forEach {α : Type} (output : α → Output) : List α → Output
  | [] => done
  | a :: rest => (output a).append (forEach output rest)

/-- The output of a failure. -/
def failed (failure : Failure) : Output := ⟨[], .error (.failure failure)⟩

/-- Reports an event; one that has no line is a complaint. -/
def emit (event : Event) : Output :=
  match event.line with
  | .ok _ => one (.emit event)
  | .error error => ⟨[], .error (.other error.message)⟩

end Output
end WasmBuild.Program
