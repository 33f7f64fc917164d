import WasmBuild.Environment
import WasmBuild.Failure
import WasmBuild.Report.Event

/-!
# Error reports

A complaint is what ends a command: a failure or some other message, with the contexts in which it
arose around it. It is printed as one line that leads from the outermost context to the cause, with
advice where there is some, or as one event. Code and advice are those of the failure, which is
looked for inside all contexts.
-/
namespace WasmBuild.Report

/-- What went wrong, or a complaint seen from one more context. -/
inductive Complaint where
  | failure (failure : Failure)
  | other (message : String)
  | within (inner : Complaint) (context : String)
  deriving Repr, DecidableEq

namespace Complaint

/-- The texts from the outermost context down to the deepest cause. -/
def chain : Complaint → List String
  | failure f => f.message :: f.cause?.toList
  | other message => [message]
  | within inner context => context :: inner.chain

def message (complaint : Complaint) : String := String.intercalate ": " complaint.chain

def summary : Complaint → String
  | failure f => f.message
  | other message => message
  | within _ context => context

/-- The failure behind all contexts, if it is one that went wrong. -/
def failure? : Complaint → Option Failure
  | failure f => some f
  | other _ => none
  | within inner _ => inner.failure?

def code (complaint : Complaint) : String := (complaint.failure?.map Failure.code).getD "error"

def help? (complaint : Complaint) : Option String := complaint.failure?.bind Failure.help?

def text (complaint : Complaint) : String :=
  "[ERROR] " ++ complaint.message ++ "\n" ++
    match complaint.help? with
    | some help => "  help: " ++ help ++ "\n"
    | none => ""

def event (complaint : Complaint) : Event :=
  .error complaint.code complaint.message complaint.help?

/-- The line that makes the GitHub service show the complaint beside the job, when it runs
there. -/
def annotation? (complaint : Complaint) (env : Environment) : Option String :=
  if env.isSet Terminal.githubVariable then
    some ("::error title=emproj::" ++ complaint.summary ++ "\n")
  else none

end Complaint
end WasmBuild.Report
