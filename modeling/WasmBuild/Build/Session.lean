import WasmBuild.Build.Run

/-!
# The build task and its sessions

A task remembers how its latest build ended. Asking whether a build is needed, cleaning and listing
results leave it as it is: results are never cached, so a build is always needed, and artifacts of
earlier builds are kept. A session is the life of one task, which is asked for any of these in any
order. In between the files may change, time goes by, and details may be wanted or not.
-/
namespace WasmBuild.Build

/-- How far a task has come. -/
inductive TaskState where
  | notStarted
  | done
  | aborted
  deriving Repr, DecidableEq, Inhabited

def TaskState.text : TaskState → String
  | notStarted => "not started"
  | done => "done"
  | aborted => "aborted"

/-- The state in which a run leaves its task. -/
def Run.state {α : Type} (run : Run α) : TaskState :=
  match run.result with
  | .ok _ => .done
  | .error _ => .aborted

/-- The answer to the question whether a project has to be built. -/
structure RebuildCheck where
  required : Bool
  reason : Option String
  deriving Repr, DecidableEq

/-- A task with the state of its latest build. -/
structure Task where
  state : TaskState
  deriving Repr, DecidableEq

namespace Task

def initial : Task := ⟨.notStarted⟩

/-- The task after a run. -/
def after {α : Type} (_ : Task) (run : Run α) : Task := ⟨run.state⟩

/-- Whether a project has to be built. -/
def needsBuild (_ : Task) (_ : Project) : RebuildCheck :=
  ⟨true, some "build outputs are not tracked"⟩

/-- Removing the outputs of a project removes nothing. -/
def clean (_ : Task) (_ : Project) : Except Failure Unit := .ok ()

end Task

/-! ## Sessions -/

/-- What a task can be asked for. -/
inductive Operation where
  | build (project : Project) (toolchain : Toolchain)
  | needsBuild (project : Project)
  | clean (project : Project)
  | results (project : Project)
  deriving Repr, DecidableEq

/-- Whether an operation asks for something other than a build. -/
def Operation.looks : Operation → Bool
  | build .. => false
  | needsBuild _ | clean _ | results _ => true

inductive Answer where
  | built (result : Except Failure Outcome)
  | checked (check : RebuildCheck)
  | cleaned (result : Except Failure Unit)
  | listed (results : Except Failure (List Path))

/-- The result of a build, if that is what was asked for. -/
def Answer.result? : Answer → Option (Except Failure Outcome)
  | built result => some result
  | checked _ | cleaned _ | listed _ => none

/-- A task, the world it stands in, and whether details are wanted of its builds. -/
structure Session where
  task : Task
  world : World
  detailed : Bool

/-- What an operation has done: its steps, its answer, and the session that it leaves. -/
structure Response where
  steps : List Step
  answer : Answer
  session : Session

/-- What happens in a session: the task is asked for something, or something changes around it. -/
inductive Happening where
  | asked (operation : Operation)
  | changed (tree : FileTree) (clockMs : Nat) (detailed : Bool)

/-- Whether the task is asked for something other than a build. -/
def Happening.looks : Happening → Bool
  | asked operation => operation.looks
  | changed .. => false

namespace Session

/-- A session whose task has not built anything. -/
def start (world : World) (detailed : Bool) : Session := ⟨.initial, world, detailed⟩

def perform (compiler : Compiler) (session : Session) : Operation → Response
  | .build project toolchain =>
    let run := buildProject compiler session.detailed project toolchain session.world
    ⟨run.steps, .built run.result,
      { session with task := session.task.after run, world := run.world }⟩
  | .needsBuild project => ⟨[], .checked (session.task.needsBuild project), session⟩
  | .clean project => ⟨[], .cleaned (session.task.clean project), session⟩
  | .results project => ⟨[], .listed (declaredResults session.world.tree project), session⟩

/-- The response to what happens, if the task is asked for something. -/
def response? (compiler : Compiler) (session : Session) : Happening → Option Response
  | .asked operation => some (session.perform compiler operation)
  | .changed .. => none

/-- The session after something has happened. -/
def next (compiler : Compiler) (session : Session) : Happening → Session
  | .asked operation => (session.perform compiler operation).session
  | .changed tree clockMs detailed =>
    ⟨session.task, { session.world with tree := tree, clockMs := clockMs }, detailed⟩

/-- The session after all that has happened. -/
def after (compiler : Compiler) (session : Session) (history : List Happening) : Session :=
  history.foldl (next compiler) session

/-- The responses to all that has happened, in order. -/
def responses (compiler : Compiler) : Session → List Happening → List Response
  | _, [] => []
  | session, happening :: rest =>
    (session.response? compiler happening).toList ++
      (session.next compiler happening).responses compiler rest

end Session

end WasmBuild.Build
