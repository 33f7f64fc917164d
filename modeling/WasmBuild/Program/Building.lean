import WasmBuild.Program.Listing

/-!
# The build command

Builds the projects one after the other. Progress goes to standard error for people and to standard
output as events for programs; in the latter case whatever the compiler prints is kept off standard
output. The first project that fails ends the command.
-/
namespace WasmBuild.Program

open Report

/-- Where a program runs: its environment, its terminal, and its compiler. -/
structure Host where
  environment : Environment
  stderrIsTerminal : Bool
  compiler : Build.Compiler

/-- The actions that one thing printed by the compiler turns into. -/
def printedAction (json : Bool) (printed : Build.Printed) : Action :=
  match printed.stream with
  | .out => if json then .err printed.text else .out printed.text
  | .err => .err printed.text

/-- How the events of a build are reported. -/
inductive Reporter where
  | events
  | console (console : Console)
  deriving Repr, DecidableEq

namespace Reporter

/-- Whether progress is reported as events. -/
def isJson : Reporter → Bool
  | events => true
  | console _ => false

/-- Whether events of single units are wanted. -/
def wantsDetail : Reporter → Bool
  | events => true
  | console c => c.wantsDetail

def actions : Reporter → Build.Event → List Action
  | events, event => emitIfWritable (.progress event)
  | console c, event => (c.lines event).map errLine

end Reporter

/-- The actions of a step of a build. -/
def stepActions (reporter : Reporter) : Build.Step → List Action
  | .event event => reporter.actions event
  | .call invocation printed =>
    .call invocation :: printed.map (printedAction reporter.isJson)

/-- The actions of a command, its result and the world it leaves. -/
structure Turn where
  actions : List Action
  result : Except Complaint Unit
  world : Build.World

/-- Builds projects one after the other, up to the first failure. -/
def buildAll (compiler : Build.Compiler) (reporter : Reporter) (toolchain : Toolchain) :
    List Project → Build.World → Turn
  | [], world => ⟨[], .ok (), world⟩
  | project :: rest, world =>
    let run := Build.buildProject compiler reporter.wantsDetail project toolchain world
    let actions := run.steps.flatMap (stepActions reporter)
    match run.result with
    | .error failure =>
      ⟨actions, .error (.within (.failure failure) project.description), run.world⟩
    | .ok _ =>
      let next := buildAll compiler reporter toolchain rest run.world
      ⟨actions ++ next.actions, next.result, next.world⟩

/-- The build command for programs: its events stand between a start and, if it succeeds, an
end. -/
def buildAsEvents (host : Host) (context : Context) (world : Build.World) : Turn :=
  let name := CommandLine.Command.build.name
  let turn := buildAll host.compiler .events (.ofEnvironment host.environment)
    context.projects world
  let elapsed := min (turn.world.clockMs - world.clockMs) maxMilliseconds
  let ending := match turn.result with
    | .ok () => [.emit (.complete name (some elapsed))]
    | .error _ => []
  ⟨.emit (.start name) :: turn.actions ++ ending, turn.result, turn.world⟩

/-- The build command for people. -/
def buildAsText (host : Host) (context : Context) (world : Build.World) : Turn :=
  let terminal := Terminal.detect host.environment host.stderrIsTerminal
  let console : Console := ⟨context.verbosity, .ofUnicode terminal.supportsUnicode⟩
  let turn := buildAll host.compiler (.console console) (.ofEnvironment host.environment)
    context.projects world
  let heading := if Verbosity.verbose ≤ context.verbosity then
    [errLine ("Manifest: " ++ context.manifestPath.display)] else []
  ⟨heading ++ turn.actions, turn.result, turn.world⟩

def build (host : Host) (context : Context) (world : Build.World) : Turn :=
  if context.json then buildAsEvents host context world else buildAsText host context world

end WasmBuild.Program
