import WasmBuild.Build.Compiler
import WasmBuild.Build.Event
import WasmBuild.Build.Plan
import WasmBuild.FileTree.Write

/-!
# Running a build

A build checks the toolchain, makes sure of the output directory, looks for the units, and compiles
them one after the other; the first failure ends it. The run is recorded as the steps it took:
events and compiler calls in the order in which they happened.
-/
namespace WasmBuild.Build

/-- One thing that a build did. -/
inductive Step where
  | event (event : Event)
  | call (invocation : Invocation) (printed : List Printed)
  deriving Repr, DecidableEq

def Step.event? : Step → Option Event
  | event e => some e
  | call .. => none

def Step.invocation? : Step → Option Invocation
  | event _ => none
  | call invocation _ => some invocation

/-- The record of a run: its steps, its result and the world it leaves. -/
structure Run (α : Type) where
  steps : List Step
  result : Except Failure α
  world : World

namespace Run

variable {α : Type}

def events (run : Run α) : List Event := run.steps.filterMap Step.event?

def invocations (run : Run α) : List Invocation := run.steps.filterMap Step.invocation?

end Run

/-- An event that is reported only when details are wanted. -/
def detail (detailed : Bool) (event : Event) : List Step :=
  if detailed then [.event event] else []

/-- Compiles units one after the other, numbering them from `index`. -/
def compileUnits (compiler : Compiler) (detailed : Bool) (emccDir outputRoot : Path) :
    Nat → List SourceUnit → World → Run (List UnitPlan)
  | _, [], world => ⟨[], .ok [], world⟩
  | index, source :: rest, world =>
    match UnitPlan.derive outputRoot source with
    | .error failure => ⟨[], .error failure, world⟩
    | .ok plan =>
      let invocation := Invocation.compile emccDir source.path plan.artifacts.js
      let reply := compiler.reply world invocation
      let world := world.afterCall reply
      let steps := detail detailed (.unitStarted index source.path invocation.display) ++
        [.call invocation reply.printed]
      match reply.result with
      | .error error => ⟨steps, .error (.compileFailure source.path error.message), world⟩
      | .ok () =>
        let next := compileUnits compiler detailed emccDir outputRoot (index + 1) rest world
        ⟨steps ++ detail detailed (.unitCompiled index source.path plan.artifacts.wasm) ++
            next.steps,
          match next.result with
          | .ok plans => .ok (plan :: plans)
          | .error failure => .error failure,
          next.world⟩

/-- Compiles every unit below the source root, after the toolchain and the output directory are
there. The units are listed once, before the first call. With a compiler that leaves the walk alone,
a build that looks for each unit as it is due does the same (`compilesAlong_iff_compileAll`). -/
def compileAll (compiler : Compiler) (detailed : Bool) (config : Config) (world : World) :
    Run (List UnitPlan) :=
  match config.toolchain.emccDir with
  | .error failure => ⟨[], .error failure, world⟩
  | .ok emccDir =>
    let creation := world.tree.ensureDirectory config.outputRoot
    let world := { world with tree := creation.tree }
    match creation.result with
    | .error error => ⟨[], .error (.io error), world⟩
    | .ok () =>
      compileUnits compiler detailed emccDir config.outputRoot 0
        (world.tree.sources config.sourceRoot) world

/-- What a build that succeeded has done. -/
structure Outcome where
  compiled : List UnitPlan
  durationMs : Nat
  deriving Repr, DecidableEq

def Outcome.results (outcome : Outcome) : List Path := outcome.compiled.map (·.artifacts.wasm)

def execute (compiler : Compiler) (detailed : Bool) (label : String) (config : Config)
    (world : World) : Run Outcome :=
  let start := Step.event (.started label config.sourceRoot config.outputRoot)
  let run := compileAll compiler detailed config world
  match run.result with
  | .ok compiled =>
    let durationMs := min (run.world.clockMs - world.clockMs) maxMilliseconds
    ⟨start :: run.steps ++ [.event (.completed label compiled.length durationMs)],
      .ok ⟨compiled, durationMs⟩, run.world⟩
  | .error failure =>
    ⟨start :: run.steps ++ [.event (.failed label failure.message)], .error failure, run.world⟩

def buildProject (compiler : Compiler) (detailed : Bool) (project : Project)
    (toolchain : Toolchain) (world : World) : Run Outcome :=
  execute compiler detailed project.name (.ofProject project toolchain) world

end WasmBuild.Build
