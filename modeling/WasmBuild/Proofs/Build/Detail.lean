import WasmBuild.Proofs.Build.Ending

/-!
# What reporting single units changes

A build that is not asked for details does what a build that is asked for them does, and says all
that the other says apart from its single units. The time that a build takes has no part in this: it
is told at the end of a completed build and decides nothing.
-/
namespace WasmBuild.Build

def Step.isDetail : Step → Bool
  | event e => e.isUnit
  | call .. => false

@[simp] theorem Step.isDetail_event (event : Event) :
    (Step.event event).isDetail = event.isUnit := rfl

@[simp] theorem Step.isDetail_call (call : Invocation) (printed : List Printed) :
    (Step.call call printed).isDetail = false := rfl

/-- Leaving out the reports of single units among the steps leaves out the events of single
units. -/
theorem filterMap_event?_filter (steps : List Step) :
    (steps.filter (!·.isDetail)).filterMap Step.event? =
      (steps.filterMap Step.event?).filter (!·.isUnit) := by
  rw [List.filterMap_filter, List.filter_filterMap]
  congr 1
  funext step
  cases step with
  | event event => cases unit : event.isUnit <;> simp [unit, Option.filter]
  | call call printed => rfl

theorem filterMap_invocation?_filter (steps : List Step) :
    (steps.filter (!·.isDetail)).filterMap Step.invocation? =
      steps.filterMap Step.invocation? := by
  rw [List.filterMap_filter]
  congr 1
  funext step
  cases step with
  | event event => simp
  | call call printed => rfl

/-- An event without the time that it tells. -/
def Event.untimed : Event → Event
  | completed project compiled _ => .completed project compiled 0
  | event => event

/-- The event that ends a build. -/
def endOf (label : String) (durationMs : Nat) : Except Failure (List UnitPlan) → Event
  | .ok compiled => .completed label compiled.length durationMs
  | .error failure => .failed label failure.message

@[simp] theorem isUnit_endOf (label : String) (durationMs : Nat)
    (result : Except Failure (List UnitPlan)) : (endOf label durationMs result).isUnit = false := by
  cases result <;> rfl

theorem untimed_endOf (label : String) (durationMs otherMs : Nat)
    (result : Except Failure (List UnitPlan)) :
    (endOf label durationMs result).untimed = (endOf label otherMs result).untimed := by
  cases result <;> rfl

/-- A compiler that gives the same replies and takes other times for them. -/
def Compiler.taking (compiler : Compiler) (elapsed : Nat → Invocation → FileTree → Nat) :
    Compiler := fun calls call tree =>
  { compiler calls call tree with elapsedMs := elapsed calls call tree }

/-- The same files and calls at another time. -/
def World.atTime (world : World) (clockMs : Nat) : World := { world with clockMs := clockMs }

theorem Compiler.reply_taking (compiler : Compiler) (elapsed : Nat → Invocation → FileTree → Nat)
    (world : World) (clockMs : Nat) (call : Invocation) :
    (compiler.taking elapsed).reply (world.atTime clockMs) call =
      { compiler.reply world call with elapsedMs := elapsed world.calls call world.tree } := rfl

theorem World.afterCall_atTime (world : World) (clockMs elapsedMs : Nat) (reply : Reply) :
    (world.atTime clockMs).afterCall { reply with elapsedMs := elapsedMs } =
      (world.afterCall reply).atTime (clockMs + elapsedMs) := rfl

/-- A run without details beside one with them: its steps are those of the other without the reports
of single units, and it comes to the same result, the same files and the same number of calls. -/
structure LeavesOutDetail {α : Type} (quiet full : Run α) : Prop where
  steps : quiet.steps = full.steps.filter (!·.isDetail)
  result : quiet.result = full.result
  tree : quiet.world.tree = full.world.tree
  calls : quiet.world.calls = full.world.calls

variable (compiler : Compiler) (elapsed : Nat → Invocation → FileTree → Nat)

theorem compileUnits_leavesOutDetail (emccDir outputRoot : Path) (index : Nat)
    (units : List SourceUnit) (world : World) (clockMs : Nat) :
    LeavesOutDetail
      (compileUnits (compiler.taking elapsed) false emccDir outputRoot index units
        (world.atTime clockMs))
      (compileUnits compiler true emccDir outputRoot index units world) := by
  induction units generalizing index world clockMs with
  | nil => exact ⟨rfl, rfl, rfl, rfl⟩
  | cons unit rest ih =>
      simp only [compileUnits]
      split
      · exact ⟨rfl, rfl, rfl, rfl⟩
      · next plan derived =>
          -- The compiler is asked at the same place in the same files, so its verdict is the same.
          simp only [Compiler.reply_taking, World.afterCall_atTime]
          have next := ih (index + 1) (world.afterCall (compiler.reply world (.compile emccDir
            unit.path plan.artifacts.js)))
          split
          · refine ⟨?_, rfl, rfl, rfl⟩
            simp [detail, Event.isUnit]
          · refine ⟨?_, ?_, (next _).tree, (next _).calls⟩
            · simp [detail, Event.isUnit, (next _).steps]
            · simp only [(next _).result]

theorem compileAll_leavesOutDetail (config : Config) (world : World) (clockMs : Nat) :
    LeavesOutDetail (compileAll (compiler.taking elapsed) false config (world.atTime clockMs))
      (compileAll compiler true config world) := by
  cases readiness config world with
  | missing toolchain =>
      rw [compileAll_of_toolchain_missing toolchain, compileAll_of_toolchain_missing toolchain]
      exact ⟨rfl, rfl, rfl, rfl⟩
  | @refused emccDir error toolchain directory =>
      have refused : ((world.atTime clockMs).tree.ensureDirectory config.outputRoot).result =
          .error error := directory
      rw [compileAll_of_directory_refused toolchain directory,
        compileAll_of_directory_refused toolchain refused]
      exact ⟨rfl, rfl, rfl, rfl⟩
  | ready toolchain directory =>
      have made : ((world.atTime clockMs).tree.ensureDirectory config.outputRoot).result =
          .ok () := directory
      rw [compileAll_of_ready toolchain directory, compileAll_of_ready toolchain made]
      exact compileUnits_leavesOutDetail compiler elapsed _ _ 0 _ (world.prepared config) clockMs

/-- The time that a build tells at its end. -/
def durationOf {α : Type} (start : World) (run : Run α) : Nat :=
  min (run.world.clockMs - start.clockMs) maxMilliseconds

variable {compiler elapsed} (label : String) (config : Config) (world : World)

/-- A build is its compilation between the event of its start and that of its end. -/
theorem steps_execute (detailed : Bool) :
    let run := compileAll compiler detailed config world
    (execute compiler detailed label config world).steps =
      .event (.started label config.sourceRoot config.outputRoot) ::
        (run.steps ++ [.event (endOf label (durationOf world run) run.result)]) := by
  intro run
  unfold execute
  dsimp only
  split
  · next compiled result => rw [show run.result = .ok compiled from result]; rfl
  · next failure result => rw [show run.result = .error failure from result]; rfl

theorem filter_steps_execute :
    let run := compileAll compiler true config world
    (execute compiler true label config world).steps.filter (!·.isDetail) =
      .event (.started label config.sourceRoot config.outputRoot) ::
        (run.steps.filter (!·.isDetail) ++
          [.event (endOf label (durationOf world run) run.result)]) := by
  intro run
  rw [steps_execute, List.filter_cons_of_pos (by rfl), List.filter_append,
    List.filter_cons_of_pos (by simp)]
  rfl

theorem result_execute (detailed : Bool) :
    (execute compiler detailed label config world).result.map Outcome.compiled =
      (compileAll compiler detailed config world).result := by
  unfold execute
  dsimp only
  split
  · next compiled result => rw [result]; rfl
  · next failure result => rw [result]; rfl

/-- The state in which a build leaves its task hangs on its result, and not on the time. -/
theorem state_eq_of_compiled {run other : Run Outcome}
    (same : run.result.map Outcome.compiled = other.result.map Outcome.compiled) :
    run.state = other.state := by
  unfold Run.state
  cases result : run.result <;> cases result' : other.result <;> simp_all [Except.map]

/-- A build without details beside one with them, where they may take different times. They do the
same, and the first reports what the second reports apart from the single units. -/
structure SameButDetail (quiet full : Run Outcome) : Prop where
  events : quiet.events.map Event.untimed = (full.events.filter (!·.isUnit)).map Event.untimed
  invocations : quiet.invocations = full.invocations
  compiled : quiet.result.map Outcome.compiled = full.result.map Outcome.compiled
  state : quiet.state = full.state
  tree : quiet.world.tree = full.world.tree
  calls : quiet.world.calls = full.world.calls

theorem execute_sameButDetail (elapsed : Nat → Invocation → FileTree → Nat) (clockMs : Nat) :
    SameButDetail (execute (compiler.taking elapsed) false label config (world.atTime clockMs))
      (execute compiler true label config world) := by
  have work := compileAll_leavesOutDetail compiler elapsed config world clockMs
  have compiled : (execute (compiler.taking elapsed) false label config
      (world.atTime clockMs)).result.map Outcome.compiled =
      (execute compiler true label config world).result.map Outcome.compiled := by
    rw [result_execute, result_execute, work.result]
  refine ⟨?_, ?_, compiled, state_eq_of_compiled compiled, ?_, ?_⟩
  · rw [Run.events, Run.events, ← filterMap_event?_filter, filter_steps_execute, steps_execute,
      work.steps, work.result]
    simp only [List.filterMap_cons, Step.event?_event, List.filterMap_append, List.map_cons,
      List.map_append, List.filterMap_nil, List.map_nil]
    rw [untimed_endOf label]
  · rw [(execute_reports ..).invocations, (execute_reports ..).invocations, Run.invocations,
      work.steps, filterMap_invocation?_filter]
    rfl
  · rw [world_execute, world_execute, work.tree]
  · rw [world_execute, world_execute, work.calls]

/-- Of two builds that differ only in whether details are wanted, the one without details reports
what the other reports apart from the events of single units, on every way out. Calls, result, state
and files are the same. This holds also where the two take different times, but for the time that
they tell. -/
theorem execute_without_detail (compiler : Compiler) (label : String) (config : Config)
    (world : World) :
    let full := execute compiler true label config world
    let quiet := execute compiler false label config world
    quiet.events = full.events.filter (!·.isUnit) ∧
      quiet.steps = full.steps.filter (!·.isDetail) ∧
      quiet.invocations = full.invocations ∧ quiet.result = full.result ∧
      quiet.state = full.state ∧ quiet.world = full.world ∧
      ∀ elapsed clockMs, SameButDetail
        (execute (compiler.taking elapsed) false label config (world.atTime clockMs)) full := by
  intro full quiet
  have same : SameWork quiet full := execute_sameWork compiler false label config world
  -- The same compiler in the same world is one that takes its own times, starting now.
  have work : LeavesOutDetail (compileAll compiler false config world)
      (compileAll compiler true config world) :=
    compileAll_leavesOutDetail compiler
      (fun calls call tree => (compiler calls call tree).elapsedMs) config world world.clockMs
  have duration : durationOf world (compileAll compiler false config world) =
      durationOf world (compileAll compiler true config world) := by
    rw [durationOf, durationOf, (compileAll_sameWork compiler false config world).world]
  have steps : quiet.steps = full.steps.filter (!·.isDetail) := by
    rw [filter_steps_execute, steps_execute, work.steps, work.result, duration]
  refine ⟨?_, steps, same.invocations, same.result, ?_, same.world, fun elapsed clockMs =>
    execute_sameButDetail label config world elapsed clockMs⟩
  · rw [Run.events, steps, filterMap_event?_filter]
    rfl
  · rw [Run.state, Run.state, same.result]

end WasmBuild.Build
