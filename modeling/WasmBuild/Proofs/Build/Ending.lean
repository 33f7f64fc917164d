import WasmBuild.Proofs.Build.Trace

/-!
# How a build ends

Whether a build reports its single units decides about events only: the calls, the result and the
world are the same either way. So the calls of a build and its result are told by the toolchain, the
output directory and the verdicts of the compiler on the units of the walk.
-/
namespace WasmBuild.Build

/-- Two runs that differ in their events at most. -/
structure SameWork {α : Type} (run other : Run α) : Prop where
  invocations : run.invocations = other.invocations
  result : run.result = other.result
  world : run.world = other.world

@[simp] theorem invocations_detail (detailed : Bool) (event : Event) :
    (detail detailed event).filterMap Step.invocation? = [] := by
  cases detailed <;> rfl

variable (compiler : Compiler) (detailed : Bool)

theorem compileUnits_sameWork (emccDir outputRoot : Path) (index : Nat) (units : List SourceUnit)
    (world : World) :
    SameWork (compileUnits compiler detailed emccDir outputRoot index units world)
      (compileUnits compiler true emccDir outputRoot index units world) := by
  induction units generalizing index world with
  | nil => exact ⟨rfl, rfl, rfl⟩
  | cons unit rest ih =>
      simp only [compileUnits]
      split
      · exact ⟨rfl, rfl, rfl⟩
      · next plan derived =>
          have next := ih (index + 1) (world.afterCall (compiler.reply world (.compile emccDir
            unit.path plan.artifacts.js)))
          have calls := next.invocations
          simp only [Run.invocations] at calls
          split
          · refine ⟨?_, rfl, rfl⟩
            simp [Run.invocations]
          · refine ⟨?_, ?_, next.world⟩
            · simp [Run.invocations, calls]
            · simp only [next.result]

theorem compileAll_sameWork (config : Config) (world : World) :
    SameWork (compileAll compiler detailed config world)
      (compileAll compiler true config world) := by
  cases readiness config world with
  | missing toolchain =>
      rw [compileAll_of_toolchain_missing toolchain, compileAll_of_toolchain_missing toolchain]
      exact ⟨rfl, rfl, rfl⟩
  | refused toolchain directory =>
      rw [compileAll_of_directory_refused toolchain directory,
        compileAll_of_directory_refused toolchain directory]
      exact ⟨rfl, rfl, rfl⟩
  | ready toolchain directory =>
      rw [compileAll_of_ready toolchain directory, compileAll_of_ready toolchain directory]
      exact compileUnits_sameWork ..

/-- A build does the same work whether or not it reports its single units. -/
theorem execute_sameWork (label : String) (config : Config) (world : World) :
    SameWork (execute compiler detailed label config world)
      (execute compiler true label config world) := by
  have work := compileAll_sameWork compiler detailed config world
  refine ⟨?_, ?_, ?_⟩
  · rw [(execute_reports ..).invocations, (execute_reports ..).invocations, work.invocations]
  · simp only [execute, work.result, work.world]
    split <;> rfl
  · rw [world_execute, world_execute, work.world]

variable {compiler detailed} {label : String} {config : Config} {world : World}

/-- The calls that a build makes beside the plans of its units or its failure. A failure comes
before the first call, or from the first unit that is refused, which is the last one called for. -/
inductive Ending (compiler : Compiler) (config : Config) (world : World) :
    List Invocation → Except Failure (List UnitPlan) → Prop where
  | missing (toolchain : config.toolchain.emccDir? = none) :
      Ending compiler config world [] (.error .missingToolchain)
  | unprepared {emccDir : Path} {error : FileError}
      (toolchain : config.toolchain.emccDir? = some emccDir)
      (directory : (world.tree.ensureDirectory config.outputRoot).result = .error error) :
      Ending compiler config world [] (.error (.io error))
  | refused {emccDir : Path} {done later : List SourceUnit} {unit : SourceUnit}
      {error : CompileError} (toolchain : config.toolchain.emccDir? = some emccDir)
      (directory : (world.tree.ensureDirectory config.outputRoot).result = .ok ())
      (split : foundUnits config world = done ++ unit :: later)
      (accepted : compiler.Accepts (world.prepared config)
        (done.map (callOf emccDir config.outputRoot)))
      (verdict : compiler.verdict (world.prepared config)
        (done.map (callOf emccDir config.outputRoot)) (callOf emccDir config.outputRoot unit) =
          .error error) :
      Ending compiler config world ((done ++ [unit]).map (callOf emccDir config.outputRoot))
        (.error (.compileFailure unit.path error.message))
  | accepted {emccDir : Path} (toolchain : config.toolchain.emccDir? = some emccDir)
      (directory : (world.tree.ensureDirectory config.outputRoot).result = .ok ())
      (accepted : compiler.Accepts (world.prepared config)
        ((foundUnits config world).map (callOf emccDir config.outputRoot))) :
      Ending compiler config world
        ((foundUnits config world).map (callOf emccDir config.outputRoot))
        (.ok ((foundUnits config world).map (planOf config.outputRoot)))

/-- A finished build has made the calls and come to the ending that it reports. -/
theorem Reports.ending {run : Run Outcome} {middle : List Event} {calls : List Invocation}
    {ending : Except Failure (List UnitPlan)}
    (reports : Reports run label config middle calls ending)
    (ends : Ending compiler config world calls ending) :
    Ending compiler config world run.invocations (run.result.map Outcome.compiled) := by
  have result : run.result.map Outcome.compiled = ending := by
    cases ending with
    | ok plans =>
        obtain ⟨durationMs, result, -, -⟩ := reports.ended
        rw [result]
        rfl
    | error failure =>
        obtain ⟨result, -, -⟩ := reports.ended
        rw [result]
        rfl
  rwa [reports.invocations, result]

/-- Every build ends in one of these ways, whether or not it reports its single units. -/
theorem execute_ending (compiler : Compiler) (detailed : Bool) (label : String) (config : Config)
    (world : World) :
    let run := execute compiler detailed label config world
    Ending compiler config world run.invocations (run.result.map Outcome.compiled) := by
  intro run
  have work := execute_sameWork compiler detailed label config world
  rw [work.invocations, work.result]
  cases readiness config world with
  | missing toolchain => exact (execute_missing toolchain).ending (.missing toolchain)
  | refused toolchain directory =>
      exact (execute_unprepared toolchain directory).ending (.unprepared toolchain directory)
  | @ready emccDir toolchain directory =>
      rcases compiler.accepts_or_refuses_unit (world.prepared config) emccDir config.outputRoot
        (foundUnits config world)
        with accepted | ⟨done, unit, later, error, split, accepted, verdict⟩
      · exact (execute_accepted toolchain directory accepted).ending
          (.accepted toolchain directory accepted)
      · exact (execute_refused toolchain directory split accepted verdict).ending
          (.refused toolchain directory split accepted verdict)

theorem Ending.completed {calls : List Invocation} {plans : List UnitPlan}
    (ending : Ending compiler config world calls (.ok plans)) :
    ∃ emccDir, config.toolchain.emccDir? = some emccDir ∧
      (world.tree.ensureDirectory config.outputRoot).result = .ok () ∧
      compiler.Accepts (world.prepared config)
        ((foundUnits config world).map (callOf emccDir config.outputRoot)) ∧
      calls = (foundUnits config world).map (callOf emccDir config.outputRoot) ∧
      plans = (foundUnits config world).map (planOf config.outputRoot) := by
  cases ending with
  | accepted toolchain directory accepted =>
      exact ⟨_, toolchain, directory, accepted, rfl, rfl⟩

/-- Whatever becomes of a build, its calls are those for the first of the units that it finds. -/
theorem Ending.exists_taken {calls : List Invocation} {result : Except Failure (List UnitPlan)}
    (ending : Ending compiler config world calls result) :
    ∃ emccDir, ∃ taken, taken <+: foundUnits config world ∧
      calls = taken.map (callOf emccDir config.outputRoot) := by
  cases ending with
  | missing toolchain => exact ⟨⟨[]⟩, [], List.nil_prefix, rfl⟩
  | @unprepared emccDir error toolchain directory => exact ⟨emccDir, [], List.nil_prefix, rfl⟩
  | @refused emccDir done later unit error toolchain directory split accepted verdict =>
      exact ⟨emccDir, done ++ [unit], ⟨later, by simp [split]⟩, rfl⟩
  | @accepted emccDir toolchain directory accepted =>
      exact ⟨emccDir, foundUnits config world, List.prefix_rfl, rfl⟩

/-- A completed build has called for every unit of the walk and returns their plans. -/
theorem execute_completed {outcome : Outcome}
    (completed : (execute compiler detailed label config world).result = .ok outcome) :
    ∃ emccDir, config.toolchain.emccDir? = some emccDir ∧
      (execute compiler detailed label config world).invocations =
        (foundUnits config world).map (callOf emccDir config.outputRoot) ∧
      outcome.compiled = (foundUnits config world).map (planOf config.outputRoot) := by
  have ending := execute_ending compiler detailed label config world
  simp only [completed, Except.map] at ending
  obtain ⟨emccDir, toolchain, -, -, calls, plans⟩ := ending.completed
  exact ⟨emccDir, toolchain, calls, plans⟩

/-- A build is completed just when there is a toolchain and an output directory and the compiler
accepts every unit of the walk. -/
theorem execute_completed_iff :
    (∃ outcome, (execute compiler detailed label config world).result = .ok outcome) ↔
      ∃ emccDir, config.toolchain.emccDir? = some emccDir ∧
        (world.tree.ensureDirectory config.outputRoot).result = .ok () ∧
        compiler.Accepts (world.prepared config)
          ((foundUnits config world).map (callOf emccDir config.outputRoot)) := by
  constructor
  · rintro ⟨outcome, completed⟩
    have ending := execute_ending compiler detailed label config world
    simp only [completed, Except.map] at ending
    obtain ⟨emccDir, toolchain, directory, accepted, -, -⟩ := ending.completed
    exact ⟨emccDir, toolchain, directory, accepted⟩
  · rintro ⟨emccDir, toolchain, directory, accepted⟩
    obtain ⟨durationMs, result, -⟩ := (execute_accepted toolchain directory accepted).ended
    rw [(execute_sameWork compiler detailed label config world).result]
    exact ⟨_, result⟩

/-- A failed build has made the calls that its failure tells. -/
theorem execute_failed {failure : Failure}
    (failed : (execute compiler detailed label config world).result = .error failure) :
    Ending compiler config world (execute compiler detailed label config world).invocations
      (.error failure) := by
  have ending := execute_ending compiler detailed label config world
  simp only [failed, Except.map] at ending
  exact ending

end WasmBuild.Build
