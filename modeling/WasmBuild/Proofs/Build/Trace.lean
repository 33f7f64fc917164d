import WasmBuild.Proofs.Build.Compilation

/-!
# What a build reports

The events, the compiler calls, the result and the state of a build come from one loop with several
exits. They agree on every way out: a build starts once, reports its units in pairs, ends once in
the way its result says, and has called the compiler for exactly the units up to the first that was
refused.
-/
namespace WasmBuild.Build

/-- A finished build as it is seen from outside: the events between its start and its end, the
calls, and the plans of the compiled units or the failure. Event, result and state of the end
agree. -/
structure Reports (run : Run Outcome) (label : String) (config : Config) (middle : List Event)
    (calls : List Invocation) (ending : Except Failure (List UnitPlan)) : Prop where
  invocations : run.invocations = calls
  ended : match ending with
    | .ok compiled => ∃ durationMs,
        run.result = .ok ⟨compiled, durationMs⟩ ∧ run.state = .done ∧
        run.events = .started label config.sourceRoot config.outputRoot :: middle ++
          [.completed label compiled.length durationMs]
    | .error failure =>
        run.result = .error failure ∧ run.state = .aborted ∧
        run.events = .started label config.sourceRoot config.outputRoot :: middle ++
          [.failed label failure.message]

/-- The build around the compilation adds the event of the start and that of the end. -/
theorem execute_reports (compiler : Compiler) (detailed : Bool) (label : String)
    (config : Config) (world : World) :
    Reports (execute compiler detailed label config world) label config
      (compileAll compiler detailed config world).events
      (compileAll compiler detailed config world).invocations
      (compileAll compiler detailed config world).result := by
  cases ending : (compileAll compiler detailed config world).result with
  | ok compiled =>
      refine ⟨?_, ?_⟩
      · simp [execute, ending, Run.invocations, List.filterMap_cons]
      · refine ⟨min ((compileAll compiler detailed config world).world.clockMs - world.clockMs)
          maxMilliseconds, ?_, ?_, ?_⟩
        · simp only [execute, ending]
        · simp [execute, ending, Run.state]
        · simp [execute, ending, Run.events]
  | error failure =>
      refine ⟨?_, ?_, ?_, ?_⟩
      · simp [execute, ending, Run.invocations, List.filterMap_cons]
      · simp only [execute, ending]
      · simp [execute, ending, Run.state]
      · simp [execute, ending, Run.events]

/-- The world in which the units of a build are looked for: that of its start with the output
directory. -/
def World.prepared (world : World) (config : Config) : World :=
  { world with tree := (world.tree.ensureDirectory config.outputRoot).tree }

/-- The units that a build finds, in the order of the walk. -/
def foundUnits (config : Config) (world : World) : List SourceUnit :=
  (world.prepared config).tree.sources config.sourceRoot

variable {compiler : Compiler} {detailed : Bool} {label : String} {config : Config}
  {world : World}

theorem isSourceName_of_mem_foundUnits {unit : SourceUnit}
    (found : unit ∈ foundUnits config world) : isSourceName unit.fileName = true :=
  FileTree.isSourceName_of_mem_sources found

theorem compileAll_of_toolchain_missing (missing : config.toolchain.emccDir? = none) :
    compileAll compiler detailed config world = ⟨[], .error .missingToolchain, world⟩ := by
  simp [compileAll, Toolchain.emccDir, missing]

variable {emccDir : Path}

theorem compileAll_of_directory_refused {error : FileError}
    (toolchain : config.toolchain.emccDir? = some emccDir)
    (refused : (world.tree.ensureDirectory config.outputRoot).result = .error error) :
    compileAll compiler detailed config world =
      ⟨[], .error (.io error), world.prepared config⟩ := by
  simp [compileAll, Toolchain.emccDir, toolchain, refused, World.prepared]

/-- With a toolchain and an output directory, the units that are found are compiled in the order of
the walk. -/
theorem compileAll_of_ready (toolchain : config.toolchain.emccDir? = some emccDir)
    (made : (world.tree.ensureDirectory config.outputRoot).result = .ok ()) :
    compileAll compiler detailed config world = compileUnits compiler detailed emccDir
      config.outputRoot 0 (foundUnits config world) (world.prepared config) := by
  simp [compileAll, Toolchain.emccDir, toolchain, made, World.prepared, foundUnits]

/-- What a build comes to before it looks for its units. -/
inductive Readiness (config : Config) (world : World) : Prop where
  | missing (toolchain : config.toolchain.emccDir? = none)
  | refused {emccDir : Path} {error : FileError}
      (toolchain : config.toolchain.emccDir? = some emccDir)
      (directory : (world.tree.ensureDirectory config.outputRoot).result = .error error)
  | ready {emccDir : Path} (toolchain : config.toolchain.emccDir? = some emccDir)
      (directory : (world.tree.ensureDirectory config.outputRoot).result = .ok ())

theorem readiness (config : Config) (world : World) : Readiness config world := by
  cases toolchain : config.toolchain.emccDir? with
  | none => exact .missing toolchain
  | some emccDir =>
      cases directory : (world.tree.ensureDirectory config.outputRoot).result with
      | error error => exact .refused toolchain directory
      | ok u => exact .ready toolchain directory

theorem execute_missing (missing : config.toolchain.emccDir? = none) :
    Reports (execute compiler true label config world) label config [] []
      (.error .missingToolchain) := by
  have reports := execute_reports compiler true label config world
  rwa [compileAll_of_toolchain_missing missing] at reports

theorem execute_unprepared {error : FileError}
    (toolchain : config.toolchain.emccDir? = some emccDir)
    (refused : (world.tree.ensureDirectory config.outputRoot).result = .error error) :
    Reports (execute compiler detailed label config world) label config [] []
      (.error (.io error)) := by
  have reports := execute_reports compiler detailed label config world
  rwa [compileAll_of_directory_refused toolchain refused] at reports

/-- All units are accepted: each is called for once and reported in full. -/
theorem execute_accepted (toolchain : config.toolchain.emccDir? = some emccDir)
    (directory : (world.tree.ensureDirectory config.outputRoot).result = .ok ())
    (accepted : compiler.Accepts (world.prepared config)
      ((foundUnits config world).map (callOf emccDir config.outputRoot))) :
    Reports (execute compiler true label config world) label config
      (pairEvents emccDir config.outputRoot 0 (foundUnits config world))
      ((foundUnits config world).map (callOf emccDir config.outputRoot))
      (.ok ((foundUnits config world).map (planOf config.outputRoot))) := by
  obtain ⟨events, calls, result, -⟩ :=
    compileUnits_append true 0 []
      (fun u member => isSourceName_of_mem_foundUnits member) accepted
  rw [List.append_nil, ← compileAll_of_ready toolchain directory] at events calls result
  have reports := execute_reports compiler true label config world
  rw [events, calls, result] at reports
  simpa [compileUnits, Run.events, Run.invocations, Except.map] using reports

/-- The first refused unit is the last one that is called for, and is reported as started only. -/
theorem execute_refused {done later : List SourceUnit} {unit : SourceUnit} {error : CompileError}
    (toolchain : config.toolchain.emccDir? = some emccDir)
    (directory : (world.tree.ensureDirectory config.outputRoot).result = .ok ())
    (split : foundUnits config world = done ++ unit :: later)
    (accepted : compiler.Accepts (world.prepared config)
      (done.map (callOf emccDir config.outputRoot)))
    (verdict : compiler.verdict (world.prepared config)
      (done.map (callOf emccDir config.outputRoot)) (callOf emccDir config.outputRoot unit) =
        .error error) :
    Reports (execute compiler true label config world) label config
      (pairEvents emccDir config.outputRoot 0 done ++ [.unitStarted done.length unit.path
        (callOf emccDir config.outputRoot unit).display])
      ((done ++ [unit]).map (callOf emccDir config.outputRoot))
      (.error (.compileFailure unit.path error.message)) := by
  have named : ∀ u ∈ done ++ unit :: later, isSourceName u.fileName = true := by
    rw [← split]
    exact fun u member => isSourceName_of_mem_foundUnits member
  obtain ⟨events, calls, result, -⟩ :=
    compileUnits_append true 0 (unit :: later)
      (fun u member => named u (List.mem_append_left _ member)) accepted
  obtain ⟨events', calls', result', -⟩ :=
    compileUnits_cons_refused true (0 + done.length) later
      (named unit (by simp)) verdict
  rw [← split, ← compileAll_of_ready toolchain directory] at events calls result
  have reports := execute_reports compiler true label config world
  rw [events, calls, result, events', calls', result'] at reports
  simpa [Except.map] using reports

/-- What can lie between the start and the end of a build of some units, beside its ending: nothing
before a failure, a pair of events for every unit, or pairs for the units before a refused one and
the start of this one. -/
inductive Course (outputRoot : Path) (units : List SourceUnit) :
    List Event → Except Failure (List UnitPlan) → Prop where
  | unprepared (failure : Failure) : Course outputRoot units [] (.error failure)
  | accepted (emccDir : Path) : Course outputRoot units (pairEvents emccDir outputRoot 0 units)
      (.ok (units.map (planOf outputRoot)))
  | refused (emccDir : Path) (failure : Failure) {done later : List SourceUnit}
      {unit : SourceUnit} (split : units = done ++ unit :: later) :
      Course outputRoot units (pairEvents emccDir outputRoot 0 done ++
        [.unitStarted done.length unit.path (callOf emccDir outputRoot unit).display])
        (.error failure)

/-- Whatever is reported between the start and the end of a build is about a unit that it found. -/
theorem Course.exists_about {outputRoot : Path} {units : List SourceUnit} {middle : List Event}
    {ending : Except Failure (List UnitPlan)} (course : Course outputRoot units middle ending)
    {event : Event} (member : event ∈ middle) :
    ∃ emccDir, ∃ unit ∈ units, event.About emccDir outputRoot unit := by
  cases course with
  | unprepared failure => simp at member
  | accepted emccDir => exact ⟨emccDir, exists_about_of_mem_pairEvents member⟩
  | @refused emccDir failure done later unit split =>
      rcases List.mem_append.mp member with member | member
      · obtain ⟨other, inside, about⟩ := exists_about_of_mem_pairEvents member
        exact ⟨emccDir, other, split ▸ List.mem_append_left _ inside, about⟩
      · obtain rfl := List.mem_singleton.mp member
        exact ⟨emccDir, unit, by simp [split], .started done.length⟩

theorem Course.isUnit {outputRoot : Path} {units : List SourceUnit} {middle : List Event}
    {ending : Except Failure (List UnitPlan)} (course : Course outputRoot units middle ending) :
    ∀ event ∈ middle, event.isUnit = true := by
  intro event member
  obtain ⟨emccDir, unit, -, about⟩ := course.exists_about member
  cases about with
  | started index => rfl
  | compiled index => rfl

/-- Every build takes one of these courses through the units that it finds. -/
theorem execute_course (compiler : Compiler) (label : String) (config : Config) (world : World) :
    ∃ middle calls ending,
      Reports (execute compiler true label config world) label config middle calls ending ∧
        Course config.outputRoot (foundUnits config world) middle ending := by
  cases readiness config world with
  | missing toolchain => exact ⟨_, _, _, execute_missing toolchain, .unprepared _⟩
  | refused toolchain directory =>
      exact ⟨_, _, _, execute_unprepared toolchain directory, .unprepared _⟩
  | @ready emccDir toolchain directory =>
      rcases compiler.accepts_or_refuses_unit (world.prepared config) emccDir config.outputRoot
        (foundUnits config world)
        with accepted | ⟨done, unit, later, error, split, accepted, verdict⟩
      · exact ⟨_, _, _, execute_accepted toolchain directory accepted, .accepted emccDir⟩
      · exact ⟨_, _, _, execute_refused toolchain directory split accepted verdict,
          .refused emccDir _ split⟩

/-- A compilation leaves the world that its calls lead to. -/
theorem world_compileUnits {outputRoot : Path} {units : List SourceUnit} {index : Nat}
    (named : ∀ u ∈ units, isSourceName u.fileName = true) :
    let run := compileUnits compiler detailed emccDir outputRoot index units world
    run.world = compiler.worldAfterAll world run.invocations := by
  induction units generalizing index world with
  | nil => rfl
  | cons unit rest ih =>
      have source := named unit List.mem_cons_self
      have others : ∀ u ∈ rest, isSourceName u.fileName = true := fun u member =>
        named u (List.mem_cons_of_mem _ member)
      cases verdict : (compiler.reply world (callOf emccDir outputRoot unit)).result with
      | error error =>
          obtain ⟨-, calls, -, left⟩ := compileUnits_cons_refused detailed index rest
            source verdict
          intro run
          rw [calls, left]
          rfl
      | ok u =>
          obtain ⟨-, calls, -, left⟩ := compileUnits_cons_accepted detailed index rest
            source verdict
          intro run
          rw [calls, left, ih others]
          rfl

theorem calls_worldAfterAll (compiler : Compiler) (world : World) (calls : List Invocation) :
    (compiler.worldAfterAll world calls).calls = world.calls + calls.length := by
  induction calls generalizing world with
  | nil => rfl
  | cons call rest ih =>
      have next : (compiler.worldAfterAll world (call :: rest)).calls =
          world.calls + 1 + rest.length := ih (compiler.worldAfter world call)
      rw [next, List.length_cons]
      omega

/-- The world counts the calls that a compilation records. -/
theorem compileUnits_calls {outputRoot : Path} {units : List SourceUnit} {index : Nat}
    (named : ∀ u ∈ units, isSourceName u.fileName = true) :
    let run := compileUnits compiler detailed emccDir outputRoot index units world
    run.world.calls = world.calls + run.invocations.length := by
  intro run
  rw [show run.world = _ from world_compileUnits named, calls_worldAfterAll]

theorem world_execute : (execute compiler detailed label config world).world =
    (compileAll compiler detailed config world).world := by
  cases ending : (compileAll compiler detailed config world).result <;> simp [execute, ending]

/-- A build that has come to its calls leaves the world that they lead to. Without a toolchain it
leaves the world that it found. -/
theorem world_execute_cases (compiler : Compiler) (detailed : Bool) (label : String)
    (config : Config) (world : World) :
    (config.toolchain.emccDir? = none ∧
        (execute compiler detailed label config world).world = world) ∨
      (execute compiler detailed label config world).world =
        compiler.worldAfterAll (world.prepared config)
          (execute compiler detailed label config world).invocations := by
  rw [world_execute, (execute_reports ..).invocations]
  cases readiness config world with
  | missing toolchain =>
      exact .inl ⟨toolchain, by rw [compileAll_of_toolchain_missing toolchain]⟩
  | refused toolchain directory =>
      exact .inr (by rw [compileAll_of_directory_refused toolchain directory]; rfl)
  | ready toolchain directory =>
      rw [compileAll_of_ready toolchain directory]
      exact .inr (world_compileUnits fun u member => isSourceName_of_mem_foundUnits member)

theorem execute_calls (compiler : Compiler) (detailed : Bool) (label : String)
    (config : Config) (world : World) :
    (execute compiler detailed label config world).world.calls = world.calls +
      (execute compiler detailed label config world).invocations.length := by
  rw [world_execute, (execute_reports ..).invocations]
  cases readiness config world with
  | missing toolchain => rw [compileAll_of_toolchain_missing toolchain]; rfl
  | refused toolchain directory => rw [compileAll_of_directory_refused toolchain directory]; rfl
  | ready toolchain directory =>
      rw [compileAll_of_ready toolchain directory]
      exact compileUnits_calls fun u member => isSourceName_of_mem_foundUnits member

/-- What every call and the output directory keep of the files, a build keeps. -/
theorem execute_keeps {keeps : FileTree → Prop}
    (step : ∀ calls call tree, keeps tree → keeps (compiler calls call tree).tree)
    (ready : keeps (world.prepared config).tree) (start : keeps world.tree) :
    keeps (execute compiler detailed label config world).world.tree := by
  rw [world_execute]
  cases readiness config world with
  | missing toolchain => rwa [compileAll_of_toolchain_missing toolchain]
  | refused toolchain directory => rwa [compileAll_of_directory_refused toolchain directory]
  | ready toolchain directory =>
      rw [compileAll_of_ready toolchain directory]
      exact compileUnits_keeps detailed 0 step ready

/-- A build that reports its units emits its start, then two events for each unit of the walk, and
then one end that agrees with its result and state. Without a toolchain or an output directory there
is nothing between start and end, and no call. Otherwise the calls are those of the units up to and
including the first that is refused, or of all units. -/
theorem execute_trace (compiler : Compiler) (label : String) (config : Config) (world : World) :
    let run := execute compiler true label config world
    let directory := (world.tree.ensureDirectory config.outputRoot).result
    let ready := world.prepared config
    let units := foundUnits config world
    (∃ middle calls ending, Reports run label config middle calls ending ∧
      (∀ event ∈ middle, event.isUnit = true) ∧
      run.world.calls = world.calls + calls.length) ∧
    (config.toolchain.emccDir? = none →
      Reports run label config [] [] (.error .missingToolchain)) ∧
    ∀ emccDir, config.toolchain.emccDir? = some emccDir →
      let call := callOf emccDir config.outputRoot
      let pairs := pairEvents emccDir config.outputRoot 0
      (∀ error, directory = .error error →
        Reports run label config [] [] (.error (.io error))) ∧
      (directory = .ok () →
        (∀ done unit later error, units = done ++ unit :: later →
          compiler.Accepts ready (done.map call) →
          compiler.verdict ready (done.map call) (call unit) = .error error →
          Reports run label config
            (pairs done ++ [.unitStarted done.length unit.path (call unit).display])
            ((done ++ [unit]).map call)
            (.error (.compileFailure unit.path error.message))) ∧
        (compiler.Accepts ready (units.map call) →
          Reports run label config (pairs units) (units.map call)
            (.ok (units.map (planOf config.outputRoot))))) := by
  intro run directory ready units
  refine ⟨?_, execute_missing, fun emccDir toolchain => ⟨fun error =>
    execute_unprepared toolchain, fun made => ⟨fun done unit later error split =>
      execute_refused toolchain made split, execute_accepted toolchain made⟩⟩⟩
  obtain ⟨middle, calls, ending, reports, course⟩ := execute_course compiler label config world
  refine ⟨middle, calls, ending, reports, course.isUnit, ?_⟩
  rw [← reports.invocations]
  exact execute_calls compiler true label config world

end WasmBuild.Build
