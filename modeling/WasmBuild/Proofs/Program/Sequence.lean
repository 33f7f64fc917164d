import WasmBuild.Proofs.Program.Actions
import WasmBuild.Proofs.Program.Stream

/-!
# Building projects one after the other

The build command calls the compiler for all units of the projects before the first that fails, then
for those of this project up to the refused one, and for nothing else. Each build looks for its
units in the world that the builds before it leave, so a project that is chosen twice is built
twice.
-/
namespace WasmBuild.Program

open Report Build

section
variable (compiler : Compiler) (detailed : Bool) (toolchain : Toolchain)

/-- The builds of some projects, each in the world that the one before it leaves. -/
def buildsOf : List Project → World → List (Build.Run Outcome)
  | [], _ => []
  | project :: rest, world =>
    let run := buildProject compiler detailed project toolchain world
    run :: buildsOf rest run.world

/-- The world that the builds of some projects lead to. -/
def worldAfter : List Project → World → World
  | [], world => world
  | project :: rest, world =>
    worldAfter rest (buildProject compiler detailed project toolchain world).world

/-- Whether all of some projects are completed when they are built one after the other. -/
def AllCompleted (projects : List Project) (world : World) : Prop :=
  ∀ run ∈ buildsOf compiler detailed toolchain projects world, run.result.isOk = true

instance (projects : List Project) (world : World) :
    Decidable (AllCompleted compiler detailed toolchain projects world) :=
  inferInstanceAs (Decidable (∀ run ∈ _, _))

/-- The calls for every unit of a project, in the order of the walk that its build makes. -/
def walkCalls (project : Project) (world : World) : List Invocation :=
  match toolchain.emccDir? with
  | none => []
  | some emccDir =>
    (foundUnits (.ofProject project toolchain) world).map (callOf emccDir project.outputDir)

/-- The calls for every unit of some projects, in the order of the projects. -/
def allWalkCalls : List Project → World → List Invocation
  | [], _ => []
  | project :: rest, world =>
    walkCalls toolchain project world ++
      allWalkCalls rest (buildProject compiler detailed project toolchain world).world

end

section
variable {compiler : Compiler} {detailed : Bool} {toolchain : Toolchain}

@[simp] theorem allCompleted_cons (project : Project) (rest : List Project) (world : World) :
    AllCompleted compiler detailed toolchain (project :: rest) world ↔
      (buildProject compiler detailed project toolchain world).result.isOk = true ∧
        AllCompleted compiler detailed toolchain rest
          (buildProject compiler detailed project toolchain world).world := by
  simp [AllCompleted, buildsOf]

/-- A completed build has called for every unit of its project. -/
theorem invocations_of_completed {project : Project} {world : World}
    (completed : (buildProject compiler detailed project toolchain world).result.isOk = true) :
    (buildProject compiler detailed project toolchain world).invocations =
      walkCalls toolchain project world := by
  cases result : (buildProject compiler detailed project toolchain world).result with
  | error failure => simp [result, Except.isOk, Except.toBool] at completed
  | ok outcome =>
      obtain ⟨emccDir, configured, calls, -⟩ := execute_completed result
      have known : toolchain.emccDir? = some emccDir := configured
      simp only [walkCalls, known]
      exact calls

/-- Completed builds have called for every unit of their projects, in order. -/
theorem invocations_of_allCompleted {projects : List Project} {world : World}
    (completed : AllCompleted compiler detailed toolchain projects world) :
    (buildsOf compiler detailed toolchain projects world).flatMap Run.invocations =
      allWalkCalls compiler detailed toolchain projects world := by
  induction projects generalizing world with
  | nil => rfl
  | cons project rest ih =>
      rw [allCompleted_cons] at completed
      rw [buildsOf, List.flatMap_cons, allWalkCalls, invocations_of_completed completed.1,
        ih completed.2]

/-- Either all projects are completed, or there is a first one that fails. -/
theorem allCompleted_or_fails (compiler : Compiler) (detailed : Bool) (toolchain : Toolchain)
    (projects : List Project) (world : World) :
    AllCompleted compiler detailed toolchain projects world ∨
      ∃ before failing rest failure, projects = before ++ failing :: rest ∧
        AllCompleted compiler detailed toolchain before world ∧
        (buildProject compiler detailed failing toolchain
          (worldAfter compiler detailed toolchain before world)).result = .error failure := by
  induction projects generalizing world with
  | nil => exact .inl (by simp [AllCompleted, buildsOf])
  | cons project rest ih =>
      cases result : (buildProject compiler detailed project toolchain world).result with
      | error failure =>
          exact .inr ⟨[], project, rest, failure, rfl, by simp [AllCompleted, buildsOf], result⟩
      | ok outcome =>
          have here : (buildProject compiler detailed project toolchain world).result.isOk =
              true := by rw [result]; rfl
          rcases ih (buildProject compiler detailed project toolchain world).world
            with all | ⟨before, failing, others, failure, rfl, done, failed⟩
          · exact .inl ((allCompleted_cons ..).2 ⟨here, all⟩)
          · exact .inr ⟨project :: before, failing, others, failure, rfl,
              (allCompleted_cons ..).2 ⟨here, done⟩, failed⟩

end

/-- The actions that show some builds. -/
def shown (reporter : Reporter) (runs : List (Build.Run Outcome)) : List Action :=
  runs.flatMap fun run => run.steps.flatMap (stepActions reporter)

theorem invocations_shown (reporter : Reporter) (runs : List (Build.Run Outcome)) :
    (shown reporter runs).filterMap Action.invocation? = runs.flatMap Run.invocations := by
  induction runs with
  | nil => rfl
  | cons run rest ih =>
      have first := invocations_steps reporter run.steps
      rw [shown] at ih ⊢
      rw [List.flatMap_cons, List.filterMap_append, first, ih]
      rfl

variable {compiler : Compiler} {reporter : Reporter} {toolchain : Toolchain}

/-- Building completed projects and then others is building the others from the world that the
completed ones lead to. -/
theorem buildAll_append {before : List Project} (rest : List Project) {world : World}
    (completed : AllCompleted compiler reporter.wantsDetail toolchain before world) :
    let next := buildAll compiler reporter toolchain rest
      (worldAfter compiler reporter.wantsDetail toolchain before world)
    buildAll compiler reporter toolchain (before ++ rest) world =
      ⟨shown reporter (buildsOf compiler reporter.wantsDetail toolchain before world) ++
        next.actions, next.result, next.world⟩ := by
  induction before generalizing world with
  | nil => rfl
  | cons project before ih =>
      rw [allCompleted_cons] at completed
      have others := ih completed.2
      cases result :
          (buildProject compiler reporter.wantsDetail project toolchain world).result with
      | error failure => simp [result, Except.isOk, Except.toBool] at completed
      | ok outcome =>
          simp only [List.cons_append, buildAll, result, others, worldAfter, buildsOf, shown,
            List.flatMap_cons, List.append_assoc]

/-- A project that fails is the last one of which anything is seen. -/
theorem buildAll_failed {failing : Project} (rest : List Project) {world : World}
    {failure : Failure}
    (failed : (buildProject compiler reporter.wantsDetail failing toolchain world).result =
      .error failure) :
    let run := buildProject compiler reporter.wantsDetail failing toolchain world
    buildAll compiler reporter toolchain (failing :: rest) world =
      ⟨shown reporter [run], .error (.within (.failure failure) failing.description),
        run.world⟩ := by
  simp only [buildAll, failed, shown, List.flatMap_cons, List.flatMap_nil, List.append_nil]

theorem buildAll_allCompleted {projects : List Project} {world : World}
    (completed : AllCompleted compiler reporter.wantsDetail toolchain projects world) :
    buildAll compiler reporter toolchain projects world =
      ⟨shown reporter (buildsOf compiler reporter.wantsDetail toolchain projects world), .ok (),
        worldAfter compiler reporter.wantsDetail toolchain projects world⟩ := by
  simpa [buildAll] using buildAll_append [] completed

theorem buildsOf_append (compiler : Compiler) (detailed : Bool) (toolchain : Toolchain)
    (before rest : List Project) (world : World) :
    buildsOf compiler detailed toolchain (before ++ rest) world =
      buildsOf compiler detailed toolchain before world ++
        buildsOf compiler detailed toolchain rest
          (worldAfter compiler detailed toolchain before world) := by
  induction before generalizing world with
  | nil => rfl
  | cons project before ih => simp only [List.cons_append, buildsOf, worldAfter, ih]

theorem worldAfter_append (compiler : Compiler) (detailed : Bool) (toolchain : Toolchain)
    (before rest : List Project) (world : World) :
    worldAfter compiler detailed toolchain (before ++ rest) world =
      worldAfter compiler detailed toolchain rest
        (worldAfter compiler detailed toolchain before world) := by
  induction before generalizing world with
  | nil => rfl
  | cons project before ih => simp only [List.cons_append, worldAfter, ih]

/-- The world counts the calls of some builds. -/
theorem worldAfter_calls (compiler : Compiler) (detailed : Bool) (toolchain : Toolchain)
    (projects : List Project) (world : World) :
    (worldAfter compiler detailed toolchain projects world).calls = world.calls +
      ((buildsOf compiler detailed toolchain projects world).flatMap Run.invocations).length := by
  induction projects generalizing world with
  | nil => rfl
  | cons project rest ih =>
      have first : (buildProject compiler detailed project toolchain world).world.calls =
          world.calls +
            (buildProject compiler detailed project toolchain world).invocations.length :=
        execute_calls ..
      rw [worldAfter, ih, first, buildsOf, List.flatMap_cons, List.length_append]
      omega

/-- The build command makes the builds of its projects up to the first that fails, shows them in
order, and leaves the world in which the last of them ends. -/
theorem build_of_failed {host : Host} {context : Context} {world : World}
    {before rest : List Project} {failing : Project} {failure : Failure} :
    let reporter := reporterOf host context
    let toolchain := Toolchain.ofEnvironment host.environment
    let start := worldAfter host.compiler reporter.wantsDetail toolchain before world
    let made := before ++ [failing]
    context.projects = before ++ failing :: rest →
    AllCompleted host.compiler reporter.wantsDetail toolchain before world →
    (buildProject host.compiler reporter.wantsDetail failing toolchain start).result =
      .error failure →
    build host context world =
      ⟨opening context ++ shown reporter
          (buildsOf host.compiler reporter.wantsDetail toolchain made world),
        .error (.within (.failure failure) failing.description),
        worldAfter host.compiler reporter.wantsDetail toolchain made world⟩ := by
  intro reporter toolchain start made split completed failed
  obtain ⟨elapsedMs, same⟩ := build_eq host context world
  rw [same, split, buildAll_append (failing :: rest) completed, buildAll_failed rest failed]
  simp [closing, made, buildsOf_append, worldAfter_append, buildsOf, worldAfter, shown, start,
    reporter, toolchain]

theorem build_of_completed {host : Host} {context : Context} {world : World} :
    let reporter := reporterOf host context
    let toolchain := Toolchain.ofEnvironment host.environment
    AllCompleted host.compiler reporter.wantsDetail toolchain context.projects world →
    ∃ elapsedMs, build host context world =
      ⟨opening context ++ shown reporter
          (buildsOf host.compiler reporter.wantsDetail toolchain context.projects world) ++
            closing context elapsedMs (.ok ()),
        .ok (),
        worldAfter host.compiler reporter.wantsDetail toolchain context.projects world⟩ := by
  intro reporter toolchain completed
  obtain ⟨elapsedMs, same⟩ := build_eq host context world
  rw [buildAll_allCompleted completed] at same
  exact ⟨elapsedMs, same⟩

theorem invocations_build_of_failed {host : Host} {context : Context} {world : World}
    {before rest : List Project} {failing : Project} {failure : Failure} :
    let reporter := reporterOf host context
    let toolchain := Toolchain.ofEnvironment host.environment
    let start := worldAfter host.compiler reporter.wantsDetail toolchain before world
    context.projects = before ++ failing :: rest →
    AllCompleted host.compiler reporter.wantsDetail toolchain before world →
    (buildProject host.compiler reporter.wantsDetail failing toolchain start).result =
      .error failure →
    (build host context world).invocations = (buildsOf host.compiler reporter.wantsDetail
      toolchain (before ++ [failing]) world).flatMap Run.invocations := by
  intro reporter toolchain start split completed failed
  rw [build_of_failed split completed failed]
  simp only [Turn.invocations, List.filterMap_append, invocations_opening, invocations_shown,
    List.nil_append]
  rfl

theorem invocations_build_of_completed {host : Host} {context : Context} {world : World} :
    let reporter := reporterOf host context
    let toolchain := Toolchain.ofEnvironment host.environment
    AllCompleted host.compiler reporter.wantsDetail toolchain context.projects world →
    (build host context world).invocations = (buildsOf host.compiler reporter.wantsDetail
      toolchain context.projects world).flatMap Run.invocations := by
  intro reporter toolchain completed
  obtain ⟨elapsedMs, same⟩ := build_of_completed completed
  rw [same]
  simp only [Turn.invocations, List.filterMap_append, invocations_opening, invocations_shown,
    invocations_closing, List.nil_append, List.append_nil]
  rfl

/-- If all projects are completed, the calls of the build command are those for every unit of every
project, and it succeeds. Otherwise there is a first project that fails: the calls for every unit of
the projects before it are followed by those of its own build, which end with the refused unit if it
came so far, its failure is reported in its context, and what comes after it in the list is neither
reported nor built. -/
theorem build_calls (host : Host) (context : Context) (world : World) :
    let reporter := reporterOf host context
    let toolchain := Toolchain.ofEnvironment host.environment
    let completed := AllCompleted host.compiler reporter.wantsDetail toolchain
    let calls := allWalkCalls host.compiler reporter.wantsDetail toolchain
    let runs := buildsOf host.compiler reporter.wantsDetail toolchain
    let after := worldAfter host.compiler reporter.wantsDetail toolchain
    let result (project : Project) (start : World) :=
      (buildProject host.compiler reporter.wantsDetail project toolchain start).result
    let turn := build host context world
    (completed context.projects world →
      turn.invocations = calls context.projects world ∧ turn.result = .ok () ∧
      turn.world = after context.projects world) ∧
    (∀ before failing rest failure, context.projects = before ++ failing :: rest →
      completed before world → result failing (after before world) = .error failure →
      (∃ own, Ending host.compiler (.ofProject failing toolchain) (after before world) own
          (.error failure) ∧
        turn.invocations = calls before world ++ own) ∧
      turn.result =
        .error (.within (.failure failure) ("Building " ++ failing.name ++ " with Emscripten")) ∧
      turn.actions = opening context ++ shown reporter (runs (before ++ [failing]) world) ∧
      turn.world = after (before ++ [failing]) world) ∧
    (completed context.projects world ∨
      ∃ before failing rest failure, context.projects = before ++ failing :: rest ∧
        completed before world ∧ result failing (after before world) = .error failure) ∧
    turn.world.calls = world.calls + turn.invocations.length := by
  intro reporter toolchain completed calls runs after result turn
  have cases := allCompleted_or_fails host.compiler reporter.wantsDetail toolchain
    context.projects world
  refine ⟨fun all => ?_, fun before failing rest failure split done failed => ?_, cases, ?_⟩
  · obtain ⟨elapsedMs, same⟩ := build_of_completed all
    refine ⟨(invocations_build_of_completed all).trans (invocations_of_allCompleted all), ?_, ?_⟩
    · simp only [turn, same]
    · simp only [turn, same]
      rfl
  · have same := build_of_failed split done failed
    have own := execute_failed failed
    have made : turn.invocations = calls before world ++ (buildProject host.compiler
        reporter.wantsDetail failing toolchain (after before world)).invocations := by
      rw [invocations_build_of_failed split done failed, buildsOf_append, List.flatMap_append,
        invocations_of_allCompleted done]
      simp [buildsOf, calls, after, reporter, toolchain]
    refine ⟨⟨_, own, made⟩, ?_, ?_, ?_⟩
    · simp only [turn, same]
      rfl
    · simp only [turn, same]
      rfl
    · simp only [turn, same]
      rfl
  · rcases cases with all | ⟨before, failing, rest, failure, split, done, failed⟩
    · obtain ⟨elapsedMs, same⟩ := build_of_completed all
      rw [invocations_build_of_completed all]
      simp only [turn, same]
      exact worldAfter_calls ..
    · have same := build_of_failed split done failed
      rw [invocations_build_of_failed split done failed]
      simp only [turn, same]
      exact worldAfter_calls ..

/-- A command that builds a project, then one whose unit is refused, and would then build the first
one again: the two units are called for, and nothing more is done. -/
theorem build_calls_second_of_three_fails :
    let project (name : String) : Project := ⟨name, ⟨[]⟩, ⟨[]⟩, Manifest.defaultOutputBase⟩
    let context : Context := ⟨true, .normal, Manifest.defaultPath,
      [project "fib", project "gcd", project "fib"]⟩
    let world : World := ⟨sampleTree, 0, 0⟩
    let toolchain := Toolchain.ofEnvironment sampleHost.environment
    let failure := Failure.compileFailure (.ofString "src/gcd/b.c") "compiler exited with status 1"
    let start := worldAfter sampleHost.compiler true toolchain [project "fib"] world
    let turn := build sampleHost context world
    AllCompleted sampleHost.compiler true toolchain [project "fib"] world ∧
      (buildProject sampleHost.compiler true (project "gcd") toolchain start).result =
        .error failure ∧
      (∃ own, Ending sampleHost.compiler (.ofProject (project "gcd") toolchain) start own
          (.error failure) ∧
        turn.invocations = allWalkCalls sampleHost.compiler true toolchain [project "fib"] world ++
          own) ∧
      turn.result = .error (.within (.failure failure) "Building gcd with Emscripten") ∧
      turn.actions = opening context ++ shown .events
        (buildsOf sampleHost.compiler true toolchain [project "fib", project "gcd"] world) ∧
      turn.world =
        worldAfter sampleHost.compiler true toolchain [project "fib", project "gcd"] world := by
  intro project context world toolchain failure start turn
  have completed : AllCompleted sampleHost.compiler true toolchain [project "fib"] world := by
    decide +kernel
  have failed : (buildProject sampleHost.compiler true (project "gcd") toolchain start).result =
      .error failure := by
    decide +kernel
  have split : context.projects = [project "fib"] ++ project "gcd" :: [project "fib"] := rfl
  exact ⟨completed, failed, (build_calls sampleHost context world).2.1 [project "fib"]
    (project "gcd") [project "fib"] failure split completed failed⟩

end WasmBuild.Program
