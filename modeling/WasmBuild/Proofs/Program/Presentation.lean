import WasmBuild.Proofs.CommandLine.JsonFlag
import WasmBuild.Proofs.Program.Listings

/-!
# What the flag for machine-readable output changes

A run with the flag calls the compiler as the run without it and leaves the same world. It also ends
in the same way, with one exception: a listing that comes to a path that is no text shows it to
people, but has no event for it and fails.
-/
namespace WasmBuild.Program

open Report CommandLine Build

/-- The context of the same command with machine-readable output. -/
def Context.asJson (context : Context) : Context := { context with json := true }

/-- Two turns that differ in their reports at most. -/
structure SameEffect (turn other : Turn) : Prop where
  invocations : turn.invocations = other.invocations
  result : turn.result = other.result
  world : turn.world = other.world

/-- How builds are reported changes neither what they do nor how they end. -/
theorem buildAll_sameEffect (compiler : Compiler) (reporter : Reporter) (toolchain : Toolchain)
    (projects : List Project) (world : World) :
    SameEffect (buildAll compiler reporter toolchain projects world)
      (buildAll compiler .events toolchain projects world) := by
  induction projects generalizing world with
  | nil => exact ⟨rfl, rfl, rfl⟩
  | cons project rest ih =>
      have work : SameWork (buildProject compiler reporter.wantsDetail project toolchain world)
          (buildProject compiler true project toolchain world) := execute_sameWork ..
      have calls (reporter : Reporter) (run : Build.Run Outcome) :
          (run.steps.flatMap (stepActions reporter)).filterMap Action.invocation? =
            run.invocations := invocations_steps reporter run.steps
      have detailed : Reporter.events.wantsDetail = true := rfl
      cases result : (buildProject compiler true project toolchain world).result with
      | error failure =>
          have same := work.result.trans result
          refine ⟨?_, ?_, ?_⟩
          · simp only [Turn.invocations, buildAll, detailed, same, result, calls,
              work.invocations]
          · simp only [buildAll, detailed, same, result]
          · simp only [buildAll, detailed, same, result, work.world]
      | ok outcome =>
          have same := work.result.trans result
          have others := ih (buildProject compiler true project toolchain world).world
          have otherCalls := others.invocations
          simp only [Turn.invocations] at otherCalls
          refine ⟨?_, ?_, ?_⟩
          · simp only [Turn.invocations, buildAll, detailed, same, result, List.filterMap_append,
              calls, work.invocations, work.world, otherCalls]
          · simp only [buildAll, detailed, same, result, work.world, others.result]
          · simp only [buildAll, detailed, same, result, work.world, others.world]

/-- The build command has the same effect for people and for programs. -/
theorem build_sameEffect (host : Host) (context : Context) (world : World) :
    SameEffect (build host context.asJson world) (build host context world) := by
  obtain ⟨elapsedMs, events⟩ := build_eq host context.asJson world
  obtain ⟨otherMs, lines⟩ := build_eq host context world
  have same := buildAll_sameEffect host.compiler (reporterOf host context)
    (.ofEnvironment host.environment) context.projects world
  refine ⟨?_, ?_, ?_⟩
  · rw [invocations_build, invocations_build]
    exact same.invocations.symm
  · rw [events, lines]
    exact same.result.symm
  · rw [events, lines]
    exact same.world.symm

theorem invocations_forEach {α : Type} {output : α → Output} {items : List α}
    (silent : ∀ a, (output a).actions.filterMap Action.invocation? = []) :
    (Output.forEach output items).actions.filterMap Action.invocation? = [] := by
  induction items with
  | nil => rfl
  | cons a rest ih =>
      rw [Output.forEach, Output.append]
      split
      · rw [List.filterMap_append, silent, ih]
        rfl
      · exact silent a

/-- The listings call nothing, whether or not they come to their end. -/
theorem invocations_listing (context : Context) (tree : FileTree) (project : Project) :
    (listResults context tree project).actions.filterMap Action.invocation? = [] ∧
      (listSources context tree project).actions.filterMap Action.invocation? = [] := by
  have lists := lists_plansOf tree project
  cases json : context.json with
  | true =>
      rw [lists.resultEvents context json, lists.sourceEvents context json]
      simp [Action.invocation?]
  | false =>
      rw [lists.resultLines context json, lists.sourceRows context json]
      simp [outLine, Action.invocation?]

theorem invocations_emit (event : Report.Event) :
    (Output.emit event).actions.filterMap Action.invocation? = [] := by
  unfold Output.emit
  split <;> rfl

/-- The commands that only look call nothing. -/
theorem invocations_perform_looking (host : Host) (context : Context) (world : World)
    {command : Command} (looks : command ≠ .build) :
    (perform host context world command).invocations = [] := by
  cases command with
  | build => exact absurd rfl looks
  | needsBuild =>
      refine invocations_forEach fun project => ?_
      unfold reportNeed
      split
      · exact invocations_emit _
      · rfl
  | clean =>
      refine invocations_forEach fun project => ?_
      simp only [reportClean, Task.clean]
      split
      · exact invocations_emit _
      · split <;> rfl
  | results => exact invocations_forEach fun project => (invocations_listing ..).1
  | sources => exact invocations_forEach fun project => (invocations_listing ..).2

theorem world_perform_looking (host : Host) (context : Context) (world : World)
    {command : Command} (looks : command ≠ .build) :
    (perform host context world command).world = world := by
  cases command with
  | build => exact absurd rfl looks
  | needsBuild | clean | results | sources => rfl

/-- The paths of a planned unit that a command shows. -/
def shownPaths (plan : UnitPlan) : Command → List Path
  | .results => [plan.artifacts.wasm]
  | .sources => [plan.source.path, plan.artifacts.js, plan.artifacts.wasm]
  | .build | .needsBuild | .clean => []

/-- Whether a command comes to a path that it has to show and that is no text. -/
def ShowsBroken (tree : FileTree) (projects : List Project) (command : Command) : Prop :=
  ∃ project ∈ projects, ∃ plan ∈ plansOf tree project,
    ∃ path ∈ shownPaths plan command, ¬ path.IsText

/-- For people every command that only looks succeeds. -/
theorem result_perform_people (host : Host) {context : Context} (world : World)
    {command : Command} (looks : command ≠ .build) (people : context.json = false) :
    (perform host context world command).result = .ok () := by
  have lists (project : Project) := lists_plansOf world.tree project
  cases command with
  | build => exact absurd rfl looks
  | needsBuild =>
      refine Output.forEach_result_eq_ok_iff.2 fun project _ => ?_
      simp [reportNeed, people, Output.one]
  | clean =>
      refine Output.forEach_result_eq_ok_iff.2 fun project _ => ?_
      simp only [reportClean, Task.clean, people, Bool.false_eq_true, if_false]
      split <;> rfl
  | results =>
      refine Output.forEach_result_eq_ok_iff.2 fun project _ => ?_
      rw [(lists project).resultLines context people]
  | sources =>
      refine Output.forEach_result_eq_ok_iff.2 fun project _ => ?_
      rw [(lists project).sourceRows context people]

/-- For programs a command that only looks succeeds unless it comes to a path that is no text. -/
theorem result_perform_programs (host : Host) (context : Context) (world : World)
    {command : Command} (looks : command ≠ .build) (programs : context.json = true) :
    (perform host context world command).result = .ok () ↔
      ¬ ShowsBroken world.tree context.projects command := by
  have lists (project : Project) := lists_plansOf world.tree project
  have whole {output : Project → Output}
      (each : ∀ project, (output project).result = .ok () ↔
        ∀ plan ∈ plansOf world.tree project, ∀ path ∈ shownPaths plan command, path.IsText) :
      (Output.forEach output context.projects).result = .ok () ↔
        ¬ ShowsBroken world.tree context.projects command := by
    rw [Output.forEach_result_eq_ok_iff, ShowsBroken]
    push Not
    simp only [each]
  cases command with
  | build => exact absurd rfl looks
  | needsBuild =>
      refine whole fun project => ?_
      have writable (required : Bool) (reason : Option String) :
          (Event.needsBuild project.name required reason).isWritable = true := rfl
      simp [reportNeed, programs, Output.emit_of_writable (writable _ _), shownPaths]
  | clean =>
      refine whole fun project => ?_
      have writable : (Event.clean project.name 0).isWritable = true := rfl
      simp [reportClean, Task.clean, programs, Output.emit_of_writable writable, shownPaths]
  | results =>
      refine whole fun project => ?_
      rw [(lists project).resultEvents context programs]
      simp [wasmOf, shownPaths, Path.text?_eq_none_iff]
  | sources =>
      refine whole fun project => ?_
      rw [(lists project).sourceEvents context programs]
      simp [shownPaths, Event.isWritable_iff, sourceEvent, Event.paths]

/-- The flag changes nothing else in what loading the manifest leads to. -/
theorem result_prepare_asJson (host : Host) (tree : FileTree) (request : Request) :
    (prepare host tree request.asJson).result =
      (prepare host tree request).result.map Context.asJson := by
  cases load : Manifest.load tree request.manifest with
  | error failure =>
      have same : Manifest.load tree request.asJson.manifest = .error failure := load
      rw [prepare_of_load_error load, prepare_of_load_error same]
      rfl
  | ok loaded =>
      have same : Manifest.load tree request.asJson.manifest = .ok loaded := load
      have chosen : loaded.manifest.resolve request.asJson.manifest request.asJson.projects =
          loaded.manifest.resolve request.manifest request.projects := rfl
      rw [prepare_of_loaded load, prepare_of_loaded same, chosen]
      cases loaded.manifest.resolve request.manifest request.projects <;> rfl

theorem json_of_prepared {host : Host} {tree : FileTree} {request : Request} {context : Context}
    (prepared : (prepare host tree request).result = .ok context) :
    context.json = request.json := by
  cases load : Manifest.load tree request.manifest with
  | error failure => simp [prepare_of_load_error load] at prepared
  | ok loaded =>
      rw [prepare_of_loaded load] at prepared
      split at prepared
      · cases prepared
      · cases prepared
        rfl

/-- Carrying out a request has the effect of its command, once the manifest is loaded. -/
theorem carryOut_of_prepared {host : Host} {world : World} {request : Request} {context : Context}
    (prepared : (prepare host world.tree request).result = .ok context) :
    SameEffect (carryOut host world request) (perform host context world request.command) := by
  have calls := invocations_prepare host world.tree request
  refine ⟨?_, ?_, ?_⟩
  · simp only [carryOut, prepared, Turn.invocations, List.filterMap_append, calls,
      List.nil_append]
  · simp only [carryOut, prepared]
  · simp only [carryOut, prepared]

/-- Whether a request lists a path that is no text, after its manifest is loaded. -/
def ListsBroken (host : Host) (tree : FileTree) (request : Request) : Prop :=
  ∃ context, (prepare host tree request).result = .ok context ∧
    ShowsBroken tree context.projects request.command

/-- Two runs that call the compiler alike and leave the same world. They end alike too, unless the
first succeeds where the second has something to list and no line for it. -/
structure SameUpTo (broken : Prop) (text json : Turn) : Prop where
  invocations : json.invocations = text.invocations
  world : json.world = text.world
  result : ¬ broken → json.result = text.result
  listed : broken → text.result = .ok () ∧ json.result ≠ .ok ()

theorem carryOut_asJson (host : Host) (world : World) {request : Request}
    (plain : request.json = false) :
    SameUpTo (ListsBroken host world.tree request) (carryOut host world request)
      (carryOut host world request.asJson) := by
  have flagged := result_prepare_asJson host world.tree request
  cases prepared : (prepare host world.tree request).result with
  | error complaint =>
      rw [prepared] at flagged
      have whole : ¬ ListsBroken host world.tree request := by
        rintro ⟨context, loaded, -⟩
        cases prepared.symm.trans loaded
      rw [carryOut_of_prepare_error prepared, carryOut_of_prepare_error flagged]
      exact ⟨by simp [Turn.invocations], rfl, fun _ => rfl, fun broken => absurd broken whole⟩
  | ok context =>
      rw [prepared] at flagged
      have people : context.json = false := (json_of_prepared prepared).trans plain
      have text := carryOut_of_prepared prepared
      have json := carryOut_of_prepared flagged
      have lists : ListsBroken host world.tree request ↔
          ShowsBroken world.tree context.projects request.command := by
        constructor
        · rintro ⟨other, loaded, broken⟩
          obtain rfl := Except.ok.inj (prepared.symm.trans loaded)
          exact broken
        · exact fun broken => ⟨context, prepared, broken⟩
      rw [lists]
      by_cases builds : request.command = .build
      · have same := build_sameEffect host context world
        have silent : ¬ ShowsBroken world.tree context.projects request.command := by
          simp [ShowsBroken, builds, shownPaths]
        have flagged : request.asJson.command = .build := builds
        rw [flagged] at json
        rw [builds] at text
        exact ⟨json.invocations.trans (same.invocations.trans text.invocations.symm),
          json.world.trans (same.world.trans text.world.symm),
          fun _ => json.result.trans (same.result.trans text.result.symm),
          fun broken => absurd broken silent⟩
      · have shown := result_perform_people host world builds people
        have events := result_perform_programs host context.asJson world builds rfl
        refine ⟨?_, ?_, fun whole => ?_, fun broken => ⟨text.result.trans shown, ?_⟩⟩
        · rw [json.invocations, text.invocations, invocations_perform_looking host _ _ builds]
          exact invocations_perform_looking host _ _ builds
        · rw [json.world, text.world, world_perform_looking host _ _ builds]
          exact world_perform_looking host _ _ builds
        · rw [json.result, text.result, shown]
          exact events.2 whole
        · rw [json.result]
          exact fun written => events.1 written broken

/-- A run on a command line that makes a request does what carrying out the request does, and its
exit code tells the result. -/
theorem run_of_parsed (host : Host) (world : World) {args : List Bytes} {request : Request}
    (parsed : parse args = .ok request) :
    let turn := carryOut host world request
    let finished := run host world args
    finished.invocations = turn.invocations ∧ finished.world = turn.world ∧
      finished.exitCode = if turn.result.isOk then 0 else 1 := by
  intro turn finished
  cases result : turn.result with
  | ok u =>
      have same : finished = ⟨turn.actions, 0, turn.world⟩ := by
        simp only [finished, run, parsed]
        rw [show (carryOut host world request).result = .ok () from result]
      rw [same]
      exact ⟨rfl, rfl, rfl⟩
  | error complaint =>
      have same : finished = ⟨turn.actions ++
          reportComplaint request.json host.environment complaint, 1, turn.world⟩ := by
        simp only [finished, run, parsed]
        rw [show (carryOut host world request).result = .error complaint from result]
      rw [same]
      refine ⟨?_, rfl, rfl⟩
      rw [Finished.invocations, List.filterMap_append, invocations_reportComplaint, List.append_nil]
      rfl

/-- A command line without the flag for machine-readable output can be given it, and any command
line that makes the same request but for the flag makes the same compiler calls and leaves the same
world. The exit codes differ just when there is a path to list that is no text: people see it, and
the run for programs fails. -/
theorem run_asJson (host : Host) (world : World) (args : List Bytes) (request : Request)
    (parsed : parse args = .ok request) (plain : request.json = false) :
    parse (jsonFlag :: args) = .ok request.asJson ∧
    ∀ jsonArgs, parse jsonArgs = .ok request.asJson →
      let text := run host world args
      let json := run host world jsonArgs
      json.invocations = text.invocations ∧ json.world = text.world ∧
      (json.exitCode = text.exitCode ↔ ¬ ListsBroken host world.tree request) ∧
      (ListsBroken host world.tree request → text.exitCode = 0 ∧ json.exitCode = 1) := by
  refine ⟨parse_jsonFlag parsed plain, ?_⟩
  intro jsonArgs flagged text json
  obtain ⟨textCalls, textWorld, textCode⟩ := run_of_parsed host world parsed
  obtain ⟨jsonCalls, jsonWorld, jsonCode⟩ := run_of_parsed host world flagged
  have same := carryOut_asJson host world plain
  have codes (broken : ListsBroken host world.tree request) :
      text.exitCode = 0 ∧ json.exitCode = 1 := by
    obtain ⟨shown, refused⟩ := same.listed broken
    rw [textCode, jsonCode, shown]
    refine ⟨rfl, ?_⟩
    cases result : (carryOut host world request.asJson).result with
    | ok u => exact absurd result refused
    | error complaint => rfl
  refine ⟨?_, ?_, ⟨fun equal broken => ?_, fun whole => ?_⟩, codes⟩
  · rw [jsonCalls, textCalls, same.invocations]
  · rw [jsonWorld, textWorld, same.world]
  · have := codes broken
    omega
  · rw [jsonCode, textCode, same.result whole]

/-- A build that fails at its second project does so with and without the flag. -/
theorem run_asJson_second_project_fails :
    let world : World := ⟨sampleTree, 0, 0⟩
    let args := [Utf8.encode "build"]
    let request : Request := ⟨false, 0, Manifest.defaultPath, [], .build⟩
    let text := run sampleHost world args
    let json := run sampleHost world (jsonFlag :: args)
    parse args = .ok request ∧ json.invocations = text.invocations ∧ json.world = text.world ∧
      json.exitCode = text.exitCode ∧ text.invocations.length = 2 ∧ text.exitCode = 1 := by
  intro world args request text json
  have parsed : parse args = .ok request := by rfl
  obtain ⟨flagged, same⟩ := run_asJson sampleHost world args request parsed rfl
  obtain ⟨calls, left, codes, -⟩ := same _ flagged
  have whole : ¬ ListsBroken sampleHost sampleTree request := by
    simp [ListsBroken, ShowsBroken, shownPaths, request]
  exact ⟨parsed, calls, left, codes.2 whole, by decide +kernel, by decide +kernel⟩

/-- With a unit whose name is no text the exit codes differ: people see the result that it declares,
and the run for programs reports an error. -/
theorem results_of_broken_name :
    let world : World := ⟨brokenTree, 0, 0⟩
    let args := ["-m", "m.toml", "results"].map Utf8.encode
    let text := run sampleHost world args
    let json := run sampleHost world (jsonFlag :: args)
    parse args = .ok ⟨false, 0, .ofString "m.toml", [], .results⟩ ∧
      parse (jsonFlag :: args) = .ok ⟨true, 0, .ofString "m.toml", [], .results⟩ ∧
      text.exitCode = 0 ∧ text.actions = [.out "build/t/\ufffd.wasm\n"] ∧
      json.exitCode = 1 ∧
      json.actions = [.emit (.error "error" "path contains invalid UTF-8 characters" none)] := by
  decide +kernel

end WasmBuild.Program
