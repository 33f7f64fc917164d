import WasmBuild.Program.Run
import WasmBuild.Proofs.Build.Ending

/-!
# The calls among the actions of a program

Only the steps of a build turn into compiler calls: reporting an event, printing a line and passing
on what the compiler printed call nothing. The build command for people and that for programs differ
in what they report before, between and after the builds.
-/
namespace WasmBuild

theorem Manifest.select_withLevel (manifest : Manifest) (level : Verbosity) (base : Path)
    (names : List String) :
    { manifest with verbosity := level }.select base names = manifest.select base names := by
  induction names with
  | nil => rfl
  | cons name rest ih =>
      rw [select, select, ih]
      rfl

theorem Manifest.resolve_override (manifest : Manifest) (env : Environment) (path : Path)
    (names : List String) :
    (manifest.override env).1.resolve path names = manifest.resolve path names := by
  simp only [override, resolve, select_withLevel]
  rfl

namespace Program

open Report

def Turn.invocations (turn : Turn) : List Invocation := turn.actions.filterMap Action.invocation?

@[simp] theorem invocations_emitIfWritable (event : Event) :
    (emitIfWritable event).filterMap Action.invocation? = [] := by
  unfold emitIfWritable
  split <;> rfl

@[simp] theorem invocations_reporter (reporter : Reporter) (event : Build.Event) :
    (reporter.actions event).filterMap Action.invocation? = [] := by
  cases reporter with
  | events => exact invocations_emitIfWritable _
  | console console => simp [Reporter.actions, errLine, Action.invocation?]

theorem invocation?_printedAction (json : Bool) (printed : Build.Printed) :
    (printedAction json printed).invocation? = none := by
  unfold printedAction
  split
  · split <;> rfl
  · rfl

/-- The steps of a build are shown with its calls and no others. -/
theorem invocations_steps (reporter : Reporter) (steps : List Build.Step) :
    (steps.flatMap (stepActions reporter)).filterMap Action.invocation? =
      steps.filterMap Build.Step.invocation? := by
  induction steps with
  | nil => rfl
  | cons step rest ih =>
      rw [List.flatMap_cons, List.filterMap_append, ih]
      cases step with
      | event event => simp [stepActions, List.filterMap_cons]
      | call call printed =>
          have aside : (printed.map (printedAction reporter.isJson)).filterMap
              Action.invocation? = [] := by
            simp [invocation?_printedAction]
          simp [stepActions, Action.invocation?, aside]

/-- How the build command reports the progress of builds. -/
def reporterOf (host : Host) (context : Context) : Reporter :=
  if context.json then .events
  else .console ⟨context.verbosity, .ofUnicode
    (Terminal.detect host.environment host.stderrIsTerminal).supportsUnicode⟩

/-- What the build command reports before the first build. -/
def opening (context : Context) : List Action :=
  if context.json then [.emit (.start "build")]
  else if Verbosity.verbose ≤ context.verbosity then
    [errLine ("Manifest: " ++ context.manifestPath.display)]
  else []

/-- What the build command reports after the last build: its end, for programs, if all went
well. -/
def closing (context : Context) (elapsedMs : Nat) (result : Except Complaint Unit) : List Action :=
  match result with
  | .ok () => if context.json then [.emit (.complete "build" (some elapsedMs))] else []
  | .error _ => []

/-- The build command builds its projects one after the other, between an opening and a closing. -/
theorem build_eq (host : Host) (context : Context) (world : Build.World) :
    let turn := buildAll host.compiler (reporterOf host context)
      (.ofEnvironment host.environment) context.projects world
    ∃ elapsedMs, build host context world =
      ⟨opening context ++ turn.actions ++ closing context elapsedMs turn.result, turn.result,
        turn.world⟩ := by
  intro turn
  cases json : context.json with
  | true =>
      have events : reporterOf host context = .events := by simp [reporterOf, json]
      refine ⟨min (turn.world.clockMs - world.clockMs) maxMilliseconds, ?_⟩
      simp only [turn, build, buildAsEvents, opening, closing, json, events, if_true]
      rfl
  | false =>
      have console : reporterOf host context = .console ⟨context.verbosity, .ofUnicode
          (Terminal.detect host.environment host.stderrIsTerminal).supportsUnicode⟩ := by
        simp [reporterOf, json]
      have closed : closing context 0 turn.result = [] := by
        cases result : turn.result <;> simp [closing, json]
      refine ⟨0, ?_⟩
      rw [closed, List.append_nil]
      simp only [turn, build, buildAsText, opening, json, console]
      rfl

@[simp] theorem invocations_opening (context : Context) :
    (opening context).filterMap Action.invocation? = [] := by
  unfold opening
  split
  · rfl
  · split <;> rfl

@[simp] theorem invocations_closing (context : Context) (elapsedMs : Nat)
    (result : Except Complaint Unit) :
    (closing context elapsedMs result).filterMap Action.invocation? = [] := by
  unfold closing
  split
  · split <;> rfl
  · rfl

/-- The calls of the build command are those of its builds. -/
theorem invocations_build (host : Host) (context : Context) (world : Build.World) :
    (build host context world).invocations =
      (buildAll host.compiler (reporterOf host context) (.ofEnvironment host.environment)
        context.projects world).invocations := by
  obtain ⟨elapsedMs, same⟩ := build_eq host context world
  rw [same]
  simp [Turn.invocations, List.filterMap_append]

section
variable {host : Host} {tree : FileTree} {request : CommandLine.Request}

theorem prepare_of_load_error {failure : Failure}
    (load : Manifest.load tree request.manifest = .error failure) :
    (prepare host tree request).result = .error (.within (.failure failure)
      ("failed to load manifest " ++ request.manifest.display)) := by
  simp only [prepare, load]

/-- What is chosen from a manifest does not depend on the level that the environment asks for. -/
theorem prepare_of_loaded {loaded : Manifest.Loaded}
    (load : Manifest.load tree request.manifest = .ok loaded) :
    (prepare host tree request).result =
      match loaded.manifest.resolve request.manifest request.projects with
      | .error failure => .error (.failure failure)
      | .ok projects => .ok ⟨request.json, .ofCount request.verbose
          (loaded.manifest.override host.environment).1.verbosity, request.manifest, projects⟩ := by
  simp only [prepare, load, Manifest.resolve_override]
  cases loaded.manifest.resolve request.manifest request.projects <;> rfl

theorem actions_prepare_of_load_error {failure : Failure}
    (load : Manifest.load tree request.manifest = .error failure) :
    (prepare host tree request).actions = [] := by
  simp only [prepare, load]

theorem actions_prepare_of_loaded {loaded : Manifest.Loaded}
    (load : Manifest.load tree request.manifest = .ok loaded) :
    (prepare host tree request).actions = loaded.warnings.flatMap (reportWarning request.json) ++
      ((loaded.manifest.override host.environment).2.map Action.err).toList := by
  simp only [prepare, load]
  split <;> rfl

@[simp] theorem invocations_prepare (host : Host) (tree : FileTree)
    (request : CommandLine.Request) :
    (prepare host tree request).actions.filterMap Action.invocation? = [] := by
  have warnings (warning : Manifest.Warning) :
      (reportWarning request.json warning).filterMap Action.invocation? = [] := by
    unfold reportWarning
    split
    · exact invocations_emitIfWritable _
    · rfl
  cases load : Manifest.load tree request.manifest with
  | error failure => rw [actions_prepare_of_load_error load, List.filterMap_nil]
  | ok loaded =>
      rw [actions_prepare_of_loaded load]
      cases (loaded.manifest.override host.environment).2 <;>
        simp [List.filterMap_flatMap, warnings, Action.invocation?]

theorem carryOut_of_prepare_error {world : Build.World} {complaint : Complaint}
    (stopped : (prepare host world.tree request).result = .error complaint) :
    carryOut host world request =
      ⟨(prepare host world.tree request).actions, .error complaint, world⟩ := by
  simp only [carryOut, stopped]

end

/-- Reporting how a run ended calls nothing. -/
@[simp] theorem invocations_reportComplaint (json : Bool) (env : Environment)
    (complaint : Complaint) :
    (reportComplaint json env complaint).filterMap Action.invocation? = [] := by
  unfold reportComplaint
  split
  · exact invocations_emitIfWritable _
  · cases complaint.annotation? env <;> rfl

end Program
end WasmBuild
