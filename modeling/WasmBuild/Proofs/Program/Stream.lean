import WasmBuild.Proofs.Program.Actions
import WasmBuild.Proofs.Program.Blocks

/-!
# The stream of the build command

For programs, the build command writes warnings, then an error or a start, the blocks of the
projects and one last event. Main statement: this is all that standard output holds, every event on
a line of its own, and the last event agrees with the exit code.
-/
namespace WasmBuild.Program

open Report

def IsWarning : Event → Prop
  | .warning .. => True
  | _ => False

/-- The events of the build command, by what loading led to, and whether all projects were
completed. Loading leads to a complaint or to the names of the projects to build. -/
inductive BuildStream : Except Complaint (List String) → Bool → List Event → Prop where
  | unloaded {warnings : List Event} (complaint : Complaint) (first : ∀ e ∈ warnings, IsWarning e) :
      BuildStream (.error complaint) false
        (warnings ++ [.error complaint.code complaint.message complaint.help?])
  | completed {warnings : List Event} {names : List String} {events : List Build.Event}
      (durationMs : Nat) (first : ∀ e ∈ warnings, IsWarning e)
      (blocks : Blocks names true events) :
      BuildStream (.ok names) true (warnings ++ .start "build" :: events.map .progress ++
        [.complete "build" (some durationMs)])
  | failed {warnings : List Event} {names : List String} {events : List Build.Event}
      (code message : String) (help : Option String) (first : ∀ e ∈ warnings, IsWarning e)
      (blocks : Blocks names false events) :
      BuildStream (.ok names) false (warnings ++ .start "build" :: events.map .progress ++
        [.error code message help])

/-- Actions that add nothing but lines of events add exactly these lines. -/
theorem stdout_of_emits {actions : List Action} {events : List Event}
    (emits : Emits actions events) :
    ∃ lines, List.Forall₂ (fun event text => event.line = .ok text) events lines ∧
      String.join (actions.map Action.stdout) = String.join lines := by
  obtain ⟨rfl, written⟩ := emits
  induction actions with
  | nil => exact ⟨[], .nil, rfl⟩
  | cons action rest ih =>
      obtain ⟨lines, others, same⟩ := ih fun a member => written a (List.mem_cons_of_mem _ member)
      have first := written action List.mem_cons_self
      cases action with
      | out text => exact first.elim
      | err text => exact ⟨lines, others, by simpa [Action.stdout] using same⟩
      | call invocation => exact ⟨lines, others, by simpa [Action.stdout] using same⟩
      | emit event =>
          obtain ⟨record, -, line⟩ := Event.line_of_paths first
          refine ⟨record.line :: lines, .cons line others, ?_⟩
          rw [List.map_cons, String.join_cons, String.join_cons, same, Action.stdout, line]
          rfl

theorem emits_complaint (complaint : Complaint) (env : Environment) :
    Emits (reportComplaint true env complaint)
      [.error complaint.code complaint.message complaint.help?] :=
  emits_emitIfWritable complaint.isText_of_mem_paths

/-- Warnings about a manifest at a text are reported as events. -/
theorem emits_warnings {file : Path} (located : file.IsText) (warnings : List Manifest.Warning)
    (named : ∀ warning ∈ warnings, warning.file = file) :
    ∃ events, Emits (warnings.flatMap (reportWarning true)) events ∧
      ∀ event ∈ events, IsWarning event := by
  induction warnings with
  | nil => exact ⟨[], emits_nil, by simp⟩
  | cons warning rest ih =>
      obtain ⟨events, others, warn⟩ := ih fun w member => named w (List.mem_cons_of_mem _ member)
      have texts : ∀ path ∈ (Event.warning warning.key warning.file warning.line
          warning.suggestion).paths, path.IsText := by
        rw [named warning List.mem_cons_self]
        simpa [Event.paths] using located
      have first : Emits (reportWarning true warning) [.warning warning.key warning.file
          warning.line warning.suggestion] := emits_emitIfWritable texts
      refine ⟨_ :: events, first.append others, fun event member => ?_⟩
      rcases List.mem_cons.1 member with rfl | member
      · trivial
      · exact warn event member

theorem emits_err (text? : Option String) : Emits (text?.map Action.err).toList [] := by
  cases text? with
  | none => exact emits_nil
  | some text => exact ⟨rfl, by simp [Action.Written]⟩

/-- Loading a manifest at a text reports warnings only, and the projects that it finds have texts
for directories. -/
theorem prepare_emits (host : Host) (tree : FileTree) {request : CommandLine.Request}
    (json : request.json = true) (located : request.manifest.IsText) :
    let preparation := prepare host tree request
    ∃ warnings, Emits preparation.actions warnings ∧ (∀ event ∈ warnings, IsWarning event) ∧
      ∀ context, preparation.result = .ok context →
        context.json = true ∧ ∀ project ∈ context.projects, project.HasTexts := by
  dsimp only
  cases loading : Manifest.load tree request.manifest with
  | error failure =>
      rw [actions_prepare_of_load_error loading, prepare_of_load_error loading]
      exact ⟨[], emits_nil, by simp, by simp⟩
  | ok loaded =>
      obtain ⟨texts, named⟩ := Manifest.load_hasTexts loading
      obtain ⟨warnings, emits, warn⟩ := emits_warnings located loaded.warnings named
      have both := emits.append (emits_err (loaded.manifest.override host.environment).2)
      rw [List.append_nil] at both
      rw [actions_prepare_of_loaded loading, prepare_of_loaded loading, json]
      refine ⟨warnings, both, warn, fun context found => ?_⟩
      cases resolved : loaded.manifest.resolve request.manifest request.projects with
      | error failure => simp [resolved] at found
      | ok projects =>
          rw [resolved] at found
          obtain rfl := Except.ok.inj found
          exact ⟨rfl, Manifest.resolve_hasTexts texts located resolved⟩

/-- The build command for programs reports a start, blocks, and its end only if all were
completed. -/
theorem buildAsEvents_emits {host : Host} {context : Context} {world : Build.World}
    (directories : ∀ project ∈ context.projects, project.HasTexts)
    (units : FindsTexts host.compiler (.ofEnvironment host.environment) context.projects world) :
    let turn := buildAsEvents host context world
    ∃ events, Blocks (context.projects.map Project.name) turn.result.isOk events ∧
      match turn.result with
      | .ok _ => ∃ durationMs, Emits turn.actions (.start "build" :: events.map .progress ++
          [.complete "build" (some durationMs)])
      | .error _ => Emits turn.actions (.start "build" :: events.map .progress) := by
  obtain ⟨events, emits, blocks⟩ := buildAll_blocks directories units
  have start : Emits [.emit (.start "build")] [.start "build"] := emits_emit (by simp [Event.paths])
  refine ⟨events, blocks, ?_⟩
  cases result : (buildAll host.compiler .events (.ofEnvironment host.environment)
    context.projects world).result with
  | ok u =>
      have ending (durationMs : Nat) : Emits [.emit (.complete "build" (some durationMs))]
          [.complete "build" (some durationMs)] := emits_emit (by simp [Event.paths])
      have all (durationMs : Nat) := start.append (emits.append (ending durationMs))
      simp only [buildAsEvents, result]
      exact ⟨_, all _⟩
  | error complaint =>
      have all := start.append emits
      simp only [buildAsEvents, result]
      rw [List.append_nil]
      exact all

/-- The last event of a stream is `complete` exactly if all projects were completed. -/
theorem BuildStream.completed_iff {loaded : Except Complaint (List String)} {completed : Bool}
    {events : List Event} (stream : BuildStream loaded completed events) :
    completed = true ↔
      ∃ durationMs, events.getLast? = some (.complete "build" (some durationMs)) := by
  cases stream with
  | unloaded complaint first =>
      rw [List.getLast?_concat]
      simp
  | completed durationMs first blocks =>
      rw [List.getLast?_concat]
      simp
  | failed code message help first blocks =>
      rw [List.getLast?_concat]
      simp

section
variable {host : Host} {world : Build.World} {args : List Bytes} {request : CommandLine.Request}
  (parsed : CommandLine.parse args = .ok request) (json : request.json = true)
  (command : request.command = .build) (located : request.manifest.IsText)
  (units : ∀ context, (prepare host world.tree request).result = .ok context →
    FindsTexts host.compiler (.ofEnvironment host.environment) context.projects world)
include parsed json command located units

/-- A run of the build command for programs reports a stream, and its exit code tells how the
stream ends. -/
theorem run_emits :
    ∃ events completed,
      BuildStream ((prepare host world.tree request).result.map (·.projects.map Project.name))
        completed events ∧
      Emits (run host world args).actions events ∧
      (run host world args).exitCode = if completed then 0 else 1 := by
  obtain ⟨warnings, prepared, warn, found⟩ :=
    prepare_emits host world.tree json located
  cases loading : (prepare host world.tree request).result with
  | error complaint =>
      refine ⟨_, _, .unloaded complaint warn, ?_, ?_⟩
      · simp only [run, parsed, carryOut, loading, json]
        exact prepared.append (emits_complaint complaint host.environment)
      · simp [run, parsed, carryOut, loading]
  | ok context =>
      obtain ⟨contextJson, directories⟩ := found context loading
      obtain ⟨events, blocks, ended⟩ := buildAsEvents_emits directories (units context loading)
      cases result : (buildAsEvents host context world).result with
      | ok u =>
          rw [result] at blocks ended
          obtain ⟨durationMs, emits⟩ := ended
          refine ⟨_, _, .completed durationMs warn blocks, ?_, ?_⟩
          · simp only [run, parsed, carryOut, loading, command, perform, build, contextJson,
              if_true, result, List.append_assoc]
            exact prepared.append emits
          · simp [run, parsed, carryOut, loading, command, perform, build, contextJson, result]
      | error complaint =>
          rw [result] at blocks ended
          refine ⟨_, _, .failed complaint.code complaint.message complaint.help? warn
            blocks, ?_, ?_⟩
          · simp only [run, parsed, carryOut, loading, command, perform, build, contextJson,
              if_true, result, json]
            exact (prepared.append ended).append (emits_complaint complaint host.environment)
          · simp [run, parsed, carryOut, loading, command, perform, build, contextJson, result]

end

/-- Standard output of the build command for programs holds the lines of a stream of events and
nothing else. The exit code is zero exactly if the last event is `complete`. -/
theorem build_stream (host : Host) (world : Build.World) (args : List Bytes)
    (request : CommandLine.Request) (parsed : CommandLine.parse args = .ok request)
    (json : request.json = true) (command : request.command = .build)
    (located : request.manifest.IsText)
    (units : ∀ context, (prepare host world.tree request).result = .ok context →
      FindsTexts host.compiler (.ofEnvironment host.environment) context.projects world) :
    let finished := run host world args
    let loaded := (prepare host world.tree request).result.map (·.projects.map Project.name)
    ∃ events lines completed, BuildStream loaded completed events ∧
      List.Forall₂ (fun event line => event.line = .ok line) events lines ∧
      finished.stdout = String.join lines ∧
      Event.ofStream? (Utf8.encode finished.stdout) = some events ∧
      finished.exitCode = (if completed then 0 else 1) ∧
      (finished.exitCode = 0 ↔
        ∃ durationMs, events.getLast? = some (.complete "build" (some durationMs))) := by
  intro finished loaded
  obtain ⟨events, completed, stream, emits, exitCode⟩ :=
    run_emits parsed json command located units
  obtain ⟨lines, written, stdout⟩ := stdout_of_emits emits
  refine ⟨events, lines, completed, stream, written, stdout, ?_, exitCode, ?_⟩
  · have same : finished.stdout = String.join lines := stdout
    rw [same]
    exact Event.ofStream?_join written
  · rw [← stream.completed_iff]
    have code : finished.exitCode = if completed then 0 else 1 := exitCode
    cases completed with
    | true => simp [code]
    | false => simp [code]

/-- A directory with a manifest of two projects and a key that means nothing, and a unit in each
project. -/
def sampleTree : FileTree :=
  let file (text : String) : Entry := .file (Utf8.encode text) false none
  let src : Name := ⟨Utf8.encode "src", by decide⟩
  let fib : Name := ⟨Utf8.encode "fib", by decide⟩
  let gcd : Name := ⟨Utf8.encode "gcd", by decide⟩
  let manifest := "colour = 1\n[[project]]\nname = \"fib\"\n[[project]]\nname = \"gcd\"\n"
  let tree := FileTree.empty.insert [] ⟨Utf8.encode "emproj.toml", by decide⟩ (file manifest)
  let tree := (tree.insert [] src .directory).insert [src] fib .directory
  let tree := (tree.insert [src] gcd .directory).insert [src, fib] ⟨Utf8.encode "é.c", by decide⟩
    (file "")
  tree.insert [src, gcd] ⟨Utf8.encode "b.c", by decide⟩ (file "")

theorem load_sampleTree : ∃ loaded, Manifest.load sampleTree Manifest.defaultPath = .ok loaded ∧
    loaded.manifest.projects.map ProjectEntry.name = ["fib", "gcd"] ∧
    loaded.manifest.verbosity = .normal := by
  have found : (Manifest.load sampleTree Manifest.defaultPath).map (fun loaded =>
      (loaded.manifest.projects.map ProjectEntry.name, loaded.manifest.verbosity)) =
        .ok (["fib", "gcd"], .normal) := by
    decide +kernel
  cases load : Manifest.load sampleTree Manifest.defaultPath with
  | error failure => simp [load, Except.map] at found
  | ok loaded => exact ⟨loaded, rfl, by simpa [load, Except.map] using found⟩

/-- A tree with the manifest of one project, whose only unit has a name that is no text. -/
def brokenTree : FileTree :=
  let file (text : String) : Entry := .file (Utf8.encode text) false none
  let directory : Location := ["src", "t"].filterMap fun name => Name.ofBytes? (Utf8.encode name)
  let tree := (FileTree.empty.ensureDirectory (.ofString "src/t")).tree
  let tree := tree.insert [] ⟨Utf8.encode "m.toml", by decide⟩ (file "[[project]]\nname = \"t\"\n")
  tree.insert directory ⟨[0xFF, 0x2E, 0x63], by decide⟩ (file "")

/-- A host whose compiler prints a line each time and accepts the first call only. -/
def sampleHost : Host where
  environment := ⟨[(Toolchain.variableName, Utf8.encode "/emsdk")]⟩
  stderrIsTerminal := false
  compiler calls _ tree :=
    ⟨if calls = 0 then .ok () else .error (.exit (some 1)), tree, [⟨.out, "noise\n"⟩], 5⟩

/-- What the projects of the manifest resolve to. -/
def sampleContext : Context :=
  let project (name : String) : Project := ⟨name, ⟨[]⟩, ⟨[]⟩, Manifest.defaultOutputBase⟩
  ⟨true, .normal, Manifest.defaultPath, [project "fib", project "gcd"]⟩

/-- The stream where the second project fails: its unit is started only. -/
theorem build_stream_second_project_fails :
    let world : Build.World := ⟨sampleTree, 0, 0⟩
    let args := [Utf8.encode "--json", Utf8.encode "build"]
    let request : CommandLine.Request := ⟨true, 0, Manifest.defaultPath, [], .build⟩
    let finished := run sampleHost world args
    CommandLine.parse args = .ok request ∧ request.manifest.IsText ∧
      (prepare sampleHost world.tree request).result = .ok sampleContext ∧
      FindsTexts sampleHost.compiler (.ofEnvironment sampleHost.environment)
        sampleContext.projects world ∧
      ∃ events lines completed, BuildStream (.ok ["fib", "gcd"]) completed events ∧
        List.Forall₂ (fun event line => event.line = .ok line) events lines ∧
        finished.stdout = String.join lines ∧
        Event.ofStream? (Utf8.encode finished.stdout) = some events ∧
        finished.exitCode = (if completed then 0 else 1) ∧
        (finished.exitCode = 0 ↔
          ∃ durationMs, events.getLast? = some (.complete "build" (some durationMs))) := by
  intro world args request finished
  have parsed : CommandLine.parse args = .ok request := by rfl
  have located : request.manifest.IsText := ⟨"emproj.toml", rfl⟩
  have loading : (prepare sampleHost world.tree request).result = .ok sampleContext := by
    decide +kernel
  have texts : sampleTree.HasTexts := by
    rw [FileTree.HasTexts]
    decide +kernel
  obtain ⟨warnings, -, -, found⟩ := prepare_emits sampleHost world.tree rfl located
  have units : FindsTexts sampleHost.compiler (.ofEnvironment sampleHost.environment)
      sampleContext.projects world :=
    findsTexts_of_hasTexts (fun calls call tree kept => kept) (found _ loading).2 texts
  have stream := build_stream sampleHost world args request parsed rfl rfl located
    (fun context found => by
      obtain rfl : sampleContext = context := Except.ok.inj (loading.symm.trans found)
      exact units)
  rw [loading] at stream
  exact ⟨parsed, located, loading, units, stream⟩

end WasmBuild.Program
