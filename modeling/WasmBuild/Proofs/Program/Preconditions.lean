import WasmBuild.Proofs.Manifest.Resolution
import WasmBuild.Proofs.Program.Sequence

/-!
# Preconditions of a command

A command wants a manifest that can be read and makes sense, at least one project in it, a
declaration of every name that was selected and, to build, a toolchain. Where one of them is
missing, the program reports the first that is, and does nothing else: it calls no compiler and
leaves every file alone.
-/
namespace WasmBuild

/-- Whether an environment names no directory of the compiler: the variable is unset, empty, or no
text. -/
def Environment.LacksToolchain (env : Environment) : Prop :=
  env.bindings.lookup "EMCC_DIR" = none ∨ env.bindings.lookup "EMCC_DIR" = some [] ∨
    ∃ value, env.bindings.lookup "EMCC_DIR" = some value ∧ ¬ Path.IsText ⟨value⟩

theorem Utf8.encode_eq_nil_iff {text : String} : encode text = [] ↔ text = "" := by
  constructor
  · intro empty
    have same : decode? (encode text) = decode? (encode "") := by rw [empty]; rfl
    simpa only [decode?_encode, Option.some.injEq] using same
  · rintro rfl
    rfl

theorem Toolchain.emccDir?_eq_none_iff (env : Environment) :
    (ofEnvironment env).emccDir? = none ↔ env.LacksToolchain := by
  rw [ofEnvironment, ofValue?, Environment.get?, Environment.LacksToolchain, variableName]
  cases found : env.bindings.lookup "EMCC_DIR" with
  | none => simp
  | some value =>
      simp only [Option.bind_some, Option.map_eq_none_iff, Option.filter_eq_none_iff,
        reduceCtorEq, Option.some.injEq, exists_eq_left', false_or]
      cases text : Utf8.decode? value with
      | none =>
          have noText : ¬ Path.IsText ⟨value⟩ := (Path.text?_eq_none_iff ⟨value⟩).1 text
          simp [noText]
      | some name =>
          obtain rfl := (Utf8.decode?_eq_some_iff value name).1 text
          have isText : Path.IsText ⟨Utf8.encode name⟩ := Path.isText_ofString name
          simp [isText, Utf8.encode_eq_nil_iff]

namespace Manifest

/-- A text that holds no manifest is reported under the name of its file. -/
theorem ofText_eq_error {file : Path} {text : String} {failure : Failure}
    (refused : ofText file text = .error failure) :
    ∃ message, failure = .invalidManifest file message := by
  unfold ofText at refused
  split at refused
  · exact ⟨_, (Except.error.inj refused).symm⟩
  · split at refused
    · exact ⟨_, (Except.error.inj refused).symm⟩
    · cases refused

end Manifest

namespace Program

open Report CommandLine

/-- The mark in front of a report for people. -/
def errorMark : String := "[ERROR] "

def Action.isError : Action → Bool
  | .emit (.error ..) => true
  | .err text => errorMark.toList.isPrefixOf text.toList
  | _ => false

/-- A text that starts with neither the mark nor a part of it reports no error. -/
theorem isError_err_append {start : String} (rest : String)
    (short : ¬ start.toList <+: errorMark.toList) (long : ¬ errorMark.toList <+: start.toList) :
    (Action.err (start ++ rest)).isError = false := by
  have either : ¬ errorMark.toList <+: (start ++ rest).toList := by
    rw [String.toList_append]
    intro marked
    have begins : start.toList <+: start.toList ++ rest.toList := List.prefix_append ..
    exact (List.prefix_or_prefix_of_prefix marked begins).elim long short
  rw [Action.isError, ← Bool.not_eq_true, List.isPrefixOf_iff_prefix]
  exact either

theorem isError_emitIfWritable {event : Event} (other : (Action.emit event).isError = false) :
    ∀ action ∈ emitIfWritable event, action.isError = false := by
  unfold emitIfWritable
  split
  · simpa using other
  · simp

theorem isError_reportWarning (json : Bool) (warning : Manifest.Warning) :
    ∀ action ∈ reportWarning json warning, action.isError = false := by
  cases json with
  | true =>
      rw [reportWarning, if_pos rfl]
      apply isError_emitIfWritable
      simp only [Action.isError]
  | false =>
      have line (rest : String) : (Action.err ("[WARN] Unknown key '" ++ rest)).isError = false :=
        isError_err_append rest (by decide +kernel) (by decide +kernel)
      intro action member
      obtain rfl := List.mem_singleton.1 member
      unfold errLine warningLine
      simp only [String.append_assoc]
      exact line _

theorem eq_of_mem_from? {console : Console} {least : Verbosity} {line text : String}
    (printed : line ∈ console.from? least text) : line = text := by
  unfold Console.from? at printed
  split at printed
  · exact List.mem_singleton.1 printed
  · cases printed

/-- What the lines of a console start with. -/
def lineStarts : List String :=
  ["🔨", "✓", "✗", "[BUILD]", "[OK]", "[FAIL]", "  Source: ", "  Output: ", "  $ ", "  "]

theorem exists_start_of_mem_lines {verbosity : Verbosity} {unicode : Bool} {event : Build.Event}
    {line : String} (printed : line ∈ (Console.mk verbosity (.ofUnicode unicode)).lines event) :
    ∃ start ∈ lineStarts, ∃ rest, line = start ++ rest := by
  have icons : ∀ mark ∈ [(Icons.ofUnicode unicode).build, (Icons.ofUnicode unicode).ok,
      (Icons.ofUnicode unicode).fail], mark ∈ lineStarts := by
    cases unicode <;> decide +kernel
  cases event with
  | started project sourceDir outputDir =>
      simp only [Console.lines, List.mem_append] at printed
      rcases printed with (printed | printed) | printed
      · rw [eq_of_mem_from? printed]
        simp only [String.append_assoc]
        exact ⟨_, icons _ (by simp), _, rfl⟩
      · exact ⟨"  Source: ", by simp [lineStarts], _, eq_of_mem_from? printed⟩
      · exact ⟨"  Output: ", by simp [lineStarts], _, eq_of_mem_from? printed⟩
  | unitStarted index source command =>
      exact ⟨"  $ ", by simp [lineStarts], _, eq_of_mem_from? printed⟩
  | unitCompiled index source wasm =>
      rw [eq_of_mem_from? printed]
      simp only [String.append_assoc]
      exact ⟨"  ", by simp [lineStarts], _, rfl⟩
  | completed project compiled durationMs =>
      rw [eq_of_mem_from? printed]
      simp only [String.append_assoc]
      exact ⟨_, icons _ (by simp), _, rfl⟩
  | failed project error =>
      rw [eq_of_mem_from? printed]
      simp only [String.append_assoc]
      exact ⟨_, icons _ (by simp), _, rfl⟩

/-- No progress is taken for an error. -/
theorem isError_reporter (host : Host) (context : Context) (event : Build.Event) :
    ∀ action ∈ (reporterOf host context).actions event, action.isError = false := by
  unfold reporterOf
  split
  · apply isError_emitIfWritable
    rfl
  · intro action member
    obtain ⟨line, printed, rfl⟩ := List.mem_map.1 member
    obtain ⟨start, known, rest, rfl⟩ := exists_start_of_mem_lines printed
    have apart : ∀ start ∈ lineStarts,
        ¬ start.toList <+: errorMark.toList ∧ ¬ errorMark.toList <+: start.toList := by
      decide +kernel
    rw [errLine, String.append_assoc]
    exact isError_err_append _ (apart start known).1 (apart start known).2

theorem isError_opening (context : Context) :
    ∀ action ∈ opening context, action.isError = false := by
  have heading (rest : String) : (Action.err ("Manifest: " ++ rest)).isError = false :=
    isError_err_append rest (by decide +kernel) (by decide +kernel)
  unfold opening
  split
  · simp [Action.isError]
  · split
    · intro action member
      obtain rfl := List.mem_singleton.1 member
      rw [errLine, String.append_assoc]
      exact heading _
    · simp

/-- The warning about a level that is none is not an error. -/
theorem isError_override (env : Environment) (base : Verbosity) :
    ∀ text ∈ (Verbosity.override env base).2, (Action.err text).isError = false := by
  have warning (rest : String) : (Action.err ("Warning: Invalid " ++ rest)).isError = false :=
    isError_err_append rest (by decide +kernel) (by decide +kernel)
  intro text given
  unfold Verbosity.override at given
  split at given
  · next value found =>
      unfold NamedChoice.resolve at given
      split at given
      · simp at given
      · obtain rfl := Option.some.inj given
        unfold NamedChoice.warning
        simp only [String.append_assoc]
        exact warning _
  · simp at given

/-- Loading a manifest warns, and leaves errors to the end of the run. -/
theorem isError_prepare (host : Host) (tree : FileTree) (request : Request) :
    ∀ action ∈ (prepare host tree request).actions, action.isError = false := by
  cases load : Manifest.load tree request.manifest with
  | error failure => simp [actions_prepare_of_load_error load]
  | ok loaded =>
      rw [actions_prepare_of_loaded load]
      intro action member
      rcases List.mem_append.1 member with member | member
      · obtain ⟨warning, -, member⟩ := List.mem_flatMap.1 member
        exact isError_reportWarning _ warning action member
      · obtain ⟨text, given, rfl⟩ := Option.map_eq_some_iff.1 (Option.mem_toList.1 member)
        exact isError_override host.environment _ text given

/-- Actions that report no error and call no compiler. -/
structure Harmless (actions : List Action) : Prop where
  silent : ∀ action ∈ actions, action.isError = false
  calls : actions.filterMap Action.invocation? = []

theorem Harmless.append {first second : List Action} (left : Harmless first)
    (right : Harmless second) : Harmless (first ++ second) where
  silent action member :=
    (List.mem_append.1 member).elim (left.silent action) (right.silent action)
  calls := by rw [List.filterMap_append, left.calls, right.calls, List.append_nil]

theorem harmless_prepare (host : Host) (tree : FileTree) (request : Request) :
    Harmless (prepare host tree request).actions :=
  ⟨isError_prepare host tree request, invocations_prepare ..⟩

theorem harmless_opening (context : Context) : Harmless (opening context) :=
  ⟨isError_opening context, invocations_opening context⟩

theorem harmless_reporter (host : Host) (context : Context) (event : Build.Event) :
    Harmless ((reporterOf host context).actions event) :=
  ⟨isError_reporter host context event, invocations_reporter ..⟩

/-- The first precondition of a request that is not met: the code and the complaint that tell it.
Each one supposes that those before it are met. -/
inductive FirstUnmet (host : Host) (tree : FileTree) (request : Request) :
    String → Complaint → Prop where
  | unreadable {error : FileError} (read : tree.readText request.manifest = .error error) :
      FirstUnmet host tree request "io" (.within (.failure (.io error))
        ("failed to load manifest " ++ request.manifest.display))
  | malformed {text message : String} (read : tree.readText request.manifest = .ok text)
      (shape : Manifest.ofText request.manifest text =
        .error (.invalidManifest request.manifest message)) :
      FirstUnmet host tree request "invalid_manifest"
        (.within (.failure (.invalidManifest request.manifest message))
          ("failed to load manifest " ++ request.manifest.display))
  | noProject {loaded : Manifest.Loaded} (load : Manifest.load tree request.manifest = .ok loaded)
      (bare : loaded.manifest.projects = []) :
      FirstUnmet host tree request "no_projects" (.failure (.noProjects request.manifest))
  | undeclared {loaded : Manifest.Loaded} {before after : List String} {name : String}
      (load : Manifest.load tree request.manifest = .ok loaded)
      (nonempty : loaded.manifest.projects ≠ [])
      (selected : request.projects = before ++ name :: after)
      (earlier : ∀ n ∈ before, loaded.manifest.Declares n)
      (undeclared : ¬ loaded.manifest.Declares name) :
      FirstUnmet host tree request "unknown_project" (.failure (.unknownProject name))
  | toolchain {loaded : Manifest.Loaded} {first : String}
      (load : Manifest.load tree request.manifest = .ok loaded)
      (nonempty : loaded.manifest.projects ≠ [])
      (declared : ∀ name ∈ request.projects, loaded.manifest.Declares name)
      (command : request.command = .build) (lacks : host.environment.LacksToolchain)
      (chosen : (request.projects ++
        loaded.manifest.projects.map ProjectEntry.name).head? = some first) :
      FirstUnmet host tree request "missing_toolchain"
        (.within (.failure .missingToolchain) ("Building " ++ first ++ " with Emscripten"))

/-- Whether a request lacks something before its command can have any effect. -/
def LacksPrecondition (host : Host) (tree : FileTree) (request : Request) : Prop :=
  (∃ failure, Manifest.load tree request.manifest = .error failure) ∨
    ∃ loaded, Manifest.load tree request.manifest = .ok loaded ∧
      (loaded.manifest.projects = [] ∨
        (∃ name ∈ request.projects, ¬ loaded.manifest.Declares name) ∨
        (request.command = .build ∧ host.environment.LacksToolchain))

variable {host : Host} {tree : FileTree} {request : Request}

theorem exists_firstUnmet (lacks : LacksPrecondition host tree request) :
    ∃ code complaint, FirstUnmet host tree request code complaint := by
  rcases lacks with ⟨failure, load⟩ | ⟨loaded, load, lacks⟩
  · cases read : tree.readText request.manifest with
    | error error => exact ⟨_, _, .unreadable read⟩
    | ok text =>
        have shape : Manifest.ofText request.manifest text = .error failure := by
          simpa [Manifest.load, read] using load
        obtain ⟨message, rfl⟩ := Manifest.ofText_eq_error shape
        exact ⟨_, _, .malformed read shape⟩
  · by_cases bare : loaded.manifest.projects = []
    · exact ⟨_, _, .noProject load bare⟩
    rcases loaded.manifest.declared_or_first_undeclared request.projects
      with declared | ⟨before, name, after, selected, earlier, undeclared⟩
    · have names : request.projects ++ loaded.manifest.projects.map ProjectEntry.name ≠ [] := by
        simp [bare]
      obtain ⟨first, others, chosen⟩ := List.exists_cons_of_ne_nil names
      rcases lacks with empty | ⟨name, member, undeclared⟩ | ⟨command, toolchain⟩
      · exact absurd empty bare
      · exact absurd (declared name member) undeclared
      · exact ⟨_, _, .toolchain load bare declared command toolchain (by rw [chosen]; rfl)⟩
    · exact ⟨_, _, .undeclared load bare selected earlier undeclared⟩

/-- Without a toolchain a build reports its start and its failure, and that is all. -/
theorem buildProject_of_toolchain_missing (compiler : Build.Compiler) (detailed : Bool)
    (project : Project) {toolchain : Toolchain} (world : Build.World)
    (missing : toolchain.emccDir? = none) :
    Build.buildProject compiler detailed project toolchain world =
      ⟨[.event (.started project.name project.sourceDir project.outputDir),
        .event (.failed project.name Failure.missingToolchain.message)],
        .error .missingToolchain, world⟩ := by
  have nothing : Build.compileAll compiler detailed (.ofProject project toolchain) world =
      ⟨[], .error .missingToolchain, world⟩ := Build.compileAll_of_toolchain_missing missing
  simp only [Build.buildProject, Build.execute, nothing]
  rfl

/-- Without a toolchain the build command fails at its first project. -/
theorem build_of_toolchain_missing (context : Context) (world : Build.World) {first : Project}
    {rest : List Project} (chosen : context.projects = first :: rest)
    (missing : (Toolchain.ofEnvironment host.environment).emccDir? = none) :
    ∃ actions, build host context world =
        ⟨actions, .error (.within (.failure .missingToolchain) first.description), world⟩ ∧
      Harmless actions := by
  let reporter := reporterOf host context
  let reports := reporter.actions (.started first.name first.sourceDir first.outputDir) ++
    reporter.actions (.failed first.name Failure.missingToolchain.message)
  have run :=
    buildProject_of_toolchain_missing host.compiler reporter.wantsDetail first world missing
  have all : buildAll host.compiler reporter (.ofEnvironment host.environment) context.projects
      world =
        ⟨reports, .error (.within (.failure .missingToolchain) first.description), world⟩ := by
    rw [chosen, buildAll_failed rest (congrArg Build.Run.result run), run]
    simp [shown, stepActions, reports]
  obtain ⟨elapsedMs, same⟩ := build_eq host context world
  have ended : build host context world = ⟨opening context ++ reports,
      .error (.within (.failure .missingToolchain) first.description), world⟩ := by
    rw [same, all]
    simp [closing]
  exact ⟨_, ended, (harmless_opening context).append
    ((harmless_reporter host context _).append (harmless_reporter host context _))⟩

/-- Where a precondition is not met, a request comes to the complaint that tells it, in the world
in which it started. -/
theorem carryOut_of_firstUnmet {world : Build.World} {code : String} {complaint : Complaint}
    (unmet : FirstUnmet host world.tree request code complaint) :
    ∃ actions, carryOut host world request = ⟨actions, .error complaint, world⟩ ∧
      Harmless actions := by
  have prepared (stopped : (prepare host world.tree request).result = .error complaint) :
      ∃ actions, carryOut host world request = ⟨actions, .error complaint, world⟩ ∧
        Harmless actions :=
    ⟨_, carryOut_of_prepare_error stopped, harmless_prepare ..⟩
  cases unmet with
  | unreadable read => exact prepared (prepare_of_load_error (by simp [Manifest.load, read]))
  | malformed read shape =>
      exact prepared (prepare_of_load_error (by simp [Manifest.load, read, shape]))
  | noProject load bare =>
      exact prepared (by rw [prepare_of_loaded load, Manifest.resolve_of_bare _ bare])
  | undeclared load nonempty selected earlier undeclared =>
      refine prepared ?_
      rw [prepare_of_loaded load, selected, Manifest.resolve_of_selected _ nonempty (by simp),
        Manifest.select_of_undeclared _ earlier undeclared _]
  | @toolchain loaded first load nonempty declared command lacks chosen =>
      obtain ⟨projects, resolved, named⟩ :=
        Manifest.resolve_of_declared request.manifest nonempty declared
      rw [chosen] at named
      obtain ⟨project, rest, rfl, rfl⟩ : ∃ project rest, projects = project :: rest ∧
          project.name = first := by
        cases projects with
        | nil => cases named
        | cons project rest => exact ⟨project, rest, rfl, Option.some.inj named⟩
      obtain ⟨actions, built, harmless⟩ :=
        build_of_toolchain_missing ⟨request.json, .ofCount request.verbose
          (loaded.manifest.override host.environment).1.verbosity, request.manifest,
          project :: rest⟩ world rfl ((Toolchain.emccDir?_eq_none_iff host.environment).2 lacks)
      refine ⟨_, ?_, (harmless_prepare host world.tree request).append harmless⟩
      rw [carryOut, prepare_of_loaded load, resolved, command]
      simp only [perform, built]
      rfl

/-- The action that ends a run with a complaint. For people, and where the GitHub service shows the
run, a line for that service precedes it. -/
def finalReport (json : Bool) (code : String) (complaint : Complaint) : Action :=
  if json then .emit (.error code complaint.message complaint.help?)
  else .err complaint.text

theorem isError_finalReport (json : Bool) (code : String) (complaint : Complaint) :
    (finalReport json code complaint).isError = true := by
  cases json with
  | true => rfl
  | false =>
      have marked : errorMark.toList <+: complaint.text.toList := by
        unfold Complaint.text
        rw [String.append_assoc, String.append_assoc, String.toList_append]
        exact List.prefix_append errorMark.toList _
      simpa [finalReport, Action.isError, List.isPrefixOf_iff_prefix] using marked

theorem reportComplaint_eq (json : Bool) (env : Environment) (complaint : Complaint) :
    ∃ before, reportComplaint json env complaint =
        before ++ [finalReport json complaint.code complaint] ∧ Harmless before := by
  cases json with
  | true =>
      obtain ⟨line, written⟩ := complaint.exists_line
      refine ⟨[], ?_, by simp, rfl⟩
      rw [reportComplaint, if_pos rfl, emitIfWritable, written]
      rfl
  | false =>
      refine ⟨((complaint.annotation? env).map Action.out).toList, rfl, ?_, ?_⟩
      · cases complaint.annotation? env <;> simp [Action.isError]
      · cases complaint.annotation? env <;> rfl

theorem invocation?_finalReport (json : Bool) (code : String) (complaint : Complaint) :
    (finalReport json code complaint).invocation? = none := by
  cases json <;> rfl

theorem FirstUnmet.cause_code {code : String} {complaint : Complaint}
    (unmet : FirstUnmet host tree request code complaint) : complaint.code = code := by
  cases unmet <;> rfl

/-- A request that lacks a precondition calls no compiler and leaves the world as it is. It ends in
failure, and the one error that it reports, at the very end, tells the first precondition that is
not met. -/
theorem run_lacking_precondition (host : Host) (world : Build.World) (args : List Bytes)
    (request : Request) (parsed : parse args = .ok request)
    (lacks : LacksPrecondition host world.tree request) :
    let finished := run host world args
    (∃ code complaint, FirstUnmet host world.tree request code complaint) ∧
      finished.invocations = [] ∧ finished.world = world ∧ finished.exitCode = 1 ∧
      ∀ code complaint, FirstUnmet host world.tree request code complaint →
        finished.actions.filter Action.isError = [finalReport request.json code complaint] ∧
        finished.actions.getLast? = some (finalReport request.json code complaint) := by
  intro finished
  obtain ⟨code, complaint, unmet⟩ := exists_firstUnmet lacks
  have ended {code : String} {complaint : Complaint}
      (unmet : FirstUnmet host world.tree request code complaint) :
      ∃ before, finished = ⟨before ++ [finalReport request.json code complaint], 1, world⟩ ∧
        Harmless before := by
    obtain ⟨actions, carried, harmless⟩ := carryOut_of_firstUnmet unmet
    obtain ⟨note, reported, quiet⟩ :=
      reportComplaint_eq request.json host.environment complaint
    refine ⟨actions ++ note, ?_, harmless.append quiet⟩
    simp only [finished, run, parsed, carried, reported, unmet.cause_code, List.append_assoc]
  obtain ⟨before, same, harmless⟩ := ended unmet
  refine ⟨⟨code, complaint, unmet⟩, ?_, by rw [same], by rw [same], fun other told first => ?_⟩
  · rw [same, Finished.invocations, List.filterMap_append, harmless.calls]
    simp [invocation?_finalReport]
  · obtain ⟨before, same, harmless⟩ := ended first
    rw [same]
    refine ⟨?_, by simp⟩
    rw [List.filter_append,
      List.filter_eq_nil_iff.2 fun a member => by simp [harmless.silent a member]]
    simp [isError_finalReport]

/-- A name that the manifest does not declare, after one that it does. -/
theorem run_lacking_precondition_second_name :
    let args := ["--json", "-p", "fib", "-p", "lcm", "build"].map Utf8.encode
    let request : Request := ⟨true, 0, Manifest.defaultPath, ["fib", "lcm"], .build⟩
    let world : Build.World := ⟨sampleTree, 0, 0⟩
    let complaint : Complaint := .failure (.unknownProject "lcm")
    let report := finalReport true "unknown_project" complaint
    let finished := run sampleHost world args
    parse args = .ok request ∧ LacksPrecondition sampleHost sampleTree request ∧
      FirstUnmet sampleHost sampleTree request "unknown_project" complaint ∧
      finished.invocations = [] ∧ finished.world = world ∧ finished.exitCode = 1 ∧
      finished.actions.filter Action.isError = [report] ∧
      finished.actions.getLast? = some report := by
  intro args request world complaint report finished
  have parsed : parse args = .ok request := by rfl
  obtain ⟨loaded, load, names, -⟩ := load_sampleTree
  have nonempty : loaded.manifest.projects ≠ [] := by
    intro bare
    simp [bare] at names
  have declared : loaded.manifest.Declares "fib" := by simp [Manifest.declares_iff, names]
  have undeclared : ¬ loaded.manifest.Declares "lcm" := by simp [Manifest.declares_iff, names]
  have lacks : LacksPrecondition sampleHost sampleTree request :=
    .inr ⟨loaded, load, .inr (.inl ⟨"lcm", by simp [request], undeclared⟩)⟩
  have unmet : FirstUnmet sampleHost sampleTree request "unknown_project" complaint := by
    have selected : request.projects = ["fib"] ++ "lcm" :: [] := rfl
    exact .undeclared load nonempty selected (by simpa using declared) undeclared
  obtain ⟨-, calls, kept, code, report⟩ :=
    run_lacking_precondition sampleHost world args request parsed lacks
  exact ⟨parsed, lacks, unmet, calls, kept, code, report _ _ unmet⟩

end Program
end WasmBuild
