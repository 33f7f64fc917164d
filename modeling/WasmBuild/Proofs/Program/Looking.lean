import WasmBuild.Proofs.Program.Presentation

/-!
# Commands that only look

Every command but the one that builds leaves the world as it is and calls no compiler, whether it
succeeds or fails. It does not even know of one: what it does and says is the same on any host whose
environment agrees but for the directory of the compiler.
-/
namespace WasmBuild.Program

open Report CommandLine Build

/-- Two hosts of which the second may have another compiler, or none: their environments agree on
all variables but the one that names its directory. -/
def SameButCompiler (host other : Host) : Prop :=
  ∀ name, name ≠ "EMCC_DIR" → other.environment.get? name = host.environment.get? name

variable {host other : Host}

theorem prepare_sameButCompiler (same : SameButCompiler host other) (tree : FileTree)
    (request : Request) : prepare other tree request = prepare host tree request := by
  have level (manifest : Manifest) :
      manifest.override other.environment = manifest.override host.environment := by
    rw [Manifest.override, Manifest.override, Verbosity.override, Verbosity.override,
      same _ (by decide)]
  simp only [prepare, level]

theorem reportComplaint_sameButCompiler (same : SameButCompiler host other) (json : Bool)
    (complaint : Complaint) :
    reportComplaint json other.environment complaint =
      reportComplaint json host.environment complaint := by
  have noted : complaint.annotation? other.environment =
      complaint.annotation? host.environment := by
    rw [Complaint.annotation?, Complaint.annotation?, Environment.isSet, Environment.isSet,
      same _ (by decide)]
  rw [reportComplaint, reportComplaint, noted]

/-- Only the build command asks for the host. -/
theorem perform_host (host other : Host) (context : Context) (world : World) {command : Command}
    (looks : command ≠ .build) :
    perform other context world command = perform host context world command := by
  cases command with
  | build => exact absurd rfl looks
  | needsBuild | clean | results | sources => rfl

theorem carryOut_sameButCompiler (same : SameButCompiler host other) (world : World)
    {request : Request} (looks : request.command ≠ .build) :
    carryOut other world request = carryOut host world request := by
  simp only [carryOut, prepare_sameButCompiler same, perform_host host other _ _ looks]

/-- A request that only looks calls nothing and keeps the world, whatever becomes of it. -/
theorem carryOut_looking (host : Host) (world : World) {request : Request}
    (looks : request.command ≠ .build) :
    (carryOut host world request).invocations = [] ∧
      (carryOut host world request).world = world := by
  cases prepared : (prepare host world.tree request).result with
  | error complaint =>
      rw [carryOut_of_prepare_error prepared]
      exact ⟨invocations_prepare .., rfl⟩
  | ok context =>
      have effect := carryOut_of_prepared prepared
      rw [effect.invocations, effect.world]
      exact ⟨invocations_perform_looking host context world looks,
        world_perform_looking host context world looks⟩

/-- A run of a command that does not build calls no compiler and leaves every file, the count of
calls and the clock as they are. The run is the same, in all that it prints and in its exit code, on
every host that differs in its compiler alone, also on one where no compiler is named. -/
theorem run_looking (host : Host) (world : World) (args : List Bytes) (request : Request)
    (parsed : parse args = .ok request) (looks : request.command ≠ .build) :
    let finished := run host world args
    finished.invocations = [] ∧ finished.world = world ∧
      ∀ other, SameButCompiler host other → run other world args = finished := by
  intro finished
  obtain ⟨calls, left, -⟩ := run_of_parsed host world parsed
  obtain ⟨silent, kept⟩ := carryOut_looking host world looks
  refine ⟨calls.trans silent, left.trans kept, fun other same => ?_⟩
  simp only [finished, run, parsed, carryOut_sameButCompiler same world looks,
    reportComplaint_sameButCompiler same]

/-- A compiler that leaves no file. -/
def wipingCompiler : Compiler := fun _ _ _ => ⟨.ok (), .empty, [], 0⟩

/-- A listing that fails at a name that is no text, where a compiler is named and where none is. -/
theorem run_looking_broken_name :
    let world : World := ⟨brokenTree, 0, 0⟩
    let args := ["--json", "-m", "m.toml", "results"].map Utf8.encode
    let request : Request := ⟨true, 0, .ofString "m.toml", [], .results⟩
    let other : Host := ⟨⟨[]⟩, false, wipingCompiler⟩
    let finished := run sampleHost world args
    parse args = .ok request ∧ request.command ≠ .build ∧ SameButCompiler sampleHost other ∧
      finished.exitCode = 1 ∧ finished.invocations = [] ∧ finished.world = world ∧
      run other world args = finished := by
  intro world args request other finished
  have parsed : parse args = .ok request := by rfl
  have looks : request.command ≠ .build := by decide
  have same : SameButCompiler sampleHost other := by
    intro name different
    have unequal : (name == "EMCC_DIR") = false := beq_eq_false_iff_ne.2 different
    simp [other, sampleHost, Environment.get?, Toolchain.variableName, List.lookup_cons, unequal]
  obtain ⟨calls, kept, alike⟩ := run_looking sampleHost world args request parsed looks
  exact ⟨parsed, looks, same, by decide +kernel, calls, kept, alike other same⟩

end WasmBuild.Program
