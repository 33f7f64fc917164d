import WasmBuild.Proofs.Build.Artifacts
import WasmBuild.Proofs.Program.Preconditions
import WasmBuild.Proofs.Program.Presentation

/-!
# Names of source files

A walk selects files by the end of their names, and artifacts are named by what stands before that
end. Both look at the same bytes, whether or not they are a text, so every unit that a walk finds
has artifacts: planning always succeeds, with a plan for each unit, and no command ever complains
that a name has no supported ending.
-/
namespace WasmBuild

namespace Build

/-- Every unit below a source root has a plan of its own. -/
theorem exists_planUnits (tree : FileTree) (sourceRoot outputRoot : Path) :
    ∃ plans, planUnits tree sourceRoot outputRoot = .ok plans ∧
      List.Forall₂ (fun unit plan => UnitPlan.derive outputRoot unit = .ok plan)
        (tree.sources sourceRoot) plans := by
  have named : ∀ unit ∈ tree.sources sourceRoot, isSourceName unit.fileName = true :=
    fun _ => FileTree.isSourceName_of_mem_sources
  refine ⟨_, planAll_eq_ok named, ?_⟩
  rw [List.forall₂_map_right_iff, List.forall₂_same]
  exact fun unit member => UnitPlan.derive_eq_ok _ (named unit member)

/-- No way out of a build is about the ending of a name. -/
theorem Ending.ne_unsupportedExtension {compiler : Compiler} {config : Config} {world : World}
    {calls : List Invocation} {failure : Failure}
    (ending : Ending compiler config world calls (.error failure)) (name : String) :
    failure ≠ .unsupportedExtension name := by
  cases ending with
  | missing | unprepared | refused => exact Failure.noConfusion

end Build

namespace Program

open Report CommandLine Build

/-- Whether a complaint is about the ending of a name, in whatever contexts. -/
def IsAboutEnding (complaint : Complaint) : Prop :=
  ∃ name, complaint.failure? = some (.unsupportedExtension name)

theorem not_isAboutEnding_of_failure {complaint : Complaint} {failure : Failure}
    (found : complaint.failure? = some failure)
    (other : ∀ name, failure ≠ .unsupportedExtension name) : ¬ IsAboutEnding complaint := by
  rintro ⟨name, same⟩
  exact other name (Option.some.inj (found.symm.trans same))

/-- The build command fails for the failure of one of its builds. -/
theorem not_isAboutEnding_of_build {host : Host} {context : Context} {world : World}
    {complaint : Complaint} (failed : (build host context world).result = .error complaint) :
    ¬ IsAboutEnding complaint := by
  rcases allCompleted_or_fails host.compiler (reporterOf host context).wantsDetail
    (.ofEnvironment host.environment) context.projects world
    with all | ⟨before, failing, rest, failure, split, done, refused⟩
  · obtain ⟨elapsedMs, same⟩ := build_of_completed all
    rw [same] at failed
    cases failed
  · rw [build_of_failed split done refused] at failed
    obtain rfl := Except.error.inj failed
    exact not_isAboutEnding_of_failure rfl (execute_failed refused).ne_unsupportedExtension

/-- An output that succeeds, or complains that an event has no line. -/
def Output.IsListing (output : Output) : Prop :=
  output.result = .ok () ∨ output.result = .error unwritable

theorem Output.isListing_emit (event : Report.Event) : (Output.emit event).IsListing := by
  cases writable : event.isWritable with
  | true => exact .inl (by rw [emit_of_writable writable])
  | false => exact .inr (by rw [emit_of_unwritable writable])

theorem Output.isListing_forEach {α : Type} {output : α → Output} {items : List α}
    (each : ∀ a, (output a).IsListing) : (forEach output items).IsListing := by
  induction items with
  | nil => exact .inl rfl
  | cons a rest ih =>
      rw [forEach, append]
      rcases each a with done | complained
      · rw [done]
        exact ih
      · rw [complained]
        exact .inr rfl

/-- The commands that only look succeed, or come to an event that has no line. -/
theorem isListing_perform (host : Host) (context : Context) (world : World) {command : Command}
    (looks : command ≠ .build) :
    (perform host context world command).result = .ok () ∨
      (perform host context world command).result = .error unwritable := by
  cases json : context.json with
  | false => exact .inl (result_perform_people host world looks json)
  | true =>
      cases command with
      | build => exact absurd rfl looks
      | needsBuild =>
          refine Output.isListing_forEach fun project => ?_
          simp only [reportNeed, json, if_true]
          exact Output.isListing_emit _
      | clean =>
          refine Output.isListing_forEach fun project => ?_
          simp only [reportClean, Task.clean, json, if_true]
          exact Output.isListing_emit _
      | results =>
          refine Output.isListing_forEach fun project => ?_
          simp only [listResults, declaredResults_eq_ok, json, if_true]
          exact Output.isListing_forEach fun path => Output.isListing_emit _
      | sources =>
          refine Output.isListing_forEach fun project => ?_
          simp only [listSources, planUnits_eq_ok, json, if_true]
          exact Output.isListing_forEach fun plan => Output.isListing_emit _

/-- A request that lacks nothing comes to its command. -/
theorem exists_prepared {host : Host} {tree : FileTree} {request : Request}
    (whole : ¬ LacksPrecondition host tree request) :
    ∃ context, (prepare host tree request).result = .ok context := by
  cases load : Manifest.load tree request.manifest with
  | error failure => exact absurd (.inl ⟨failure, load⟩) whole
  | ok loaded =>
      have nonempty : loaded.manifest.projects ≠ [] := fun bare =>
        whole (.inr ⟨loaded, load, .inl bare⟩)
      have declared : ∀ name ∈ request.projects, loaded.manifest.Declares name := by
        intro name member
        by_contra undeclared
        exact whole (.inr ⟨loaded, load, .inr (.inl ⟨name, member, undeclared⟩)⟩)
      obtain ⟨projects, resolved, -⟩ :=
        Manifest.resolve_of_declared request.manifest nonempty declared
      rw [prepare_of_loaded load, resolved]
      exact ⟨_, rfl⟩

/-- No request is refused for the ending of a name. -/
theorem not_isAboutEnding_of_carryOut {host : Host} {world : World} {request : Request}
    {complaint : Complaint} (failed : (carryOut host world request).result = .error complaint) :
    ¬ IsAboutEnding complaint := by
  by_cases lacks : LacksPrecondition host world.tree request
  · obtain ⟨code, first, unmet⟩ := exists_firstUnmet lacks
    obtain ⟨actions, carried, -⟩ := carryOut_of_firstUnmet unmet
    rw [carried] at failed
    obtain rfl := Except.error.inj failed
    cases unmet <;> exact not_isAboutEnding_of_failure rfl fun name => Failure.noConfusion
  · obtain ⟨context, prepared⟩ := exists_prepared lacks
    rw [(carryOut_of_prepared prepared).result] at failed
    by_cases builds : request.command = .build
    · rw [builds] at failed
      exact not_isAboutEnding_of_build failed
    · rcases isListing_perform host context world builds with done | unwritten
      · cases done.symm.trans failed
      · obtain rfl := Except.error.inj (unwritten.symm.trans failed)
        rintro ⟨name, other⟩
        cases other

/-- The test that selects sources and the derivation of a base agree on all byte strings: a name has
a base exactly if it is that base, followed by `.c`. So planning succeeds for every root of every
tree, with one plan for each unit, the results of a project can always be told, no build fails for
the ending of a name, and neither does any command. -/
theorem sources_have_artifacts :
    (∀ name, isSourceName name = true ↔ ∃ base, baseName name = .ok base) ∧
    (∀ name base, baseName name = .ok base ↔ name = base ++ Utf8.encode ".c") ∧
    (∀ tree sourceRoot outputRoot, ∃ plans,
      planUnits tree sourceRoot outputRoot = .ok plans ∧
      List.Forall₂ (fun unit plan => UnitPlan.derive outputRoot unit = .ok plan)
        (tree.sources sourceRoot) plans) ∧
    (∀ tree project, ∃ results, declaredResults tree project = .ok results) ∧
    (∀ compiler detailed label config world name,
      (execute compiler detailed label config world).result ≠
        .error (.unsupportedExtension name)) ∧
    ∀ host world request complaint, (carryOut host world request).result = .error complaint →
      ∀ name, complaint.failure? ≠ some (.unsupportedExtension name) := by
  refine ⟨fun name => isSourceName_iff_baseName, fun name base => baseName_eq_ok_iff,
    exists_planUnits, fun tree project => ⟨_, declaredResults_eq_ok tree project⟩, ?_, ?_⟩
  · intro compiler detailed label config world name failed
    exact (execute_failed failed).ne_unsupportedExtension name rfl
  · intro host world request complaint failed name about
    exact not_isAboutEnding_of_carryOut failed ⟨name, about⟩

end Program
end WasmBuild
