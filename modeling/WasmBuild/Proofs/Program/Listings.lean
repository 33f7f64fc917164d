import WasmBuild.Proofs.Build.Rebuild
import WasmBuild.Proofs.Program.Actions
import WasmBuild.Proofs.Program.Stream

/-!
# The listings of a project

Both listings show the plan of a project: for people a line for every result or unit, for programs
an event for each up to the first whose paths are no texts, which ends the listing with a complaint.
The plan is the one that a build has compiled, as long as the units are still those that it found.
-/
namespace WasmBuild

namespace Program

open Report

/-- The complaint about an event that has no line. -/
def unwritable : Complaint := .other FileError.illFormedPath.message

namespace Output

variable {α : Type}

theorem emit_of_writable {event : Event} (writable : event.isWritable = true) :
    emit event = ⟨[.emit event], .ok ()⟩ := by
  obtain ⟨record, -, line⟩ := Event.line_of_paths (event.isWritable_iff.1 writable)
  simp only [emit, line, one]

theorem emit_of_unwritable {event : Event} (silent : event.isWritable = false) :
    emit event = ⟨[], .error unwritable⟩ := by
  simp only [emit, Event.line_of_unwritable silent, unwritable]

/-- Outputs that all succeed stand one after the other. -/
theorem forEach_of_ok {output : α → Output} {items : List α}
    (written : ∀ a ∈ items, (output a).result = .ok ()) :
    forEach output items = ⟨items.flatMap fun a => (output a).actions, .ok ()⟩ := by
  induction items with
  | nil => rfl
  | cons a rest ih =>
      have first := written a List.mem_cons_self
      have others := ih fun b member => written b (List.mem_cons_of_mem _ member)
      simp only [forEach, append, first, others, List.flatMap_cons]

theorem forEach_result_eq_ok_iff {output : α → Output} {items : List α} :
    (forEach output items).result = .ok () ↔ ∀ a ∈ items, (output a).result = .ok () := by
  induction items with
  | nil => simp [forEach, done]
  | cons a rest ih =>
      rw [List.forall_mem_cons, ← ih]
      cases first : (output a).result <;> simp [forEach, append, first]

theorem forEach_one (action : α → Action) (items : List α) :
    forEach (fun a => one (action a)) items = ⟨items.map action, .ok ()⟩ := by
  rw [forEach_of_ok fun _ _ => rfl, List.map_eq_flatMap]
  rfl

/-- Events are reported up to the first that has no line. -/
theorem forEach_emit (event : α → Event) (items : List α) :
    forEach (fun a => emit (event a)) items =
      ⟨(items.takeWhile fun a => (event a).isWritable).map fun a => .emit (event a),
        if items.all fun a => (event a).isWritable then .ok () else .error unwritable⟩ := by
  induction items with
  | nil => rfl
  | cons a rest ih =>
      rw [forEach, ih]
      cases writable : (event a).isWritable with
      | true => simp [emit_of_writable writable, append, writable]
      | false => simp [emit_of_unwritable writable, append, writable]

end Output

open Build

/-- What the listings of a project show, among some files, for some plans. The count above the rows
is that of the plans. An event that has no line ends its listing. -/
structure Lists (tree : FileTree) (project : Project) (plans : List UnitPlan) : Prop where
  planned : planUnits tree project.sourceDir project.outputDir = .ok plans
  declared : declaredResults tree project = .ok (wasmOf plans)
  resultLines (context : Context) (people : context.json = false) :
    listResults context tree project =
      ⟨(wasmOf plans).map fun wasm => outLine wasm.display, .ok ()⟩
  sourceRows (context : Context) (people : context.json = false) :
    listSources context tree project =
      ⟨outLine (project.name ++ " (" ++ counted (wasmOf plans).length "source" ++ ")") ::
        plans.map fun plan => outLine ("  " ++ plan.source.path.display ++ " -> " ++
          plan.artifacts.js.display ++ ", " ++ plan.artifacts.wasm.display), .ok ()⟩
  resultEvents (context : Context) (programs : context.json = true) :
    listResults context tree project =
      ⟨((wasmOf plans).takeWhile fun wasm => wasm.text?.isSome).map fun wasm =>
          .emit (.result project.name wasm),
        if (wasmOf plans).all fun wasm => wasm.text?.isSome then .ok () else .error unwritable⟩
  sourceEvents (context : Context) (programs : context.json = true) :
    listSources context tree project =
      ⟨(plans.takeWhile fun plan => (sourceEvent project plan).isWritable).map fun plan =>
          .emit (.source project.name plan.source.path plan.artifacts.js plan.artifacts.wasm),
        if plans.all fun plan => (sourceEvent project plan).isWritable then .ok ()
        else .error unwritable⟩

/-- The listings of a project show its plan. -/
theorem lists_plansOf (tree : FileTree) (project : Project) :
    Lists tree project (plansOf tree project) where
  planned := planUnits_eq_ok tree project
  declared := declaredResults_eq_ok tree project
  resultLines context people := by
    simp only [listResults, declaredResults_eq_ok, people, Bool.false_eq_true, if_false]
    exact Output.forEach_one ..
  sourceRows context people := by
    simp only [listSources, planUnits_eq_ok, people, Bool.false_eq_true, if_false,
      length_wasmOf]
    rfl
  resultEvents context programs := by
    have writable (wasm : Path) :
        (Event.result project.name wasm).isWritable = wasm.text?.isSome := by
      simp [Event.isWritable, Event.paths]
    simp only [listResults, declaredResults_eq_ok, programs, if_true, Output.forEach_emit,
      writable]
  sourceEvents context programs := by
    simp only [listSources, planUnits_eq_ok, programs, if_true, Output.forEach_emit]
    rfl

end Program
end WasmBuild
