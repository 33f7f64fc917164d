import WasmBuild.Proofs.Build.Ending
import WasmBuild.Proofs.Path.Text

/-!
# Plans and what is compiled

Every unit of a walk has a plan, so planning never fails. A completed build has compiled the plan of
the files among which its output directory exists, and has reported the declared results of that
plan.
-/
namespace WasmBuild

namespace Build

/-- The plan of a project among some files. -/
def plansOf (tree : FileTree) (project : Project) : List UnitPlan :=
  (tree.sources project.sourceDir).map (planOf project.outputDir)

/-- The paths that compiling a unit writes to. -/
def UnitPlan.outputs (plan : UnitPlan) : List Path := [plan.artifacts.js, plan.artifacts.wasm]

/-- An artifact lies directly in the output directory, under a name that is not that of a source. -/
theorem exists_name_of_mem_outputs {outputRoot : Path} {unit : SourceUnit}
    (single : separator ∉ unit.fileName) {path : Path}
    (member : path ∈ (planOf outputRoot unit).outputs) :
    ∃ name, path = outputRoot.child name ∧ separator ∉ name ∧
      Component.ofSegment? name = some (.named name) ∧ isSourceName name = false := by
  have named (ending : Bytes) (long : 3 ≤ ending.length) (ends : separator ∉ ending)
      (last : ending.getLast? ≠ some 0x63) :
      let name := unit.fileName.take (unit.fileName.length - 2) ++ ending
      separator ∉ name ∧ Component.ofSegment? name = some (.named name) ∧
        isSourceName name = false := by
    intro name
    have length : 3 ≤ name.length := by simp only [name, List.length_append]; omega
    refine ⟨?_, ?_, ?_⟩
    · intro inside
      rcases List.mem_append.1 inside with inside | inside
      · exact single (List.mem_of_mem_take inside)
      · exact ends inside
    · exact ofSegment?_of_length length
    · rw [← Bool.not_eq_true, FileTree.isSourceName_iff]
      rintro ⟨base, same⟩
      have more : ending ≠ [] := by rintro rfl; simp at long
      have lasts := congrArg List.getLast? same
      rw [List.getLast?_append_of_ne_nil _ more,
        List.getLast?_append_of_ne_nil _ (by simp)] at lasts
      exact last lasts
  simp only [UnitPlan.outputs, planOf, List.mem_cons, List.not_mem_nil, or_false] at member
  rcases member with rfl | rfl
  · exact ⟨_, rfl, named _ (by decide) (by decide) (by decide)⟩
  · exact ⟨_, rfl, named _ (by decide) (by decide) (by decide)⟩

theorem components_of_mem_outputs {outputRoot : Path} {unit : SourceUnit}
    (single : separator ∉ unit.fileName) {path : Path}
    (member : path ∈ (planOf outputRoot unit).outputs) :
    ∃ name, path.components = outputRoot.components ++ [.named name] := by
  obtain ⟨name, rfl, alone, named, -⟩ := exists_name_of_mem_outputs single member
  exact ⟨name, Path.components_child outputRoot alone named⟩

/-- The declared results of some plans. -/
def wasmOf (plans : List UnitPlan) : List Path := plans.map fun plan => plan.artifacts.wasm

@[simp] theorem length_wasmOf (plans : List UnitPlan) : (wasmOf plans).length = plans.length :=
  List.length_map ..

theorem planAll_eq_ok {outputRoot : Path} {units : List SourceUnit}
    (named : ∀ unit ∈ units, isSourceName unit.fileName = true) :
    planAll outputRoot units = .ok (units.map (planOf outputRoot)) := by
  induction units with
  | nil => rfl
  | cons unit rest ih =>
      have first := UnitPlan.derive_eq_ok outputRoot (named unit List.mem_cons_self)
      have others := ih fun u member => named u (List.mem_cons_of_mem _ member)
      simp only [planAll, first, others, List.map_cons]

theorem planUnits_eq_ok (tree : FileTree) (project : Project) :
    planUnits tree project.sourceDir project.outputDir = .ok (plansOf tree project) :=
  planAll_eq_ok fun _ member => FileTree.isSourceName_of_mem_sources member

theorem declaredResults_eq_ok (tree : FileTree) (project : Project) :
    declaredResults tree project = .ok (wasmOf (plansOf tree project)) := by
  simp only [declaredResults, planUnits_eq_ok]
  rfl

variable {compiler : Compiler} {detailed : Bool} {project : Project} {toolchain : Toolchain}
  {world : World}

end Build
end WasmBuild
