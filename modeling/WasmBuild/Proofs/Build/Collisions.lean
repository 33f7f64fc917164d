import Mathlib.Data.Finset.Card
import WasmBuild.Proofs.Build.Artifacts
import WasmBuild.Proofs.Build.Plans

/-!
# Artifacts that meet

The output directory is flat: an artifact is known by the name of its source alone. So two artifacts
have one path exactly if they are of one kind and their sources have one name. In the plan of a tree
these are the units of one name in different directories, and there are as many different results as
there are different names.
-/
namespace WasmBuild

namespace Artifacts

variable {outputDir : Path} {name name' : Bytes} {artifacts artifacts' : Artifacts}

/-- Two targets are one path exactly if the names are equal, and so are two results; a target is
never a result. -/
theorem meet_iff (single : separator ∉ name) (single' : separator ∉ name')
    (derived : derive outputDir name = .ok artifacts)
    (derived' : derive outputDir name' = .ok artifacts') :
    (artifacts.js.components = artifacts'.js.components ↔ name = name') ∧
      (artifacts.wasm.components = artifacts'.wasm.components ↔ name = name') ∧
      artifacts.js.components ≠ artifacts'.wasm.components := by
  obtain ⟨base, based, js, wasm⟩ := components_of_derive single derived
  obtain ⟨base', based', js', wasm'⟩ := components_of_derive single' derived'
  have names : name = name' ↔ base = base' := by
    rw [baseName_eq_ok_iff.1 based, baseName_eq_ok_iff.1 based', List.append_left_inj]
  refine ⟨?_, ?_, ?_⟩
  · rw [js, js', names]
    simp
  · rw [wasm, wasm', names]
    simp
  · rw [js, wasm']
    intro same
    have bytes : base ++ dot :: Utf8.encode "js" = base' ++ dot :: Utf8.encode "wasm" := by
      simpa using same
    have lasts := congrArg List.getLast? bytes
    rw [List.getLast?_append_of_ne_nil _ (by simp), List.getLast?_append_of_ne_nil _ (by simp)]
      at lasts
    revert lasts
    decide

end Artifacts

namespace Build

/-- Whether two plans declare an artifact of the same path. -/
def UnitPlan.Meets (p q : UnitPlan) : Prop :=
  ∃ path ∈ p.outputs, ∃ path' ∈ q.outputs, path.components = path'.components

variable {outputRoot : Path} {unit unit' : SourceUnit}

/-- The plans of two units meet exactly if their files have the same name. -/
theorem meets_planOf_iff (source : isSourceName unit.fileName = true)
    (source' : isSourceName unit'.fileName = true) (single : separator ∉ unit.fileName)
    (single' : separator ∉ unit'.fileName) :
    (planOf outputRoot unit).Meets (planOf outputRoot unit') ↔ unit.fileName = unit'.fileName := by
  have derived := derive_planOf outputRoot source
  have derived' := derive_planOf outputRoot source'
  obtain ⟨targets, results, apart⟩ := Artifacts.meet_iff single single' derived derived'
  obtain ⟨-, -, apart'⟩ := Artifacts.meet_iff single' single derived' derived
  constructor
  · rintro ⟨path, mine, path', other, same⟩
    rcases List.mem_pair.1 mine with rfl | rfl
    · rcases List.mem_pair.1 other with rfl | rfl
      · exact targets.1 same
      · exact absurd same apart
    · rcases List.mem_pair.1 other with rfl | rfl
      · exact absurd same.symm apart'
      · exact results.1 same
  · intro same
    exact ⟨_, List.mem_cons_self, _, List.mem_cons_self, targets.2 same⟩

/-- Two files of one name have different paths exactly if they lie in different directories. -/
theorem path_ne_iff_dir_ne (source : isSourceName unit.fileName = true)
    (single : separator ∉ unit.fileName) (same : unit.fileName = unit'.fileName) :
    unit.path.components ≠ unit'.path.components ↔ unit.dir.components ≠ unit'.dir.components := by
  have named := ofSegment?_of_isSourceName source
  rw [SourceUnit.path, SourceUnit.path, ← same, Path.components_child _ single named,
    Path.components_child _ single named, ne_eq, List.append_left_inj]

/-- A list has as many different images under one function as under another, if the two tell the
same items apart. -/
theorem card_images_eq {α β γ : Type} [DecidableEq β] [DecidableEq γ] {items : List α} {f : α → β}
    {g : α → γ} (same : ∀ a ∈ items, ∀ b ∈ items, f a = f b ↔ g a = g b) :
    (items.map f).toFinset.card = (items.map g).toFinset.card := by
  induction items with
  | nil => rfl
  | cons a rest ih =>
      have others := ih fun b inside c inside' =>
        same b (List.mem_cons_of_mem _ inside) c (List.mem_cons_of_mem _ inside')
      have known : f a ∈ rest.map f ↔ g a ∈ rest.map g := by
        rw [List.mem_map, List.mem_map]
        refine exists_congr fun b => and_congr_right fun inside => ?_
        exact same b (List.mem_cons_of_mem _ inside) a List.mem_cons_self
      simp only [List.map_cons, List.toFinset_cons, Finset.card_insert_eq_ite, List.mem_toFinset,
        known, others]

/-- The artifacts of two names have the same target exactly if they have the same result, which is
if the names are equal; a target is never a result, and both lie directly in the output directory.
In the plan of any tree two units therefore declare an artifact of one path exactly if their files
have the same name in different directories, and the different results are as many as the different
names. -/
theorem artifacts_meet_exactly (outputRoot : Path) :
    (∀ name name' base base', separator ∉ name → separator ∉ name' →
      baseName name = .ok base → baseName name' = .ok base' →
      ∃ artifacts artifacts', Artifacts.derive outputRoot name = .ok artifacts ∧
        Artifacts.derive outputRoot name' = .ok artifacts' ∧
        (artifacts.js.components = artifacts'.js.components ↔ name = name') ∧
        (artifacts.wasm.components = artifacts'.wasm.components ↔ name = name') ∧
        artifacts.js.components ≠ artifacts'.wasm.components ∧
        ∀ path ∈ [artifacts.js, artifacts.wasm],
          ∃ dir, path.parent? = some dir ∧ dir.components = outputRoot.components) ∧
    ∀ tree sourceRoot, ∃ plans, planUnits tree sourceRoot outputRoot = .ok plans ∧
      plans.map UnitPlan.source = tree.sources sourceRoot ∧
      plans.Pairwise (fun p q => p.Meets q ↔
        p.source.fileName = q.source.fileName ∧
          p.source.dir.components ≠ q.source.dir.components) ∧
      ((wasmOf plans).map Path.components).toFinset.card =
        (plans.map fun plan => plan.source.fileName).toFinset.card := by
  refine ⟨fun name name' base base' single single' based based' => ?_, fun tree sourceRoot => ?_⟩
  · have derived := Artifacts.derive_of_baseName outputRoot based
    have derived' := Artifacts.derive_of_baseName outputRoot based'
    obtain ⟨targets, results, apart⟩ := Artifacts.meet_iff single single' derived derived'
    exact ⟨_, _, derived, derived', targets, results, apart,
      Artifacts.exists_parent_of_derive single derived⟩
  · have source : ∀ unit ∈ tree.sources sourceRoot, isSourceName unit.fileName = true :=
      fun _ => FileTree.isSourceName_of_mem_sources
    have single : ∀ unit ∈ tree.sources sourceRoot, separator ∉ unit.fileName :=
      fun _ => FileTree.not_mem_separator_of_mem_sources
    refine ⟨_, planAll_eq_ok source, ?_, ?_, ?_⟩
    · simp [planOf, Function.comp_def]
    · rw [List.pairwise_map]
      refine (tree.sources_pairwise sourceRoot).imp_of_mem fun {u v} mine other apart => ?_
      rw [meets_planOf_iff (source u mine) (source v other) (single u mine) (single v other)]
      refine ⟨fun same => ⟨same, ?_⟩, And.left⟩
      exact (path_ne_iff_dir_ne (source u mine) (single u mine) same).1 apart
    · rw [wasmOf, List.map_map, List.map_map, List.map_map]
      refine card_images_eq fun u mine v other => ?_
      have derived := derive_planOf outputRoot (source u mine)
      have derived' := derive_planOf outputRoot (source v other)
      exact (Artifacts.meet_iff (single u mine) (single v other) derived derived').2.1

/-- A tree with two sources of one name, and one whose base looks like a target. -/
def twinTree : FileTree :=
  let place (tree : FileTree) (dir name : String) : FileTree :=
    match Name.ofBytes? (Utf8.encode dir), Name.ofBytes? (Utf8.encode name) with
    | some dir, some name => (tree.insert [] dir .directory).insert [dir] name (.file [] false none)
    | _, _ => tree
  place (place (place .empty "a" "x.c") "b" "x.c") "b" "x.js.c"

theorem artifacts_meet_exactly_twins :
    ∃ plans, planUnits twinTree (.ofString ".") (.ofString "out") = .ok plans ∧
      (plans.map fun plan => plan.source.path) =
        [.ofString "./a/x.c", .ofString "./b/x.c", .ofString "./b/x.js.c"] ∧
      plans.Pairwise (fun p q => p.Meets q ↔ p.source.fileName = q.source.fileName ∧
        p.source.dir.components ≠ q.source.dir.components) ∧
      ((wasmOf plans).map Path.components).toFinset.card = 2 := by
  obtain ⟨-, planned⟩ := artifacts_meet_exactly (.ofString "out")
  obtain ⟨plans, found, sources, meets, count⟩ := planned twinTree (.ofString ".")
  have units : twinTree.sources (.ofString ".") =
      [⟨.ofString "./a", Utf8.encode "x.c"⟩, ⟨.ofString "./b", Utf8.encode "x.c"⟩,
        ⟨.ofString "./b", Utf8.encode "x.js.c"⟩] := by decide +kernel
  have listed : plans.map UnitPlan.source = _ := sources.trans units
  have paths : (plans.map fun plan => plan.source.path) =
      (plans.map UnitPlan.source).map SourceUnit.path := by simp
  have names : (plans.map fun plan => plan.source.fileName) =
      (plans.map UnitPlan.source).map SourceUnit.fileName := by simp
  refine ⟨plans, found, ?_, meets, ?_⟩
  · rw [paths, listed]
    decide
  · rw [count, names, listed]
    decide

end Build
end WasmBuild
