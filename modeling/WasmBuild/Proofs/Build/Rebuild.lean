import WasmBuild.Proofs.Build.Artifacts
import WasmBuild.Proofs.Build.Plans
import WasmBuild.Proofs.FileTree.Directories
import WasmBuild.Proofs.FileTree.Writing

/-!
# Building again

A compiler that writes the artifacts of its units and nothing else leaves the sources as they are,
wherever the output directory lies: the names of artifacts are not those of sources, and a directory
that is made is no source. So a build looks at the same units from its first call to its last, and
the next build finds them again.
-/
namespace WasmBuild.Build

open FileTree

/-- A compiler that writes the two artifacts of a unit when it is called for it, and nothing else,
at least among files without links. -/
def Compiler.WritesArtifacts (compiler : Compiler) (outputRoot : Path) : Prop :=
  ∀ calls emccDir tree, ∀ unit : SourceUnit, isSourceName unit.fileName = true →
    separator ∉ unit.fileName → tree.LinkFree →
      WritesOnly (planOf outputRoot unit).outputs tree
        (compiler calls (callOf emccDir outputRoot unit) tree).tree

theorem endsInOther_of_mem_outputs {outputRoot : Path} {unit : SourceUnit}
    (single : separator ∉ unit.fileName) {path : Path}
    (member : path ∈ (planOf outputRoot unit).outputs) : EndsInOther path := by
  obtain ⟨name, rfl, alone, named, other⟩ := exists_name_of_mem_outputs single member
  obtain ⟨init, split⟩ := outputRoot.exists_segments_child alone
  exact ⟨init, name, split, named, other⟩

variable {compiler : Compiler} {emccDir outputRoot : Path} {world : World}

/-- The sources are the same after any calls for units. -/
theorem sameSources_worldAfterAll (writes : compiler.WritesArtifacts outputRoot)
    {units : List SourceUnit} (named : ∀ unit ∈ units, isSourceName unit.fileName = true)
    (single : ∀ unit ∈ units, separator ∉ unit.fileName) (free : world.tree.LinkFree) :
    SameSources world.tree
      (compiler.worldAfterAll world (units.map (callOf emccDir outputRoot))).tree := by
  induction units generalizing world with
  | nil => exact .refl _
  | cons unit rest ih =>
      have wrote := writes world.calls emccDir world.tree unit (named unit List.mem_cons_self)
        (single unit List.mem_cons_self) free
      have step : SameSources world.tree
          (compiler.worldAfter world (callOf emccDir outputRoot unit)).tree :=
        wrote.sameSources free fun path member =>
          endsInOther_of_mem_outputs (single unit List.mem_cons_self) member
      exact step.trans (ih (fun u member => named u (List.mem_cons_of_mem _ member))
        (fun u member => single u (List.mem_cons_of_mem _ member)) (step.ways.linkFree free))

/-- The place of an artifact is never that of a unit: the last name on the way to it is another. -/
theorem place?_ne_of_mem_outputs {tree : FileTree} (free : tree.LinkFree) {unit next : SourceUnit}
    (single : separator ∉ unit.fileName) (single' : separator ∉ next.fileName)
    (source : isSourceName next.fileName = true) {path : Path}
    (member : path ∈ (planOf outputRoot unit).outputs) {location : Location}
    (place : tree.place? path = some location) : tree.place? next.path ≠ some location := by
  intro taken
  obtain ⟨init, name, split, named, other⟩ := endsInOther_of_mem_outputs single member
  obtain ⟨init', split'⟩ := next.dir.exists_segments_child single'
  obtain ⟨dir, n, rfl, rfl⟩ := free.exists_name_of_place? split named place
  obtain ⟨dir', n', same, bytes⟩ :=
    free.exists_name_of_place? split' (ofSegment?_of_isSourceName source) taken
  obtain ⟨-, last⟩ := List.append_inj' same rfl
  obtain rfl := List.singleton_inj.1 last
  rw [bytes, source] at other
  cases other

theorem components_ne_of_mem_outputs {unit next : SourceUnit} (single : separator ∉ unit.fileName)
    (single' : separator ∉ next.fileName) (source : isSourceName next.fileName = true)
    {path : Path} (member : path ∈ (planOf outputRoot unit).outputs) :
    next.path.components ≠ path.components := by
  obtain ⟨name, rfl, alone, named, other⟩ := exists_name_of_mem_outputs single member
  intro same
  rw [SourceUnit.path, Path.components_child _ single' (ofSegment?_of_isSourceName source),
    Path.components_child _ alone named] at same
  obtain ⟨-, last⟩ := List.append_inj' same rfl
  obtain rfl := Component.named.inj (List.singleton_inj.1 last)
  rw [source] at other
  cases other

variable (detailed : Bool) (label : String) (config : Config)

/-- From the time its output directory is there, the sources are the same after any of the calls of
a build, whatever becomes of it. -/
theorem sameSources_execute (writes : compiler.WritesArtifacts config.outputRoot)
    (free : world.tree.LinkFree) {earlier : List Invocation}
    (first : earlier <+: (execute compiler detailed label config world).invocations) :
    SameSources (world.prepared config).tree
      (compiler.worldAfterAll (world.prepared config) earlier).tree := by
  obtain ⟨emccDir, taken, front, calls⟩ :=
    (execute_ending compiler detailed label config world).exists_taken
  rw [calls, List.prefix_iff_eq_take, ← List.map_take] at first
  have found : ∀ unit ∈ taken.take earlier.length, unit ∈ foundUnits config world :=
    fun unit member => front.subset (List.mem_of_mem_take member)
  rw [first]
  exact sameSources_worldAfterAll writes
    (fun unit member => isSourceName_of_mem_foundUnits (found unit member))
    (fun unit member => not_mem_separator_of_mem_sources (found unit member))
    (free.ensureDirectory config.outputRoot)

theorem linkFree_execute (writes : compiler.WritesArtifacts config.outputRoot)
    (free : world.tree.LinkFree) :
    (execute compiler detailed label config world).world.tree.LinkFree := by
  rcases world_execute_cases compiler detailed label config world with ⟨-, kept⟩ | left
  · rwa [kept]
  · rw [left]
    exact (sameSources_execute detailed label config writes free List.prefix_rfl).ways.linkFree
      (free.ensureDirectory config.outputRoot)

/-- After a completed build the output directory is there, so the next build looks for its units
among the files that are left, and these have the same sources. -/
theorem prepared_of_completed (writes : compiler.WritesArtifacts config.outputRoot)
    (free : world.tree.LinkFree) {outcome : Outcome}
    (completed : (execute compiler detailed label config world).result = .ok outcome) :
    let left := (execute compiler detailed label config world).world
    left.prepared config = left ∧ SameSources (world.prepared config).tree left.tree := by
  intro left
  obtain ⟨emccDir, toolchain, made, -⟩ := execute_completed_iff.1 ⟨outcome, completed⟩
  have same : SameSources (world.prepared config).tree left.tree := by
    rcases world_execute_cases compiler detailed label config world with ⟨missing, -⟩ | reached
    · rw [toolchain] at missing
      cases missing
    · rw [show left = _ from reached]
      exact sameSources_execute detailed label config writes free List.prefix_rfl
  refine ⟨?_, same⟩
  rw [World.prepared, ensureDirectory_again made same.ways]

/-- Two completed builds in a row make the same calls and return the same, in some order. -/
theorem execute_again (writes : compiler.WritesArtifacts config.outputRoot)
    (free : world.tree.LinkFree) {outcome again : Outcome} (detailedAgain : Bool)
    (completed : (execute compiler detailed label config world).result = .ok outcome) :
    let left := (execute compiler detailed label config world).world
    (execute compiler detailedAgain label config left).result = .ok again →
      (execute compiler detailedAgain label config left).invocations.Perm
          (execute compiler detailed label config world).invocations ∧
        again.compiled.Perm outcome.compiled ∧ again.results.Perm outcome.results := by
  intro left recompleted
  obtain ⟨emccDir, toolchain, calls, compiled⟩ := execute_completed completed
  obtain ⟨emccDir', toolchain', calls', compiled'⟩ := execute_completed recompleted
  obtain rfl := Option.some.inj (toolchain.symm.trans toolchain')
  obtain ⟨prepared, same⟩ := prepared_of_completed detailed label config writes free completed
  have units : (foundUnits config left).Perm (foundUnits config world) := by
    rw [foundUnits, prepared]
    exact same.sources_perm (free.ensureDirectory config.outputRoot) config.sourceRoot
  have plans : again.compiled.Perm outcome.compiled := by
    rw [compiled, compiled']
    exact units.map _
  refine ⟨?_, plans, plans.map _⟩
  rw [calls, calls']
  exact units.map _

/-- Building a project twice, among files without links, with a compiler that writes artifacts only:
when both builds are completed, they make the same calls and return the same units and results, in
some order. No artifact of the first is ever taken for a source of the second. Wherever the output
directory lies, a build may look for its units before any of its calls and finds the same ones. -/
theorem rebuild_stable (compiler : Compiler) (project : Project) (toolchain : Toolchain)
    (world : World) (detailed detailedAgain : Bool) (free : world.tree.LinkFree)
    (writes : compiler.WritesArtifacts project.outputDir) :
    let config := Config.ofProject project toolchain
    let first := buildProject compiler detailed project toolchain world
    let second := buildProject compiler detailedAgain project toolchain first.world
    (∀ outcome again, first.result = .ok outcome → second.result = .ok again →
      second.invocations.Perm first.invocations ∧ again.compiled.Perm outcome.compiled ∧
        again.results.Perm outcome.results) ∧
    (∀ unit ∈ foundUnits config world, ∀ path ∈ (planOf config.outputRoot unit).outputs,
      ∀ next ∈ foundUnits config first.world, next.path.components ≠ path.components ∧
        ∀ location, (first.world.prepared config).tree.place? path = some location →
          (first.world.prepared config).tree.place? next.path ≠ some location) ∧
    ∀ earlier, earlier <+: first.invocations →
      ((compiler.worldAfterAll (world.prepared config) earlier).tree.sources
        config.sourceRoot).Perm (foundUnits config world) := by
  intro config first second
  have left : first.world.tree.LinkFree :=
    linkFree_execute detailed project.name config writes free
  have stable (earlier : List Invocation) (front : earlier <+: first.invocations) :=
    sameSources_execute detailed project.name config writes free front
  have single {start : World} {unit : SourceUnit} (found : unit ∈ foundUnits config start) :
      separator ∉ unit.fileName := not_mem_separator_of_mem_sources found
  refine ⟨fun outcome again completed recompleted => ?_,
    fun unit member path output next found => ⟨?_, fun location place => ?_⟩,
    fun earlier front => ?_⟩
  · exact execute_again detailed project.name config writes free detailedAgain completed recompleted
  · exact components_ne_of_mem_outputs (single member) (single found)
      (isSourceName_of_mem_foundUnits found) output
  · exact place?_ne_of_mem_outputs (left.ensureDirectory config.outputRoot) (single member)
      (single found) (isSourceName_of_mem_foundUnits found) output place
  · exact (stable earlier front).sources_perm (free.ensureDirectory config.outputRoot)
      config.sourceRoot

/-- The files after an empty one is written, where that can be done. -/
def withFile (tree : FileTree) (path : Path) : FileTree :=
  match tree.putFile path [] with
  | .ok made => made
  | .error _ => tree

/-- A compiler that writes the file it is asked for, and the declared result beside it. -/
def writingCompiler : Compiler := fun _ call tree =>
  let js : Path := ⟨call.args.getLastD []⟩
  let wasm : Path := ⟨js.bytes.take (js.bytes.length - 3) ++ Utf8.encode ".wasm"⟩
  ⟨.ok (), withFile (withFile tree js) wasm, [], 1⟩

theorem writesOnly_withFile {paths : List Path} {path : Path} (member : path ∈ paths)
    (tree : FileTree) : WritesOnly paths tree (withFile tree path) := by
  unfold withFile
  split
  · next made written => exact .putFile member written
  · exact .refl paths tree

theorem writesArtifacts_writingCompiler (outputRoot : Path) :
    writingCompiler.WritesArtifacts outputRoot := by
  intro calls emccDir tree unit source single free
  obtain ⟨front, spelled⟩ := outputRoot.exists_bytes_child
  have named (ending : Bytes) (ends : separator ∉ ending) :
      (outputRoot.child (unit.fileName.take (unit.fileName.length - 2) ++ ending)).bytes =
        front ++ unit.fileName.take (unit.fileName.length - 2) ++ ending := by
    rw [List.append_assoc]
    refine spelled _ fun inside => ?_
    rcases List.mem_append.1 inside with inside | inside
    · exact single (List.mem_of_mem_take inside)
    · exact ends inside
  have js := named (Utf8.encode ".js") (by decide)
  have wasm := named (Utf8.encode ".wasm") (by decide)
  -- The declared result has the bytes of the other artifact up to the ending.
  have beside : (⟨(planOf outputRoot unit).artifacts.js.bytes.take
      ((planOf outputRoot unit).artifacts.js.bytes.length - 3) ++ Utf8.encode ".wasm"⟩ : Path) =
        (planOf outputRoot unit).artifacts.wasm := by
    have three : (Utf8.encode ".js").length = 3 := by decide
    rw [show (planOf outputRoot unit).artifacts.js.bytes = _ from js, List.length_append, three,
      Nat.add_sub_cancel, List.take_left, ← wasm]
    rfl
  have first : WritesOnly (planOf outputRoot unit).outputs tree
      (withFile tree (planOf outputRoot unit).artifacts.js) :=
    writesOnly_withFile (by simp [UnitPlan.outputs]) tree
  have second : WritesOnly (planOf outputRoot unit).outputs
      (withFile tree (planOf outputRoot unit).artifacts.js)
      (withFile (withFile tree (planOf outputRoot unit).artifacts.js)
        (planOf outputRoot unit).artifacts.wasm) :=
    writesOnly_withFile (by simp [UnitPlan.outputs]) _
  rw [← beside] at second
  exact first.trans second

/-- One source, in the directory to which its project writes. -/
def sourceTree : FileTree :=
  withFile (FileTree.empty.ensureDirectory (.ofString "src/p")).tree (.ofString "src/p/a.c")

theorem linkFree_sourceTree : sourceTree.LinkFree :=
  (writesOnly_withFile (List.mem_singleton_self _) _).keepsWays.linkFree
    (linkFree_empty.ensureDirectory _)

theorem exists_outcome_of_results {result : Except Failure Outcome} {paths : List Path}
    (results : result.map Outcome.results = .ok paths) :
    ∃ outcome, result = .ok outcome ∧ outcome.results = paths := by
  cases result with
  | error failure => cases results
  | ok outcome => exact ⟨outcome, rfl, Except.ok.inj results⟩

/-- A project that writes among its own sources, built twice. -/
theorem rebuild_stable_among_sources :
    let project : Project := ⟨"p", ⟨[]⟩, ⟨[]⟩, .ofString "src"⟩
    let toolchain : Toolchain := ⟨some (.ofString "/emcc")⟩
    let first := buildProject writingCompiler true project toolchain ⟨sourceTree, 0, 0⟩
    let second := buildProject writingCompiler true project toolchain first.world
    sourceTree.LinkFree ∧ writingCompiler.WritesArtifacts project.outputDir ∧
      first.world.tree.isFile (.ofString "src/p/a.js") = true ∧
      ∃ outcome again, first.result = .ok outcome ∧ second.result = .ok again ∧
        outcome.results = [.ofString "src/p/a.wasm"] ∧
        second.invocations.Perm first.invocations ∧ again.compiled.Perm outcome.compiled ∧
        again.results.Perm outcome.results := by
  intro project toolchain first second
  have writes := writesArtifacts_writingCompiler project.outputDir
  obtain ⟨outcome, completed, results⟩ := exists_outcome_of_results
    (by decide +kernel : first.result.map Outcome.results = .ok [.ofString "src/p/a.wasm"])
  obtain ⟨again, recompleted, -⟩ := exists_outcome_of_results
    (by decide +kernel : second.result.map Outcome.results = .ok [.ofString "src/p/a.wasm"])
  obtain ⟨same, -⟩ := rebuild_stable writingCompiler project toolchain ⟨sourceTree, 0, 0⟩ true true
    linkFree_sourceTree writes
  exact ⟨linkFree_sourceTree, writes, by decide +kernel, outcome, again, completed, recompleted,
    results, same outcome again completed recompleted⟩

end WasmBuild.Build
