import WasmBuild.Proofs.Build.Trace
import WasmBuild.Proofs.FileTree.Ancestors

/-!
# The output directory of a build

A build makes sure of its output directory before it looks for units. Where this is refused, it
calls no compiler and fails with the error of the file system, and the directories that were made on
the way to the refused one are all that is left of it.
-/
namespace WasmBuild.Build

open FileTree

/-- Making sure of a directory succeeds exactly where the path leads to a directory afterwards, so a
second look after a refusal would find none. In either case whatever stood before stands as it did,
and all that is new are directories at the places of the path and of the paths above it. Once it has
succeeded, doing it again succeeds and changes nothing. Where it is refused, a build with this
output directory calls no compiler, reports and returns the very error, and leaves what was made. -/
theorem ensureDirectory_or_aborts (tree : FileTree) (path : Path) (named : path.bytes ≠ []) :
    let creation := tree.ensureDirectory path
    (creation.result = .ok () ↔ creation.tree.isDirectory path = true) ∧
    AddsDirectories path.ancestors tree creation.tree ∧
    (creation.result = .ok () → creation.tree.ensureDirectory path = ⟨.ok (), creation.tree⟩) ∧
    ∀ error, creation.result = .error error →
      ∀ (compiler : Compiler) (detailed : Bool) (label : String) (sourceRoot emccDir : Path)
        (calls clockMs : Nat),
      let config : Config := ⟨sourceRoot, path, ⟨some emccDir⟩⟩
      let run := execute compiler detailed label config ⟨tree, calls, clockMs⟩
      Reports run label config [] [] (.error (.io error)) ∧
        run.world = ⟨creation.tree, calls, clockMs⟩ := by
  intro creation
  refine ⟨ensureDirectory_eq_ok_iff named, ensureDirectory_adds tree path,
    fun made => ensureDirectory_again made (.refl _), fun error refused => ?_⟩
  intro compiler detailed label sourceRoot emccDir calls clockMs config run
  have toolchain : config.toolchain.emccDir? = some emccDir := rfl
  refine ⟨execute_unprepared toolchain refused, ?_⟩
  have stopped : compileAll compiler detailed config ⟨tree, calls, clockMs⟩ =
      ⟨[], .error (.io error), creation.tree, calls, clockMs⟩ :=
    compileAll_of_directory_refused toolchain refused
  have left : run.world = _ := world_execute
  rw [left, stopped]

/-- A directory that holds a file, and a link to this directory. -/
def linkedTree : FileTree :=
  let real : Name := ⟨Utf8.encode "real", by decide⟩
  let tree := FileTree.empty.insert [] real .directory
  let tree := tree.insert [real] ⟨Utf8.encode "file", by decide⟩ (.file [] false none)
  tree.insert [] ⟨Utf8.encode "alias", by decide⟩ (.link (.ofString "real"))

/-- Behind the link one directory is made before a file is met in the way. Beside the file the way
is clear. -/
theorem ensureDirectory_or_aborts_behind_link :
    let blocked : Path := .ofString "alias/new/../file/t"
    let clear : Path := .ofString "alias/new/../out/t"
    let creation := linkedTree.ensureDirectory blocked
    let made := linkedTree.ensureDirectory clear
    let config : Config := ⟨.ofString "src", blocked, ⟨some (.ofString "/emcc")⟩⟩
    blocked.bytes ≠ [] ∧ clear.bytes ≠ [] ∧
      creation.result = .error .alreadyExists ∧ creation.tree.isDirectory blocked = false ∧
      linkedTree.isDirectory (.ofString "real/new") = false ∧
      creation.tree.isDirectory (.ofString "real/new") = true ∧
      made.tree.ensureDirectory clear = ⟨.ok (), made.tree⟩ ∧
      ∀ compiler : Compiler,
        (execute compiler true "t" config ⟨linkedTree, 0, 0⟩).invocations = [] := by
  intro blocked clear creation made config
  have named : blocked.bytes ≠ [] := by decide
  have namedToo : clear.bytes ≠ [] := by decide
  have refused : creation.result = .error .alreadyExists := by decide +kernel
  have succeeded : made.result = .ok () := by decide +kernel
  obtain ⟨led, -, -, aborts⟩ := ensureDirectory_or_aborts linkedTree blocked named
  obtain ⟨-, -, again, -⟩ := ensureDirectory_or_aborts linkedTree clear namedToo
  have astray : creation.tree.isDirectory blocked = false := by
    rw [← Bool.not_eq_true, ← led]
    intro done
    rw [done] at refused
    cases refused
  refine ⟨named, namedToo, refused, astray, by decide +kernel, by decide +kernel, again succeeded,
    fun compiler => ?_⟩
  exact (aborts _ refused compiler true "t" _ _ 0 0).1.invocations

end WasmBuild.Build
