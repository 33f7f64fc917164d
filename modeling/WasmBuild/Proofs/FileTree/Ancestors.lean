import WasmBuild.Proofs.FileTree.Directories
import WasmBuild.Proofs.Path.Parents

/-!
# What making sure of a directory adds

Whatever stood in a tree still stands there, and all that is new are directories at the places of
the path and of the paths above it, be it that they were all made or that one of them was refused.
Where a directory is refused, the path leads to none, because a path to a directory leads through a
directory at its parent.
-/
namespace WasmBuild.FileTree

variable {tree between later : FileTree} {path up : Path} {paths : List Path} {here : Location}
  {links : Nat} {init : List Bytes} {spot : Spot}

/-- A way over some segments that goes on behind them leads over them to a directory. -/
theorem Leads.exists_directory {rest : List Bytes}
    (leads : tree.Leads true links here (init ++ rest) spot) (more : rest ≠ []) :
    ∃ location, tree.entryAt? location = some .directory ∧
      tree.Leads true links here init (.taken location .directory) := by
  obtain ⟨left, location, turn⟩ := leads.exists_turn more
  have directory := ((turn rest more spot).1 leads).directory_of_ne_nil more
  have arrives := (turn [[]] (by simp) _).2 (leads_empties directory (by simp))
  -- The empty segment that made the way go on may be left out again.
  have bare := arrives.without_idle rfl
  rw [List.append_nil] at bare
  exact ⟨location, directory, bare⟩

theorem pathFault?_eq_none_iff : pathFault? path = none ↔
    0 ∉ path.bytes ∧ path.bytes ≠ [] ∧ path.bytes.length ≤ maxPathLength := by
  unfold pathFault?
  split_ifs <;> simp_all

/-- What stands before a separator of a sound path is sound. -/
theorem pathFault?_of_append {front rest : Bytes} (nonempty : front ≠ [])
    (sound : pathFault? ⟨front ++ rest⟩ = none) : pathFault? ⟨front⟩ = none := by
  rw [pathFault?_eq_none_iff, List.mem_append, List.length_append] at sound
  obtain ⟨noNul, -, short⟩ := sound
  exact pathFault?_eq_none_iff.2 ⟨fun inside => noNul (.inl inside), nonempty, by dsimp only; omega⟩

/-- A path to a directory leads through a directory at its parent, unless this is empty. -/
theorem isDirectory_parent (stood : tree.isDirectory path = true) (parent : path.parent? = some up)
    (named : up.bytes ≠ []) : tree.isDirectory up = true := by
  obtain ⟨location, place, -⟩ := isDirectory_iff.1 stood
  obtain ⟨sound, spot, -, leads⟩ := place?_eq_some_iff.1 place
  obtain ⟨front⟩ := up
  obtain ⟨bytes⟩ := path
  rcases Path.parent?_eq_some_cases parent with empty | ⟨rfl, -⟩ | ⟨rest, rfl⟩
  · exact absurd empty named
  · -- The root is there, whatever else is.
    have root : tree.Leads true maxLinks [] [[], []] (.taken [] .directory) :=
      leads_empties (entryAt?_nil tree) (by simp)
    exact isDirectory_iff.2 ⟨[], place?_eq_some_iff.2 ⟨rfl, _, rfl, root⟩, entryAt?_nil tree⟩
  · rw [Path.segments, segmentsOf_append_separator] at leads
    obtain ⟨above, directory, arrives⟩ := leads.exists_directory (segmentsOf_ne_nil rest)
    have start : startOf ⟨front ++ separator :: rest⟩ tree.workingDir =
        startOf ⟨front⟩ tree.workingDir := by
      obtain ⟨first, others, rfl⟩ := List.exists_cons_of_ne_nil named
      rfl
    rw [start] at arrives
    exact isDirectory_iff.2 ⟨above,
      place?_eq_some_iff.2 ⟨pathFault?_of_append named sound, _, rfl, arrives⟩, directory⟩

/-- A path that cannot be created leads to no directory, provided that it leads to none where what
is above it cannot be created. -/
theorem isDirectory_of_createAlong_cons_error {above : List Path} {fault : FileError}
    (beneath : ∀ fault, (tree.createAlong above).result = .error fault →
      (tree.createAlong above).tree.isDirectory path = false)
    (failed : (tree.createAlong (path :: above)).result = .error fault) :
    (tree.createAlong (path :: above)).tree.isDirectory path = false := by
  have refused {found : FileTree} {reason : FileError}
      (failed : (if found.isDirectory path = true then .ok ()
        else .error reason : Except FileError Unit) = .error fault) :
      found.isDirectory path = false := by
    split at failed
    · cases failed
    · next absent => simpa using absent
  unfold createAlong at failed ⊢
  by_cases empty : path.bytes.isEmpty = true
  · rw [if_pos empty] at failed
    cases failed
  rw [if_neg empty] at failed ⊢
  split at failed
  · cases failed
  · dsimp only at failed ⊢
    split at failed
    · unfold createOrKeep at failed ⊢
      split at failed
      · cases failed
      · exact refused failed
    · next reason barred => exact beneath reason barred
  · exact refused failed

/-- Where a chain of ancestors cannot be created, its first path leads to no directory, also in the
tree that is left. -/
theorem isDirectory_of_createAlong_error {count : Nat} {fault : FileError}
    (failed : (tree.createAlong (path.ancestorsUpTo count)).result = .error fault) :
    (tree.createAlong (path.ancestorsUpTo count)).tree.isDirectory path = false := by
  induction count generalizing path fault with
  | zero => cases failed
  | succ count ih =>
      refine isDirectory_of_createAlong_cons_error (fun reason refused => ?_) failed
      cases parent : path.parent? with
      | none =>
          rw [parent] at refused
          cases refused
      | some up =>
          simp only [parent] at refused ⊢
          have named : up.bytes ≠ [] := by
            intro none
            cases count with
            | zero => cases refused
            | succ count =>
                rw [Path.ancestorsUpTo, createAlong, if_pos (by simp [none])] at refused
                cases refused
          rw [← Bool.not_eq_true]
          intro led
          have through := isDirectory_parent led parent named
          rw [ih refused] at through
          cases through

/-- Making sure of a directory succeeds exactly where the path leads to one afterwards. Nothing is
done for the empty path. -/
theorem ensureDirectory_eq_ok_iff (named : path.bytes ≠ []) :
    (tree.ensureDirectory path).result = .ok () ↔
      (tree.ensureDirectory path).tree.isDirectory path = true := by
  constructor
  · exact isDirectory_of_ensureDirectory named
  · intro led
    cases result : (tree.ensureDirectory path).result with
    | ok done => rfl
    | error fault =>
        have absent : (tree.ensureDirectory path).tree.isDirectory path = false :=
          isDirectory_of_createAlong_error result
        rw [absent] at led
        cases led

/-- Whatever stood in a tree stands in the other one, and all else that stands there are directories
at the places of some paths. -/
structure AddsDirectories (paths : List Path) (tree later : FileTree) : Prop where
  workingDir : later.workingDir = tree.workingDir
  kept : ∀ {location entry}, tree.entryAt? location = some entry →
    later.entryAt? location = some entry
  added : ∀ {location entry}, later.entryAt? location = some entry → tree.entryAt? location = none →
    entry = .directory ∧ ∃ path ∈ paths, later.place? path = some location

namespace AddsDirectories

theorem refl (paths : List Path) (tree : FileTree) : AddsDirectories paths tree tree :=
  ⟨rfl, id, fun stands free => by rw [free] at stands; cases stands⟩

theorem keepsWays (adds : AddsDirectories paths tree later) : tree.KeepsWays later := by
  refine ⟨adds.workingDir, adds.kept, fun {location target} => ⟨fun stands => ?_, adds.kept⟩⟩
  cases before : tree.entryAt? location with
  | none => cases (adds.added stands before).1
  | some entry => rw [← adds.kept before, stands]

theorem trans (first : AddsDirectories paths tree between)
    (second : AddsDirectories paths between later) : AddsDirectories paths tree later := by
  refine ⟨second.workingDir.trans first.workingDir, fun stands => second.kept (first.kept stands),
    fun {location entry} stands free => ?_⟩
  cases midway : between.entryAt? location with
  | none => exact second.added stands midway
  | some other =>
      obtain ⟨rfl, path, member, place⟩ := first.added midway free
      obtain rfl := Option.some.inj ((second.kept midway).symm.trans stands)
      exact ⟨rfl, path, member, second.keepsWays.place? place⟩

/-- Creating one directory adds it at the place of its path. -/
theorem createDirectory (member : path ∈ paths) (created : tree.createDirectory path = .ok later) :
    AddsDirectories paths tree later := by
  obtain ⟨dir, name, directory, free, rfl, place⟩ := place?_of_createDirectory created
  refine ⟨workingDir_insert .., fun {location entry} stands => ?_,
    fun {location entry} stands vacant => ?_⟩
  · rw [entryAt?_insert _ directory free, if_neg (by rintro rfl; simp [free] at stands)]
    exact stands
  · rw [entryAt?_insert _ directory free] at stands
    split at stands
    · next here =>
        subst here
        exact ⟨(Option.some.inj stands).symm, path, member, place⟩
    · rw [vacant] at stands
      cases stands

end AddsDirectories

theorem ensureDirectory_adds (tree : FileTree) (path : Path) :
    AddsDirectories path.ancestors tree (tree.ensureDirectory path).tree :=
  createAlong_keeps (fun _ member _ _ before made => before.trans (.createDirectory member made))
    (.refl ..)

end WasmBuild.FileTree
