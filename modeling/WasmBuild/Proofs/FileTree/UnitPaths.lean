import WasmBuild.Proofs.FileTree.Ancestors
import WasmBuild.Proofs.FileTree.Reach
import WasmBuild.Proofs.Path.Splitting

/-!
# Where the path of a unit leads

A unit keeps the directory and the name of the file that it was met as. Joining the two again leaves
out idle segments only. These do not matter to where a path leads, so the path of the unit leads to
the same file as the path that was split.
-/
namespace WasmBuild.FileTree

variable {tree : FileTree} {p dir : Path} {n : Bytes} {front gap rest : List Bytes}
  {location : Location} {entry : Entry}

/-- A path that can be looked up can be looked up after it was split and joined again. -/
theorem pathFault?_of_splits (splits : Path.Splits p dir n front gap rest)
    (named : (dir.child n).fileName? = some n) (sound : pathFault? p = none) :
    pathFault? (dir.child n) = none := by
  obtain ⟨noNul, -, short⟩ := pathFault?_eq_none_iff.1 sound
  have bytes := splits.bytes_sublist
  refine pathFault?_eq_none_iff.2 ⟨fun inside => noNul (bytes.subset inside), fun empty => ?_,
    bytes.length_le.trans short⟩
  have bare : (dir.child n).components = [] := (Path.components_eq_nil_iff _).2 empty
  simp [Path.fileName?, bare] at named

/-- Splitting a path and joining it again keeps the place to which the path leads. -/
theorem place?_of_splits (splits : Path.Splits p dir n front gap rest)
    (named : (dir.child n).fileName? = some n) (place : tree.place? p = some location) :
    tree.place? (dir.child n) = some location := by
  obtain ⟨sound, spot, rfl, leads⟩ := place?_eq_some_iff.1 place
  have start : startOf (dir.child n) tree.workingDir = startOf p tree.workingDir := by
    rw [startOf, startOf, Path.isAbsolute_congr splits.components]
  have onward : tree.Leads true maxLinks (startOf p tree.workingDir)
      (front ++ [n] ++ (rest ++ [])) spot := by
    rw [splits.segments] at leads
    simpa using leads.without_idles splits.gap_idle
  have arrives := onward.without_idles splits.rest_idle
  rw [List.append_nil, ← splits.rejoined, ← start] at arrives
  exact place?_eq_some_iff.2 ⟨pathFault?_of_splits splits named sound, spot, rfl, arrives⟩

theorem find_of_splits (splits : Path.Splits p dir n front gap rest)
    (named : (dir.child n).fileName? = some n) (found : tree.find p = .ok (location, entry)) :
    tree.find (dir.child n) = .ok (location, entry) := by
  obtain ⟨place, stands⟩ := find_eq_ok_iff.1 found
  exact find_eq_ok_iff.2 ⟨place?_of_splits splits named place, stands⟩

/-- The sources of a walk are met under paths that end in their names. -/
theorem fileName?_of_mem_walk {root : Path} {s : Sighting}
    (source : s ∈ (tree.walk root).filter tree.isSource) : s.path.fileName? = some s.name := by
  cases input : isStandardInput root with
  | true => simp [walk, input] at source
  | false => exact ((mem_filter_walk_iff input).1 source).1.fileName?

/-- A path that ends in a name has a parent, and the unit of the two has a path of the same
components, which splits into the very same parent and name again. To whatever the path leads, the
path of the unit leads as well. Every source of a walk is met under such a path, and its unit is
made of the parent and the name of this path. -/
theorem unit_leads_to_its_file {p : Path} {n : Bytes} (named : p.fileName? = some n) :
    ∃ dir, p.parent? = some dir ∧
      let unit : SourceUnit := ⟨dir, n⟩
      unit.path.components = p.components ∧
        unit.path.parent? = some dir ∧ unit.path.fileName? = some n ∧
        ∀ tree : FileTree,
          (∀ location entry, tree.find p = .ok (location, entry) →
            tree.find unit.path = .ok (location, entry)) ∧
          ∀ root, ∀ s ∈ (tree.walk root).filter tree.isSource,
            s.path.fileName? = some s.name ∧ (s.path = p → s.toUnit = unit) := by
  obtain ⟨dir, front, gap, rest, splits⟩ := Path.exists_splits named
  have again : (dir.child n).fileName? = some n := by
    rw [Path.fileName?_eq_some_iff] at named ⊢
    rw [splits.components, named]
  refine ⟨dir, splits.parent, splits.components, splits.again, again, fun tree =>
    ⟨fun location entry => find_of_splits splits again, fun root s source => ?_⟩⟩
  have ends := fileName?_of_mem_walk source
  refine ⟨ends, ?_⟩
  rintro rfl
  obtain rfl := Option.some.inj (ends.symm.trans named)
  rw [Sighting.toUnit, splits.parent, Option.getD_some]

/-- One source below two directories. -/
def nestedTree : FileTree :=
  let lib : Name := ⟨Utf8.encode "lib", by decide⟩
  let io : Name := ⟨Utf8.encode "io", by decide⟩
  let source : Name := ⟨Utf8.encode "get.c", by decide⟩
  ((FileTree.empty.insert [] lib .directory).insert [lib] io .directory).insert [lib, io] source
    (.file [] false none)

/-- A source that is met below a root with idle segments: its unit leaves out those at the end of
the root. -/
theorem unit_leads_to_its_file_idle_root :
    let root := Path.ofString ".//lib/./io//."
    let p := Path.ofString ".//lib/./io//./get.c"
    let unit : SourceUnit := ⟨.ofString ".//lib/./io", Utf8.encode "get.c"⟩
    p.fileName? = some (Utf8.encode "get.c") ∧ p.parent? = some unit.dir ∧
      unit.path = .ofString ".//lib/./io/get.c" ∧ unit.path.components = p.components ∧
      unit.path.parent? = some unit.dir ∧
      nestedTree.isFile p = true ∧ nestedTree.isFile unit.path = true ∧
      ∃ s ∈ (nestedTree.walk root).filter nestedTree.isSource, s.path = p ∧ s.toUnit = unit := by
  intro root p unit
  have named : p.fileName? = some (Utf8.encode "get.c") := by decide +kernel
  have parent : p.parent? = some unit.dir := by decide +kernel
  have file : nestedTree.isFile p = true := by decide +kernel
  obtain ⟨dir, parent', same, again, -, leads⟩ := unit_leads_to_its_file named
  obtain rfl : dir = unit.dir := Option.some.inj (parent'.symm.trans parent)
  obtain ⟨finds, meets⟩ := leads nestedTree
  obtain ⟨location, entry, found, isFile⟩ := isFile_iff.1 file
  have met : ∃ s ∈ (nestedTree.walk root).filter nestedTree.isSource, s.path = p := by
    decide +kernel
  obtain ⟨s, source, path⟩ := met
  exact ⟨named, parent, by decide +kernel, same, again, file,
    isFile_iff.2 ⟨location, entry, finds location entry found, isFile⟩,
    s, source, path, (meets root s source).2 path⟩

end WasmBuild.FileTree
