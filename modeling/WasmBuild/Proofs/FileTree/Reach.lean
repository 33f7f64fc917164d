import WasmBuild.FileTree.Walk
import WasmBuild.Project
import WasmBuild.Proofs.FileTree.Following

/-!
# What a walk yields

A walk is compared with reachability: what lies below a root is what is reached by going down
through real directories. The source units are exactly the source files so reached, each once, and
each unit names the path under which its file was met.
-/
namespace WasmBuild

/-- The directory of a project's sources is never taken for the standard input: its components
begin at the root or hold the name of the directory of all sources. -/
theorem Project.sourceDir_components (p : Project) :
    Component.root ∈ p.sourceDir.components ∨
      Component.named (Utf8.encode "src") ∈ p.sourceDir.components := by
  have joined {base : Path} (child : Path) (nonempty : base.bytes ≠ [])
      (found : Component.root ∈ base.components ∨
        Component.named (Utf8.encode "src") ∈ base.components) :
      (base.join child).bytes ≠ [] ∧ (Component.root ∈ (base.join child).components ∨
        Component.named (Utf8.encode "src") ∈ (base.join child).components) := by
    by_cases absolute : child.isAbsolute = true
    · obtain ⟨b, bytes⟩ := (Path.isAbsolute_iff child).mp absolute
      have same : base.join child = ⟨separator :: b⟩ := by
        rw [Path.join, if_pos absolute, ← bytes]
      rw [same, Path.components_root_append]
      exact ⟨by simp, .inl List.mem_cons_self⟩
    · have relative : child.isAbsolute = false := by simpa using absolute
      rw [Path.components_join nonempty relative, Path.join_of_not_isAbsolute base relative]
      refine ⟨?_, found.imp (List.mem_append_left _) (List.mem_append_left _)⟩
      split_ifs <;> simp [nonempty]
  have single : separator ∉ Utf8.encode "src" := by decide
  have first : (p.dir.join (.ofString "src")).bytes ≠ [] := by
    rw [Path.join_of_not_isAbsolute p.dir (by decide)]
    split_ifs
    · exact List.append_ne_nil_of_right_ne_nil _ (by decide)
    · simp
  have named : Component.named (Utf8.encode "src") ∈
      (p.dir.join (.ofString "src")).components := by
    have found := Path.components_child p.dir single (by decide)
    rw [Path.child] at found
    rw [Path.ofString, found]
    simp
  obtain ⟨second, found⟩ := joined (.ofString p.name) first (.inr named)
  exact (joined p.subDir second found).2

namespace FileTree

theorem not_isStandardInput_sourceDir (p : Project) : isStandardInput p.sourceDir = false := by
  rw [isStandardInput, beq_eq_false_iff_ne]
  intro input
  have member := p.sourceDir_components
  rw [input] at member
  revert member
  decide

/-- What is reached from the directory at `start` by going down through real directories: the names
on the way, the path that they make behind the root, and the entry at their end. -/
inductive Reached (tree : FileTree) (root : Path) (start : Location) :
    Location → Path → Entry → Prop
  | start : tree.entryAt? start = some .directory → Reached tree root start [] root .directory
  | down {names : Location} {path : Path} {name : Name} {entry : Entry} :
      Reached tree root start names path .directory →
      tree.entryAt? (start ++ names ++ [name]) = some entry →
      Reached tree root start (names ++ [name]) (path.child name.bytes) entry

/-- The entries that lie below a root. The root may be reached through links; it is itself met only
if it is a file. -/
inductive Meets (tree : FileTree) (root : Path) : Sighting → Prop
  | below {start names : Location} {name : Name} {path : Path} {entry : Entry} :
      tree.find root = .ok (start, .directory) →
      Reached tree root start (names ++ [name]) path entry →
      Meets tree root ⟨path, name.bytes, entry⟩
  | itself {location : Location} {name : Bytes} {entry : Entry} :
      tree.find root = .ok (location, entry) → entry.isFile = true →
      root.fileName? = some name → Meets tree root ⟨root, name, entry⟩

/-- Whether an entry counts as a source file: its name ends in the bytes of `.c`, and it is a
regular file or a link whose path leads to one. -/
def IsSourceFile (tree : FileTree) (s : Sighting) : Prop :=
  (∃ base, s.name = base ++ [0x2E, 0x63]) ∧
    (s.entry.isFile = true ∨
      (∃ target, s.entry = .link target) ∧
        ∃ location entry, tree.find s.path = .ok (location, entry) ∧ entry.isFile = true)

theorem isSourceName_iff {name : Bytes} :
    isSourceName name = true ↔ ∃ base, name = base ++ [0x2E, 0x63] := by
  have suffix : sourceSuffix = [0x2E, 0x63] := by decide
  rw [isSourceName, List.isSuffixOf_iff_suffix, suffix]
  constructor
  · rintro ⟨base, split⟩
    exact ⟨base, split.symm⟩
  · rintro ⟨base, split⟩
    exact ⟨base, split.symm⟩

theorem isFile_iff {tree : FileTree} {path : Path} :
    tree.isFile path = true ↔
      ∃ location entry, tree.find path = .ok (location, entry) ∧ entry.isFile = true := by
  unfold isFile
  cases tree.find path with
  | error fault => simp
  | ok found =>
      obtain ⟨location, entry⟩ := found
      simp

theorem isSource_iff {tree : FileTree} {s : Sighting} :
    tree.isSource s = true ↔ IsSourceFile tree s := by
  unfold isSource IsSourceFile
  rw [Bool.and_eq_true, isSourceName_iff]
  refine and_congr_right fun _ => ?_
  cases entry : s.entry with
  | directory => simp [Entry.isFile]
  | file content executable script => simp [Entry.isFile]
  | link target => simp [Entry.isFile, isFile_iff]

@[simp] theorem pathBelow_nil (root : Path) : pathBelow root [] = root := rfl

@[simp] theorem pathBelow_concat (root : Path) (names : Location) (name : Name) :
    pathBelow root (names ++ [name]) = (pathBelow root names).child name.bytes := by
  simp [pathBelow]

/-- A path below a root has the components of the root and then the names on the way. -/
theorem components_pathBelow (root : Path) (names : Location) :
    (pathBelow root names).components =
      root.components ++ names.map (Component.named ·.bytes) := by
  induction names using List.reverseRecOn with
  | nil => simp
  | append_singleton names name ih =>
      rw [pathBelow_concat, Path.components_child _ name.not_mem_separator name.ofSegment?_bytes,
        ih, List.map_append, List.append_assoc]
      rfl

theorem components_pathBelow_injective {root : Path} {a b : Location}
    (same : (pathBelow root a).components = (pathBelow root b).components) : a = b := by
  rw [components_pathBelow, components_pathBelow, List.append_cancel_left_eq] at same
  refine List.map_injective_iff.mpr (fun x y alike => ?_) same
  exact Name.bytes_injective (Component.named.inj alike)

/-- Everything that stands somewhere below a directory is reached from it, since whatever stands in
a tree stands in a directory. -/
theorem reached_iff {tree : FileTree} {root path : Path} {start names : Location} {entry : Entry}
    (directory : tree.entryAt? start = some .directory) :
    Reached tree root start names path entry ↔
      tree.entryAt? (start ++ names) = some entry ∧ path = pathBelow root names := by
  constructor
  · intro reached
    induction reached with
    | start reached => exact ⟨by simpa using reached, rfl⟩
    | down _ stands ih => exact ⟨by simpa using stands, by rw [pathBelow_concat, ih.2]⟩
  · rintro ⟨stands, rfl⟩
    induction names using List.reverseRecOn generalizing entry with
    | nil =>
        rw [List.append_nil, directory, Option.some.injEq] at stands
        subst stands
        exact .start directory
    | append_singleton names name ih =>
        rw [← List.append_assoc] at stands
        rw [pathBelow_concat]
        exact .down (ih (entryAt?_parent stands)) stands

theorem below?_eq_some_iff {root location names : Location} :
    below? root location = some names ↔ names ≠ [] ∧ location = root ++ names := by
  unfold below?
  constructor
  · intro below
    split_ifs at below with inside
    simp only [Bool.and_eq_true, List.isPrefixOf_iff_prefix, decide_eq_true_eq] at inside
    obtain ⟨⟨rest, split⟩, longer⟩ := inside
    rw [← split, List.drop_left, Option.some.injEq] at below
    subst below
    refine ⟨?_, split.symm⟩
    rintro rfl
    simp [← split] at longer
  · rintro ⟨nonempty, rfl⟩
    have longer : 0 < names.length := List.length_pos_iff.mpr nonempty
    rw [if_pos (by simpa using longer), List.drop_left]

theorem sighting?_eq_some_iff {root : Path} {location : Location} {e : Location × Entry}
    {s : Sighting} :
    sighting? root location e = some s ↔
      ∃ names name, e.1 = location ++ (names ++ [name]) ∧
        s = ⟨pathBelow root (names ++ [name]), name.bytes, e.2⟩ := by
  unfold sighting?
  constructor
  · intro seen
    cases below : below? location e.1 with
    | none => simp [below] at seen
    | some names =>
        obtain ⟨nonempty, split⟩ := below?_eq_some_iff.mp below
        rcases List.eq_nil_or_concat names with rfl | ⟨init, name, rfl⟩
        · contradiction
        · rw [List.concat_eq_append] at below split
          simp only [below, List.getLast?_concat, Option.map_some, Option.some.injEq] at seen
          exact ⟨init, name, split, seen.symm⟩
  · rintro ⟨names, name, split, rfl⟩
    rw [below?_eq_some_iff.mpr ⟨by simp, split⟩]
    simp

theorem mem_sightings_iff {tree : FileTree} {root : Path} {start : Location} {s : Sighting}
    (found : tree.find root = .ok (start, .directory)) :
    s ∈ tree.entries.filterMap (sighting? root start) ↔ Meets tree root s := by
  have directory := entry_of_find found
  rw [List.mem_filterMap]
  constructor
  · rintro ⟨⟨location, entry⟩, member, seen⟩
    obtain ⟨names, name, rfl, rfl⟩ := sighting?_eq_some_iff.mp seen
    refine .below found ((reached_iff directory).mpr ⟨?_, rfl⟩)
    exact (entryAt?_eq_some_iff (by simp)).mpr member
  · intro seen
    cases seen with
    | below again reached =>
        rw [found] at again
        cases again
        obtain ⟨stands, rfl⟩ := (reached_iff directory).mp reached
        rw [entryAt?_eq_some_iff (by simp)] at stands
        exact ⟨_, stands, sighting?_eq_some_iff.mpr ⟨_, _, rfl, rfl⟩⟩
    | itself again file named =>
        rw [found] at again
        cases again
        cases file

/-- The sightings of a walk that are sources are the source files that it has to meet. -/
theorem mem_filter_walk_iff {tree : FileTree} {root : Path} (noInput : isStandardInput root = false)
    {s : Sighting} :
    s ∈ (tree.walk root).filter tree.isSource ↔ Meets tree root s ∧ IsSourceFile tree s := by
  rw [List.mem_filter, isSource_iff]
  refine and_congr_left fun source => ?_
  unfold walk
  rw [noInput, if_neg (by simp)]
  cases found : tree.find root with
  | error fault =>
      simp only [List.not_mem_nil, false_iff]
      intro met
      cases met <;> simp_all
  | ok spot =>
      obtain ⟨location, entry⟩ := spot
      cases entry with
      | directory => exact mem_sightings_iff found
      | file content executable script =>
          obtain ⟨name, named⟩ := fileName?_of_find found (by simp)
          simp only [List.mem_singleton, named, Option.getD_some]
          constructor
          · rintro rfl
            exact .itself found rfl named
          · intro met
            cases met <;> simp_all
      | link target =>
          simp only [List.mem_singleton]
          constructor
          · rintro rfl
            obtain ⟨-, file | ⟨-, location, entry, again, file⟩⟩ := source
            · cases file
            · rw [found] at again
              cases again
              cases file
          · intro met
            cases met with
            | below again reached => simp [found] at again
            | itself again file named =>
                rw [found] at again
                cases again
                cases file

/-- No two sightings of a walk have paths of the same components. -/
theorem walk_pairwise (tree : FileTree) (root : Path) :
    (tree.walk root).Pairwise (·.path.components ≠ ·.path.components) := by
  unfold walk
  split
  · exact .nil
  · split
    · exact .nil
    · have distinct := List.pairwise_map.mp tree.distinct
      refine List.pairwise_filterMap.mpr (distinct.imp fun {a b} apart s seen t seen' same => ?_)
      obtain ⟨names, name, below, rfl⟩ := sighting?_eq_some_iff.mp seen
      obtain ⟨names', name', below', rfl⟩ := sighting?_eq_some_iff.mp seen'
      rw [below, below', components_pathBelow_injective same] at apart
      exact apart rfl
    · exact List.pairwise_singleton _ _

/-- A sighting has the name in which its path ends. -/
theorem Meets.fileName? {tree : FileTree} {root : Path} {s : Sighting} (met : Meets tree root s) :
    s.path.fileName? = some s.name := by
  cases met with
  | itself _ _ named => exact named
  | @below start names name path entry found reached =>
      obtain ⟨-, split⟩ := (reached_iff (entry_of_find found)).mp reached
      rw [Path.fileName?_eq_some_iff, split, components_pathBelow, List.map_append,
        ← List.append_assoc]
      exact List.getLast?_concat

/-- The unit of a sighting names the path under which it was met. -/
theorem Meets.components_toUnit {tree : FileTree} {root : Path} {s : Sighting}
    (met : Meets tree root s) : s.toUnit.path.components = s.path.components :=
  Path.components_child_parent met.fileName?

theorem isSourceName_of_mem_sources {tree : FileTree} {root : Path} {unit : SourceUnit}
    (member : unit ∈ tree.sources root) : isSourceName unit.fileName = true := by
  obtain ⟨s, seen, rfl⟩ := List.mem_map.mp member
  have source := (List.mem_filter.mp seen).2
  rw [isSource, Bool.and_eq_true] at source
  exact source.1

/-- The name of a unit is a single segment. -/
theorem not_mem_separator_of_mem_sources {tree : FileTree} {root : Path} {unit : SourceUnit}
    (member : unit ∈ tree.sources root) : separator ∉ unit.fileName := by
  obtain ⟨s, found, rfl⟩ := List.mem_map.1 member
  cases input : isStandardInput root with
  | true => simp [walk, input] at found
  | false =>
      obtain ⟨met, -⟩ := (mem_filter_walk_iff input).1 found
      cases met with
      | @below _ _ name => exact name.not_mem_separator
      | itself _ _ named => exact not_mem_of_mem_segmentsOf (Path.mem_segments_of_fileName? named).1

/-- No two units of a walk have the same path. -/
theorem sources_pairwise (tree : FileTree) (root : Path) :
    (tree.sources root).Pairwise (·.path.components ≠ ·.path.components) := by
  rw [sources, List.pairwise_map]
  cases input : isStandardInput root with
  | true => simp [walk, input]
  | false =>
      refine ((walk_pairwise tree root).filter tree.isSource).imp_of_mem
        fun {s t} seen seen' apart => ?_
      have met := ((mem_filter_walk_iff input).1 seen).1
      have met' := ((mem_filter_walk_iff input).1 seen').1
      rw [met.components_toUnit, met'.components_toUnit]
      exact apart

/-- The units of a project are exactly the source files that lie below its source directory, each
once, and every unit names the path under which its file was met. -/
theorem sources_exact (tree : FileTree) (project : Project) :
    ∃ files : List Sighting,
      (∀ s, s ∈ files ↔ Meets tree project.sourceDir s ∧ IsSourceFile tree s) ∧
      files.Pairwise (·.path.components ≠ ·.path.components) ∧
      tree.sources project.sourceDir = files.map Sighting.toUnit ∧
      (∀ s ∈ files, s.toUnit.fileName = s.name ∧
        s.toUnit.path.components = s.path.components) ∧
      (tree.sources project.sourceDir).Pairwise (·.path.components ≠ ·.path.components) ∧
      ∀ fault, tree.find project.sourceDir = .error fault →
        tree.sources project.sourceDir = [] := by
  have noInput := not_isStandardInput_sourceDir project
  have apart := (walk_pairwise tree project.sourceDir).filter tree.isSource
  have paths : ∀ s ∈ (tree.walk project.sourceDir).filter tree.isSource,
      s.toUnit.path.components = s.path.components := fun s seen =>
    ((mem_filter_walk_iff noInput).mp seen).1.components_toUnit
  refine ⟨(tree.walk project.sourceDir).filter tree.isSource, fun s => mem_filter_walk_iff noInput,
    apart, rfl, fun s seen => ⟨rfl, paths s seen⟩, ?_, ?_⟩
  · rw [sources, List.pairwise_map]
    refine apart.imp_of_mem fun {s t} seen seen' differ => ?_
    rw [paths s seen, paths t seen']
    exact differ
  · intro fault refused
    simp [sources, walk, refused]

end FileTree
end WasmBuild
