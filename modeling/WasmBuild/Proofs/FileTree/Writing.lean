import WasmBuild.Proofs.FileTree.Places
import WasmBuild.Proofs.FileTree.Reach

/-!
# Writing files and finding sources

What writes to certain paths and does nothing else keeps the places of all paths. Without links, the
sources below a root are told by the directories and by the files with the name of a source, so
whoever writes files of other names neither adds a source nor takes one away.
-/
namespace WasmBuild.FileTree

/-- At most the files that some paths lead to have come or have changed; nothing else has. -/
structure WritesOnly (paths : List Path) (tree later : FileTree) : Prop where
  workingDir : later.workingDir = tree.workingDir
  changed : ∀ {location}, later.entryAt? location ≠ tree.entryAt? location →
    (∃ path ∈ paths, tree.place? path = some location) ∧
      (∀ entry, tree.entryAt? location = some entry → entry.isFile = true) ∧
      ∃ entry, later.entryAt? location = some entry ∧ entry.isFile = true

variable {paths : List Path} {tree between later : FileTree} {location : Location}

namespace WritesOnly

theorem refl (paths : List Path) (tree : FileTree) : WritesOnly paths tree tree :=
  ⟨rfl, fun different => absurd rfl different⟩

/-- Directories and links stay where they are. -/
theorem entryAt?_iff (writes : WritesOnly paths tree later) {entry : Entry}
    (noFile : entry.isFile = false) :
    later.entryAt? location = some entry ↔ tree.entryAt? location = some entry := by
  by_cases same : later.entryAt? location = tree.entryAt? location
  · rw [same]
  obtain ⟨-, before, other, after, file⟩ := writes.changed same
  constructor
  · intro stands
    obtain rfl := Option.some.inj (stands.symm.trans after)
    simp [noFile] at file
  · intro stands
    have wasFile := before entry stands
    simp [noFile] at wasFile

theorem keepsWays (writes : WritesOnly paths tree later) : tree.KeepsWays later :=
  ⟨writes.workingDir, (writes.entryAt?_iff rfl).2, writes.entryAt?_iff rfl⟩

theorem back (writes : WritesOnly paths tree later) : later.KeepsWays tree :=
  ⟨writes.workingDir.symm, (writes.entryAt?_iff rfl).1, (writes.entryAt?_iff rfl).symm⟩

theorem trans (first : WritesOnly paths tree between) (second : WritesOnly paths between later) :
    WritesOnly paths tree later := by
  refine ⟨second.workingDir.trans first.workingDir, fun {location} different => ?_⟩
  by_cases same : between.entryAt? location = tree.entryAt? location
  · obtain ⟨⟨path, member, place⟩, before, after⟩ :=
      second.changed (fun still => different (still.trans same))
    exact ⟨⟨path, member, first.back.place? place⟩,
      fun entry still => before entry (same.trans still), after⟩
  · obtain ⟨place, before, after⟩ := first.changed same
    refine ⟨place, before, ?_⟩
    by_cases still : later.entryAt? location = between.entryAt? location
    · rw [still]
      exact after
    · exact (second.changed still).2.2

/-- One new file at the place of a path, where there was none or another file. -/
theorem of_entryAt? {path : Path} {file : Entry} (member : path ∈ paths)
    (place : tree.place? path = some location) (isFile : file.isFile = true)
    (before : ∀ entry, tree.entryAt? location = some entry → entry.isFile = true)
    (workingDir : later.workingDir = tree.workingDir)
    (after : ∀ other, later.entryAt? other =
      if other = location then some file else tree.entryAt? other) :
    WritesOnly paths tree later := by
  refine ⟨workingDir, fun {other} different => ?_⟩
  have here : other = location := by
    by_contra elsewhere
    rw [after, if_neg elsewhere] at different
    exact different rfl
  subst here
  exact ⟨⟨path, member, place⟩, before, file, by rw [after, if_pos rfl], isFile⟩

/-- Writing a file writes where its path leads. -/
theorem putFile {path : Path} {content : Bytes} (member : path ∈ paths)
    (wrote : tree.putFile path content = .ok later) : WritesOnly paths tree later := by
  unfold FileTree.putFile at wrote
  cases located : tree.locate true path with
  | error fault => simp [located] at wrote
  | ok spot =>
      have place : tree.place? path = some spot.place := by simp [FileTree.place?, located]
      have leads := (locate_eq_ok_iff.1 located).2
      simp only [located] at wrote
      cases spot with
      | free dir name =>
          obtain rfl := Except.ok.inj wrote
          obtain ⟨directory, free⟩ := leads.standsIn
          refine of_entryAt? member place rfl (fun entry stands => ?_) (workingDir_insert ..)
            (entryAt?_insert _ directory free)
          rw [Spot.place, free] at stands
          cases stands
      | taken location old =>
          have stands : tree.entryAt? location = some old := leads.standsIn
          cases old with
          | directory | link => cases wrote
          | file content executable script =>
              obtain rfl := Except.ok.inj wrote
              refine of_entryAt? member place rfl (fun entry same => ?_) rfl
                (entryAt?_overwrite _ stands rfl)
              rw [Spot.place, stands] at same
              cases same
              rfl

end WritesOnly

/-- The same ways, and the same entries under the names of sources. -/
structure SameSources (tree later : FileTree) : Prop where
  ways : tree.KeepsWays later
  back : later.KeepsWays tree
  entry : ∀ dir (name : Name), isSourceName name.bytes = true →
    later.entryAt? (dir ++ [name]) = tree.entryAt? (dir ++ [name])

namespace SameSources

theorem refl (tree : FileTree) : SameSources tree tree :=
  ⟨.refl tree, .refl tree, fun _ _ _ => rfl⟩

theorem symm (same : SameSources tree later) : SameSources later tree :=
  ⟨same.back, same.ways, fun dir name source => (same.entry dir name source).symm⟩

theorem trans (first : SameSources tree between) (second : SameSources between later) :
    SameSources tree later :=
  ⟨first.ways.trans second.ways, second.back.trans first.back, fun dir name source =>
    (second.entry dir name source).trans (first.entry dir name source)⟩

end SameSources

/-- The last segment of a path is a name, and not that of a source. -/
def EndsInOther (path : Path) : Prop :=
  ∃ init name, path.segments = init ++ [name] ∧
    Component.ofSegment? name = some (.named name) ∧ isSourceName name = false

/-- Without links, files of other names are written beside the sources. -/
theorem WritesOnly.sameSources (writes : WritesOnly paths tree later) (free : tree.LinkFree)
    (others : ∀ path ∈ paths, EndsInOther path) : SameSources tree later := by
  refine ⟨writes.keepsWays, writes.back, fun dir name source => ?_⟩
  by_contra different
  obtain ⟨⟨path, member, place⟩, -, -⟩ := writes.changed different
  obtain ⟨init, last, split, named, other⟩ := others path member
  obtain ⟨dir', name', same, bytes⟩ := free.exists_name_of_place? split named place
  obtain ⟨-, last'⟩ := List.append_inj' same rfl
  obtain rfl := List.singleton_inj.1 last'
  rw [bytes, other] at source
  cases source

/-- Without links, none is met. -/
theorem LinkFree.ne_link_of_meets (free : tree.LinkFree) {root : Path} {s : Sighting}
    (met : Meets tree root s) (target : Path) : s.entry ≠ .link target := by
  cases met with
  | @below start names name path entry found reached =>
      obtain ⟨stands, -⟩ := (reached_iff (entry_of_find found)).1 reached
      rintro rfl
      exact free _ target stands
  | itself found file named =>
      rintro rfl
      cases file

/-- What is met under the name of a source is met in both trees. -/
theorem SameSources.meets (same : SameSources tree later) (free : tree.LinkFree) {root : Path}
    {s : Sighting} (source : isSourceName s.name = true) (met : Meets tree root s) :
    Meets later root s := by
  cases met with
  | @below start names name path entry found reached =>
      obtain ⟨place, directory⟩ := find_eq_ok_iff.1 found
      have directory' := same.ways.directory directory
      obtain ⟨stands, rfl⟩ := (reached_iff directory).1 reached
      have stands' : later.entryAt? (start ++ (names ++ [name])) = some entry := by
        rw [← List.append_assoc] at stands ⊢
        rw [same.entry _ name source, stands]
      exact .below (find_eq_ok_iff.2 ⟨same.ways.place? place, directory'⟩)
        ((reached_iff directory').2 ⟨stands', rfl⟩)
  | @itself location name entry found file named =>
      obtain ⟨place, stands⟩ := find_eq_ok_iff.1 found
      -- The root is a file, so its own name is the last segment of its path.
      have noDirectory : entry ≠ .directory := by
        rintro rfl
        cases file
      obtain ⟨init, last, split, ends⟩ := endsInName_of_find found noDirectory
      obtain rfl := Option.some.inj ((Path.fileName?_of_segments split ends).symm.trans named)
      obtain ⟨dir, n, rfl, rfl⟩ := free.exists_name_of_place? split ends place
      have stands' := (same.entry dir n source).trans stands
      exact .itself (find_eq_ok_iff.2 ⟨same.ways.place? place, stands'⟩) file named

theorem mem_sources_iff {root : Path} {unit : SourceUnit} : unit ∈ tree.sources root ↔
    isStandardInput root = false ∧
      ∃ s, Meets tree root s ∧ IsSourceFile tree s ∧ s.toUnit = unit := by
  cases input : isStandardInput root with
  | true => simp [sources, walk, input]
  | false => simp [sources, mem_filter_walk_iff input, and_assoc]

theorem SameSources.mem_sources (same : SameSources tree later) (free : tree.LinkFree)
    {root : Path} {unit : SourceUnit} (member : unit ∈ tree.sources root) :
    unit ∈ later.sources root := by
  obtain ⟨input, s, met, ⟨named, isFile⟩, toUnit⟩ := mem_sources_iff.1 member
  have source : isSourceName s.name = true := isSourceName_iff.2 named
  refine mem_sources_iff.2 ⟨input, s, same.meets free source met, ⟨named, .inl ?_⟩, toUnit⟩
  rcases isFile with file | ⟨⟨target, link⟩, -⟩
  · exact file
  · exact absurd link (free.ne_link_of_meets met target)

/-- No unit is found twice. -/
theorem nodup_sources (tree : FileTree) (root : Path) : (tree.sources root).Nodup := by
  cases input : isStandardInput root with
  | true => simp [sources, walk, input]
  | false =>
      have apart := (tree.walk_pairwise root).filter tree.isSource
      rw [sources, List.Nodup, List.pairwise_map]
      refine apart.imp_of_mem fun {s t} seen seen' different same => different ?_
      have first := ((mem_filter_walk_iff input).1 seen).1.components_toUnit
      have second := ((mem_filter_walk_iff input).1 seen').1.components_toUnit
      rw [← first, ← second, same]

/-- Trees with the same ways and the same entries under the names of sources have the same units,
in whatever order they are found. -/
theorem SameSources.sources_perm (same : SameSources tree later) (free : tree.LinkFree)
    (root : Path) : (later.sources root).Perm (tree.sources root) := by
  rw [List.perm_ext_iff_of_nodup (nodup_sources later root) (nodup_sources tree root)]
  exact fun unit => ⟨same.symm.mem_sources (same.ways.linkFree free), same.mem_sources free⟩

end WasmBuild.FileTree
