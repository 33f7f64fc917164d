import WasmBuild.Proofs.FileTree.Directories
import WasmBuild.Proofs.FileTree.Reach
import WasmBuild.Proofs.Path.Text

/-!
# Trees whose names are texts

In a tree whose names are all valid UTF-8, what is found below a root at a text has a text for its
path. Creating directories at texts keeps such a tree, also where it fails halfway.
-/
namespace WasmBuild.FileTree

/-- Every name in a tree is a text. Links may point anywhere. -/
def HasTexts (tree : FileTree) : Prop :=
  ∀ e ∈ tree.entries, ∀ name ∈ e.1, Path.IsText ⟨name.bytes⟩

variable {tree : FileTree}

theorem HasTexts.of_entryAt? (texts : tree.HasTexts) {location : Location} {entry : Entry}
    (found : tree.entryAt? location = some entry) :
    ∀ name ∈ location, Path.IsText ⟨name.bytes⟩ := by
  by_cases root : location = []
  · simp [root]
  · exact texts _ ((entryAt?_eq_some_iff root).1 found)

/-- A tree keeps texts for names when a text is added. -/
theorem HasTexts.insert (texts : tree.HasTexts) (dir : Location) {name : Name} (entry : Entry)
    (text : Path.IsText ⟨name.bytes⟩) : (tree.insert dir name entry).HasTexts := by
  unfold FileTree.insert
  split
  · next free =>
      intro e member
      rcases List.mem_append.1 member with member | member
      · exact texts e member
      · obtain rfl := List.mem_singleton.1 member
        intro n inside
        rcases List.mem_append.1 inside with above | last
        · exact texts.of_entryAt? free.1 n above
        · rwa [List.mem_singleton.1 last]
  · exact texts

theorem HasTexts.createDirectory (texts : tree.HasTexts) {path : Path} (text : path.IsText)
    {made : FileTree} (created : tree.createDirectory path = .ok made) : made.HasTexts := by
  obtain ⟨init, last, empties, dir, name, cut, -, move, -, -, rfl⟩ := createDirectory_eq_ok created
  have member : name.bytes ∈ path.segments := by
    rw [bytes_of_moveOf_eq_down move, cut.split]
    simp
  exact texts.insert dir .directory (text.of_mem_segments member)

/-- Making sure of a directory at a text keeps texts for names, whether it succeeds or not. -/
theorem HasTexts.ensureDirectory (texts : tree.HasTexts) {path : Path} (text : path.IsText) :
    (tree.ensureDirectory path).tree.HasTexts :=
  createAlong_keeps (fun _ above _ _ texts made => HasTexts.createDirectory texts
    (Path.isText_of_mem_ancestorsUpTo text _ _ above) made) texts

theorem isText_pathBelow {root : Path} (text : root.IsText) {names : Location}
    (all : ∀ name ∈ names, Path.IsText ⟨name.bytes⟩) : (pathBelow root names).IsText := by
  induction names using List.reverseRecOn with
  | nil => exact text
  | append_singleton names name ih =>
      rw [pathBelow_concat]
      have above := ih fun n member => all n (List.mem_append_left _ member)
      exact above.join (all name (by simp))

theorem Meets.isText {root : Path} {s : Sighting} (met : Meets tree root s)
    (texts : tree.HasTexts) (text : root.IsText) : s.path.IsText ∧ Path.IsText ⟨s.name⟩ := by
  cases met with
  | @below start names name path entry found reached =>
      obtain ⟨stands, rfl⟩ := (reached_iff (entry_of_find found)).1 reached
      have all : ∀ n ∈ names ++ [name], Path.IsText ⟨n.bytes⟩ := fun n member =>
        texts.of_entryAt? stands n (List.mem_append_right _ member)
      exact ⟨isText_pathBelow text all, all name (by simp)⟩
  | itself found file named => exact ⟨text, text.fileName? named⟩

/-- Where names and root are texts, so are the paths of all units. -/
theorem HasTexts.sources (texts : tree.HasTexts) {project : Project}
    (text : project.sourceDir.IsText) :
    ∀ unit ∈ tree.sources project.sourceDir, unit.path.IsText := by
  intro unit member
  obtain ⟨s, seen, rfl⟩ := List.mem_map.1 member
  obtain ⟨met, -⟩ := (mem_filter_walk_iff (not_isStandardInput_sourceDir project)).1 seen
  obtain ⟨path, name⟩ := met.isText texts text
  have parent : (s.path.parent?.getD ⟨[]⟩).IsText := by
    cases up : s.path.parent? with
    | none => exact ⟨"", rfl⟩
    | some q => exact path.parent? up
  exact parent.join name

end WasmBuild.FileTree
