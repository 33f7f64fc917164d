import WasmBuild.Manifest.Load
import WasmBuild.Proofs.Manifest.Entries
import WasmBuild.Proofs.Manifest.Resolution
import WasmBuild.Proofs.Path.Text

/-!
# Paths that come from a manifest

Whatever is written in a document, the paths of the manifest that is read from it are texts. So the
directories of its projects are texts, provided that the manifest itself lies at one.
-/
namespace WasmBuild

def ProjectEntry.HasTexts (entry : ProjectEntry) : Prop :=
  entry.subDir.IsText ∧ ∀ dir ∈ entry.dir?, dir.IsText

structure Project.HasTexts (project : Project) : Prop where
  dir : project.dir.IsText
  subDir : project.subDir.IsText
  outputBase : project.outputBase.IsText

theorem Project.HasTexts.sourceDir {project : Project} (texts : project.HasTexts) :
    project.sourceDir.IsText :=
  ((texts.dir.join (Path.isText_ofString _)).join (Path.isText_ofString _)).join texts.subDir

theorem Project.HasTexts.outputDir {project : Project} (texts : project.HasTexts) :
    project.outputDir.IsText :=
  texts.outputBase.join (Path.isText_ofString _)

namespace Manifest

def HasTexts (manifest : Manifest) : Prop :=
  manifest.outputBase.IsText ∧ ∀ entry ∈ manifest.projects, entry.HasTexts

theorem readPath_isText {node : Toml.Node} {path : Path} (reads : readPath node = .ok path) :
    path.IsText := by
  unfold readPath at reads
  split at reads
  · obtain rfl := Except.ok.inj reads
    exact Path.isText_ofString _
  · simp at reads

def EntryDraft.HasTexts (draft : EntryDraft) : Prop :=
  draft.subDir.IsText ∧ ∀ dir ∈ draft.dir?, dir.IsText

theorem readProjectField_keeps (key : Toml.Key) (node : Toml.Node)
    (noted result : Noted EntryDraft) (start : noted.value.HasTexts)
    (reads : readProjectField key node noted = .ok result) : result.value.HasTexts := by
  unfold readProjectField at reads
  split_ifs at reads
  · obtain ⟨name, -, rfl⟩ := Noted.set_eq_ok_iff.1 reads
    exact start
  · obtain ⟨path, read, rfl⟩ := Noted.set_eq_ok_iff.1 reads
    exact ⟨readPath_isText read, start.2⟩
  · obtain ⟨path, read, rfl⟩ := Noted.set_eq_ok_iff.1 reads
    refine ⟨start.1, fun dir member => ?_⟩
    obtain rfl := Option.some.inj member
    exact readPath_isText read
  · obtain rfl := Except.ok.inj reads
    exact start

theorem readItemPath?_isText {items : List Toml.Node} {path? : Option Path}
    (reads : readItemPath? items = .ok path?) : ∀ path ∈ path?, path.IsText := by
  intro path member
  unfold readItemPath? at reads
  split at reads
  · obtain rfl := Except.ok.inj reads
    simp at member
  · split at reads
    · obtain rfl := Except.ok.inj reads
      obtain rfl := Option.some.inj member
      exact readPath_isText ‹_›
    · simp at reads

theorem readProjectItems_hasTexts {span : Toml.Span} {items : List Toml.Node}
    {entry : ProjectEntry} (reads : readProjectItems span items = .ok entry) : entry.HasTexts := by
  cases items with
  | nil => simp [readProjectItems] at reads
  | cons first rest =>
      simp only [readProjectItems] at reads
      cases name : readString .text first with
      | error fault => simp [name] at reads
      | ok name' =>
          cases sub : readItemPath? rest with
          | error fault => simp [name, sub] at reads
          | ok subDir? =>
              cases dir : readItemPath? rest.tail with
              | error fault => simp [name, sub, dir] at reads
              | ok dir? =>
                  simp only [name, sub, dir] at reads
                  obtain rfl := Except.ok.inj reads
                  refine ⟨?_, readItemPath?_isText dir⟩
                  cases subDir? with
                  | none => exact ⟨"", rfl⟩
                  | some path => exact readItemPath?_isText sub path rfl

theorem readProject_hasTexts {node : Toml.Node} {result : Noted ProjectEntry}
    (reads : readProject node = .ok result) : result.value.HasTexts := by
  unfold readProject at reads
  split at reads
  · split at reads
    · next noted read =>
        have blank : EntryDraft.blank.HasTexts := ⟨⟨"", rfl⟩, by simp [EntryDraft.blank]⟩
        have kept := readEntries_keeps EntryDraft.HasTexts readProjectField_keeps blank read
        unfold EntryDraft.finish at reads
        split at reads
        · obtain rfl := Except.ok.inj reads
          exact kept
        · simp at reads
    · simp at reads
  · split at reads
    · next entry read =>
        obtain rfl := Except.ok.inj reads
        exact readProjectItems_hasTexts read
    · simp at reads
  · simp at reads
  · simp [wrongType] at reads

theorem readProjectList_hasTexts {nodes : List Toml.Node} {result : Noted (List ProjectEntry)}
    (reads : readProjectList nodes = .ok result) : ∀ entry ∈ result.value, entry.HasTexts := by
  induction nodes generalizing result with
  | nil =>
      obtain rfl := Except.ok.inj reads
      simp [Noted.clean]
  | cons node rest ih =>
      simp only [readProjectList] at reads
      cases first : readProject node with
      | error fault => simp [first] at reads
      | ok entry =>
          cases others : readProjectList rest with
          | error fault => simp [first, others] at reads
          | ok more =>
              simp only [first, others] at reads
              obtain rfl := Except.ok.inj reads
              intro e member
              rcases List.mem_cons.1 member with rfl | member
              · exact readProject_hasTexts first
              · exact ih others e member

theorem readProjects_hasTexts {node : Toml.Node} {result : Noted (List ProjectEntry)}
    (reads : readProjects node = .ok result) : ∀ entry ∈ result.value, entry.HasTexts := by
  unfold readProjects at reads
  split at reads
  · exact readProjectList_hasTexts reads
  · exact readProjectList_hasTexts reads
  · simp [wrongType] at reads

theorem readEntry_keeps (key : Toml.Key) (node : Toml.Node) (noted result : Noted Manifest)
    (start : noted.value.HasTexts) (reads : readEntry key node noted = .ok result) :
    result.value.HasTexts := by
  unfold readEntry at reads
  split_ifs at reads
  · obtain ⟨path, read, rfl⟩ := Noted.set_eq_ok_iff.1 reads
    exact ⟨readPath_isText read, start.2⟩
  · obtain ⟨level, -, rfl⟩ := Noted.merge_eq_ok_iff.1 reads
    exact start
  · obtain ⟨projects, read, rfl⟩ := Noted.merge_eq_ok_iff.1 reads
    exact ⟨start.1, readProjects_hasTexts read⟩
  · obtain rfl := Except.ok.inj reads
    exact start

/-- The manifest in the entries of a document has texts for paths. -/
theorem ofEntries_hasTexts {entries : Toml.Entries} {result : Noted Manifest}
    (reads : ofEntries entries = .ok result) : result.value.HasTexts := by
  have start : blank.HasTexts := ⟨Path.isText_ofString _, by simp [blank]⟩
  exact readEntries_keeps HasTexts readEntry_keeps start reads

/-- A manifest that is loaded has texts for paths, and its warnings name the file it is from. -/
theorem load_hasTexts {tree : FileTree} {path : Path} {loaded : Loaded}
    (loads : load tree path = .ok loaded) :
    loaded.manifest.HasTexts ∧ ∀ warning ∈ loaded.warnings, warning.file = path := by
  unfold load at loads
  split at loads
  · next text read =>
      unfold ofText at loads
      split at loads
      · simp at loads
      · split at loads
        · simp at loads
        · next noted shape =>
            obtain rfl := Except.ok.inj loads
            refine ⟨ofEntries_hasTexts shape, fun warning member => ?_⟩
            obtain ⟨key, -, rfl⟩ := List.mem_map.1 member
            rfl
  · simp at loads

theorem isText_baseDir {path : Path} (text : path.IsText) : (baseDir path).IsText := by
  unfold baseDir
  cases parent : path.parent? with
  | none => exact Path.isText_ofString _
  | some q => exact text.parent? parent

variable {manifest : Manifest} {base : Path}

theorem toProject_hasTexts (texts : manifest.HasTexts) (located : base.IsText)
    {entry : ProjectEntry} (declared : entry.HasTexts) :
    (manifest.toProject base entry).HasTexts := by
  refine ⟨?_, declared.1, located.join texts.1⟩
  cases dir : entry.dir? with
  | none => simpa [toProject, dir] using located
  | some d => simpa [toProject, dir] using located.join (declared.2 d dir)

/-- The projects that a manifest resolves to have texts for directories. -/
theorem resolve_hasTexts {path : Path} (texts : manifest.HasTexts) (located : path.IsText)
    {names : List String} {projects : List Project}
    (resolved : manifest.resolve path names = .ok projects) :
    ∀ project ∈ projects, project.HasTexts := by
  obtain ⟨entries, chosen, rfl⟩ := resolve_eq_ok_iff.1 resolved
  intro project member
  obtain ⟨entry, picked, rfl⟩ := List.mem_map.1 member
  have declared := texts.2 entry (chosen.declared entry picked)
  exact toProject_hasTexts texts (isText_baseDir located) declared

end Manifest
end WasmBuild
