import WasmBuild.Manifest.Basic
import WasmBuild.Proofs.Build.Plans

/-!
# Output directories of the projects of a manifest

Every project has the directory of its name below the output base of its manifest. Two projects
share that directory exactly when their names, seen from the output base, lead to the same place;
among names that are a single ordinary component these are the equal names. As long as no directory
is shared, no artifact of one project has the path of an artifact of another.
-/
namespace WasmBuild

namespace Build

/-- Whether building two projects, each among some files, can never write to the same path. -/
def OutputsApart (p q : Project) : Prop :=
  ∀ (tree tree' : FileTree), ∀ plan ∈ plansOf tree p, ∀ plan' ∈ plansOf tree' q,
    ∀ path ∈ plan.outputs, ∀ path' ∈ plan'.outputs, path.components ≠ path'.components

/-- Projects with different output directories never write to the same path. -/
theorem outputsApart_of_outputDir {p q : Project}
    (apart : p.outputDir.components ≠ q.outputDir.components) : OutputsApart p q := by
  intro tree tree' plan planned plan' planned' path written path' written' same
  obtain ⟨unit, found, rfl⟩ := List.mem_map.1 planned
  obtain ⟨unit', found', rfl⟩ := List.mem_map.1 planned'
  obtain ⟨name, inside⟩ :=
    components_of_mem_outputs (FileTree.not_mem_separator_of_mem_sources found) written
  obtain ⟨name', inside'⟩ :=
    components_of_mem_outputs (FileTree.not_mem_separator_of_mem_sources found') written'
  rw [inside, inside'] at same
  exact apart (List.append_inj_left' same rfl)

end Build

namespace Manifest

variable {manifest : Manifest} {path : Path} {projects : List Project}

/-- The directory below which a manifest puts the output directories of its projects. -/
def outputRoot (manifest : Manifest) (path : Path) : Path :=
  (baseDir path).join manifest.outputBase

/-- What an entry's name leads to from the output root. -/
def destination (manifest : Manifest) (path : Path) (entry : ProjectEntry) : List Component :=
  Path.seenFrom (manifest.outputRoot path) (.ofString entry.name)

theorem components_outputDir_toProject (entry : ProjectEntry) :
    (manifest.toProject (baseDir path) entry).outputDir.components =
      manifest.destination path entry :=
  Path.components_join_eq_seenFrom _ _

/-- Without a selection, the projects are those of the entries, in their order. -/
theorem resolve_all (accepted : manifest.resolve path [] = .ok projects) :
    projects = manifest.projects.map (manifest.toProject (baseDir path)) := by
  unfold resolve at accepted
  split_ifs at accepted
  · exact (Except.ok.inj accepted).symm
  · contradiction

/-- The projects of a manifest have output directories of their own exactly when the names of its
entries lead to different places from the output root. Of plain names no two may be equal, and that
is enough. Projects with output directories of their own never overwrite an artifact of another. -/
theorem outputDirs_apart_iff (accepted : manifest.resolve path [] = .ok projects) :
    (projects.Pairwise (·.outputDir.components ≠ ·.outputDir.components) ↔
      manifest.projects.Pairwise
        (manifest.destination path · ≠ manifest.destination path ·)) ∧
    ((∀ entry ∈ manifest.projects, (Path.ofString entry.name).IsPlain) →
      (projects.Pairwise (·.outputDir.components ≠ ·.outputDir.components) ↔
        (manifest.projects.map ProjectEntry.name).Nodup)) ∧
    (projects.Pairwise (·.outputDir.components ≠ ·.outputDir.components) →
      projects.Pairwise Build.OutputsApart) := by
  have byDestination : projects.Pairwise (·.outputDir.components ≠ ·.outputDir.components) ↔
      manifest.projects.Pairwise
        (manifest.destination path · ≠ manifest.destination path ·) := by
    rw [resolve_all accepted, List.pairwise_map]
    simp only [components_outputDir_toProject]
  refine ⟨byDestination, fun plain => ?_, fun apart => ?_⟩
  · rw [byDestination, List.Nodup, List.pairwise_map]
    refine List.Pairwise.iff_of_mem fun {e f} member member' => not_congr ?_
    rw [destination, destination, (plain e member).seenFrom, (plain f member').seenFrom]
    constructor
    · intro same
      have last := List.append_cancel_left same
      simp only [List.cons.injEq, Component.named.injEq, and_true] at last
      exact Utf8.encode_injective last
    · intro same
      rw [same]
  · exact apart.imp Build.outputsApart_of_outputDir

/-- A manifest with three projects, one of which is named by an absolute path. -/
def threeProjects : Manifest where
  outputBase := defaultOutputBase
  verbosity := .normal
  projects := [⟨"t", ⟨[]⟩, none⟩, ⟨"u", .ofString "t", none⟩, ⟨"/t", ⟨[]⟩, some (.ofString "t")⟩]

theorem outputDirs_apart_iff_three_projects :
    ∃ projects, threeProjects.resolve defaultPath [] = .ok projects ∧ projects.length = 3 ∧
      projects.Pairwise (·.outputDir.components ≠ ·.outputDir.components) ∧
      projects.Pairwise Build.OutputsApart := by
  let projects := threeProjects.projects.map (threeProjects.toProject (baseDir defaultPath))
  have accepted : threeProjects.resolve defaultPath [] = .ok projects := rfl
  obtain ⟨byDestination, -, outputs⟩ := outputDirs_apart_iff accepted
  have apart := byDestination.2 (by decide)
  exact ⟨projects, accepted, rfl, apart, outputs apart⟩

/-- A manifest with two entries of one name, each with sources in a directory of its own. -/
def equalNames : Manifest where
  outputBase := defaultOutputBase
  verbosity := .normal
  projects := [⟨"t", ⟨[]⟩, some (.ofString "one")⟩, ⟨"t", ⟨[]⟩, some (.ofString "two")⟩]

/-- A tree in which either directory holds a source file of the same name. -/
def equalNamesTree : FileTree :=
  let directory (dir : String) : Location :=
    [dir, "src", "t"].filterMap fun name => Name.ofBytes? (Utf8.encode name)
  let source (tree : FileTree) (dir : String) : FileTree :=
    tree.insert (directory dir) ⟨Utf8.encode "a.c", by decide⟩ (.file [] false none)
  let tree := (FileTree.empty.ensureDirectory (.ofString "one/src/t")).tree
  source (source (tree.ensureDirectory (.ofString "two/src/t")).tree "one") "two"

/-- Entries of one name share their output directory, and there the artifacts of the first project
are overwritten by those of the second. -/
theorem outputDir_shared_by_equal_names :
    ∃ p q, equalNames.resolve defaultPath [] = .ok [p, q] ∧
      p.sourceDir.components ≠ q.sourceDir.components ∧
      p.outputDir.components = q.outputDir.components ∧ ¬ Build.OutputsApart p q := by
  refine ⟨_, _, rfl, by decide, by decide, fun apart => ?_⟩
  have planned (entry : ProjectEntry) (declared : entry ∈ equalNames.projects) :
      ∃ plan ∈ Build.plansOf equalNamesTree (equalNames.toProject (baseDir defaultPath) entry),
        .ofString "build/t/a.js" ∈ plan.outputs := by
    revert entry
    decide +kernel
  obtain ⟨plan, mine, written⟩ := planned _ (.head _)
  obtain ⟨plan', other, overwritten⟩ := planned _ (.tail _ (.head _))
  exact apart _ _ plan mine plan' other _ written _ overwritten rfl

end Manifest
end WasmBuild
