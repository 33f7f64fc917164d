import WasmBuild.Proofs.Manifest.Resolution
import WasmBuild.Proofs.Path.Joining

/-!
# Manifests seen from elsewhere

A manifest that is named from another directory resolves to the same projects, seen from there. The
selection picks the same entries, and every directory of a project is a chain of joins that starts
at the directory of the manifest, so it moves as that directory does.
-/
namespace WasmBuild

/-- Whether a path names the place that another one names below a base. -/
def Path.MovesTo (base p moved : Path) : Prop := moved.components = (base.join p).components

/-- What is joined to a path moves with it. -/
theorem Path.MovesTo.join {base p moved : Path} (moves : base.MovesTo p moved) (child : Path) :
    base.MovesTo (p.join child) (moved.join child) := by
  rw [MovesTo, ← join_assoc]
  exact components_join_congr moves child

/-- Whether a project is another one, with its directories seen from a base. -/
structure Project.MovesTo (base : Path) (project moved : Project) : Prop where
  name : moved.name = project.name
  subDir : moved.subDir = project.subDir
  sourceDir : base.MovesTo project.sourceDir moved.sourceDir
  outputDir : base.MovesTo project.outputDir moved.outputDir

namespace Manifest

theorem baseDir_movesTo (base : Path) {path : Path} {file : Bytes}
    (named : path.fileName? = some file) :
    base.MovesTo (baseDir path) (baseDir (base.join path)) := by
  obtain ⟨parent, found, -⟩ := Path.parent?_of_fileName? named
  obtain ⟨above, found', same⟩ := Path.parent?_join base named found
  have here : baseDir path = parent := by rw [baseDir, found, Option.getD_some]
  have there : baseDir (base.join path) = above := by rw [baseDir, found', Option.getD_some]
  rw [here, there]
  exact same

/-- The project of an entry moves with the directory that its manifest lies in. -/
theorem toProject_movesTo {base dir moved : Path} (moves : base.MovesTo dir moved)
    (manifest : Manifest) (entry : ProjectEntry) :
    Project.MovesTo base (manifest.toProject dir entry) (manifest.toProject moved entry) := by
  have home : base.MovesTo (manifest.toProject dir entry).dir
      (manifest.toProject moved entry).dir := by
    cases own : entry.dir? with
    | none => simpa [toProject, own] using moves
    | some away => simpa [toProject, own] using moves.join away
  have sources := ((home.join (.ofString "src")).join (.ofString entry.name)).join entry.subDir
  have outputs := (moves.join manifest.outputBase).join (.ofString entry.name)
  exact ⟨rfl, rfl, sources, outputs⟩

/-- A manifest that lies at a path which ends in a name is accepted below any base exactly if it is
accepted as it stands, for any selection. The projects are then the same one by one, with their
source and output directories seen from the base, whichever of the paths involved are absolute,
empty, or written with idle segments. -/
theorem resolve_join (manifest : Manifest) (selected : List String) (base : Path) {path : Path}
    {file : Bytes} (named : path.fileName? = some file) :
    ((∃ moved, manifest.resolve (base.join path) selected = .ok moved) ↔
      ∃ projects, manifest.resolve path selected = .ok projects) ∧
    ∀ projects moved, manifest.resolve path selected = .ok projects →
      manifest.resolve (base.join path) selected = .ok moved →
      List.Forall₂ (Project.MovesTo base) projects moved := by
  have moves := baseDir_movesTo base named
  refine ⟨⟨?_, ?_⟩, fun projects moved here there => ?_⟩
  · rintro ⟨moved, there⟩
    obtain ⟨entries, chosen, -⟩ := resolve_eq_ok_iff.1 there
    exact ⟨_, resolve_eq_ok_iff.2 ⟨entries, chosen, rfl⟩⟩
  · rintro ⟨projects, here⟩
    obtain ⟨entries, chosen, -⟩ := resolve_eq_ok_iff.1 here
    exact ⟨_, resolve_eq_ok_iff.2 ⟨entries, chosen, rfl⟩⟩
  · obtain ⟨entries, chosen, rfl⟩ := resolve_eq_ok_iff.1 here
    obtain ⟨entries', chosen', rfl⟩ := resolve_eq_ok_iff.1 there
    obtain rfl : entries = entries' := chosen.unique chosen'
    rw [List.forall₂_map_left_iff, List.forall₂_map_right_iff, List.forall₂_same]
    exact fun entry _ => toProject_movesTo moves manifest entry

/-- A manifest with one project beside it and one that lies elsewhere and is named by an absolute
path. -/
def scattered : Manifest where
  outputBase := .ofString "./out/"
  verbosity := .normal
  projects := [⟨"fib", .ofString "c", none⟩, ⟨"/lcm", ⟨[]⟩, some (.ofString "../lib/.")⟩]

theorem resolve_join_scattered :
    ∃ projects moved,
      scattered.resolve (.ofString "./suite//emproj.toml") ["/lcm", "fib", "/lcm"] = .ok projects ∧
      scattered.resolve ((Path.ofString "up/.").join (.ofString "./suite//emproj.toml"))
        ["/lcm", "fib", "/lcm"] = .ok moved ∧
      projects.map Project.sourceDir =
        [.ofString "/lcm/", .ofString "./suite/src/fib/c", .ofString "/lcm/"] ∧
      moved.map Project.outputDir =
        [.ofString "/lcm", .ofString "up/././suite/./out/fib", .ofString "/lcm"] ∧
      List.Forall₂ (Project.MovesTo (.ofString "up/.")) projects moved := by
  have named : (Path.ofString "./suite//emproj.toml").fileName? =
      some (Utf8.encode "emproj.toml") := by decide
  obtain ⟨-, moves⟩ := resolve_join scattered ["/lcm", "fib", "/lcm"] (.ofString "up/.") named
  exact ⟨_, _, rfl, rfl, by decide, by decide, moves _ _ rfl rfl⟩

end Manifest
end WasmBuild
