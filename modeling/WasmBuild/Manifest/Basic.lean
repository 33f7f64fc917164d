import WasmBuild.Failure
import WasmBuild.Path
import WasmBuild.Project
import WasmBuild.Verbosity

/-!
# Manifests

A manifest declares projects and where their artifacts go. Its paths are relative to the directory
that the manifest lies in. Projects can be chosen by name; a name stands for the first entry that
bears it.
-/
namespace WasmBuild

/-- One declared project. -/
structure ProjectEntry where
  name : String
  subDir : Path
  dir? : Option Path
  deriving Repr, DecidableEq

structure Manifest where
  outputBase : Path
  verbosity : Verbosity
  projects : List ProjectEntry
  deriving Repr, DecidableEq

namespace Manifest

/-- The manifest that is read unless another one is named. -/
def defaultPath : Path := .ofString "emproj.toml"

/-- The output directory of a manifest that names none. -/
def defaultOutputBase : Path := .ofString "build"

/-- The directory from which the paths of a manifest start. -/
def baseDir (path : Path) : Path := path.parent?.getD (.ofString ".")

/-- The project of an entry. -/
def toProject (manifest : Manifest) (base : Path) (entry : ProjectEntry) : Project where
  name := entry.name
  dir := match entry.dir? with
    | some dir => base.join dir
    | none => base
  subDir := entry.subDir
  outputBase := base.join manifest.outputBase

def entryNamed? (manifest : Manifest) (name : String) : Option ProjectEntry :=
  manifest.projects.find? (·.name == name)

/-- The projects of some names, in the order of the names. The first name that is not declared is
reported. -/
def select (manifest : Manifest) (base : Path) : List String → Except Failure (List Project)
  | [] => .ok []
  | name :: rest =>
    match manifest.entryNamed? name with
    | none => .error (.unknownProject name)
    | some entry =>
      match manifest.select base rest with
      | .ok projects => .ok (manifest.toProject base entry :: projects)
      | .error failure => .error failure

/-- The projects to act on: all of them in the order of declaration, or those selected. A manifest
without projects is refused in either case. -/
def resolve (manifest : Manifest) (path : Path) (selected : List String) :
    Except Failure (List Project) :=
  if manifest.projects.isEmpty then .error (.noProjects path)
  else if selected.isEmpty then
    .ok (manifest.projects.map (manifest.toProject (baseDir path)))
  else manifest.select (baseDir path) selected

end Manifest
end WasmBuild
