import WasmBuild.FileTree.Walk
import WasmBuild.Project
import WasmBuild.Toolchain

/-!
# Plans

What a build would do, without doing it: every unit below the source root, paired with the
artifacts it produces. Planning stops at the first name that has no artifacts.
-/
namespace WasmBuild.Build

structure UnitPlan where
  source : SourceUnit
  artifacts : Artifacts
  deriving Repr, DecidableEq

def UnitPlan.derive (outputRoot : Path) (source : SourceUnit) : Except Failure UnitPlan :=
  match Artifacts.derive outputRoot source.fileName with
  | .ok artifacts => .ok ⟨source, artifacts⟩
  | .error failure => .error failure

def planAll (outputRoot : Path) : List SourceUnit → Except Failure (List UnitPlan)
  | [] => .ok []
  | source :: rest =>
    match UnitPlan.derive outputRoot source with
    | .error failure => .error failure
    | .ok plan =>
      match planAll outputRoot rest with
      | .error failure => .error failure
      | .ok plans => .ok (plan :: plans)

/-- The plans of all units below a source root. -/
def planUnits (tree : FileTree) (sourceRoot outputRoot : Path) : Except Failure (List UnitPlan) :=
  planAll outputRoot (tree.sources sourceRoot)

/-- The declared results of a project, whether or not they exist. -/
def declaredResults (tree : FileTree) (project : Project) : Except Failure (List Path) :=
  match planUnits tree project.sourceDir project.outputDir with
  | .ok plans => .ok (plans.map (·.artifacts.wasm))
  | .error failure => .error failure

/-- Everything that a build has to know. -/
structure Config where
  sourceRoot : Path
  outputRoot : Path
  toolchain : Toolchain
  deriving Repr, DecidableEq

def Config.ofProject (project : Project) (toolchain : Toolchain) : Config :=
  ⟨project.sourceDir, project.outputDir, toolchain⟩

end WasmBuild.Build
