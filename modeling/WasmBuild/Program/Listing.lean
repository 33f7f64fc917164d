import WasmBuild.Build.Session
import WasmBuild.CommandLine.Basic
import WasmBuild.Program.Action
import WasmBuild.Report.Console

/-!
# Commands that only look

Listing results and sources, asking whether a build is needed, and cleaning. None of them calls the
compiler or changes a file.
-/
namespace WasmBuild.Program

open Report

/-- What every command knows once the manifest is loaded. -/
structure Context where
  json : Bool
  verbosity : Verbosity
  manifestPath : Path
  projects : List Project
  deriving Repr, DecidableEq

def listResults (context : Context) (tree : FileTree) (project : Project) : Output :=
  match Build.declaredResults tree project with
  | .error failure => .failed failure
  | .ok paths =>
    .forEach (fun path =>
      if context.json then .emit (.result project.name path)
      else .one (outLine path.display)) paths

def sourceEvent (project : Project) (plan : Build.UnitPlan) : Event :=
  .source project.name plan.source.path plan.artifacts.js plan.artifacts.wasm

def sourceLine (plan : Build.UnitPlan) : String :=
  "  " ++ plan.source.path.display ++ " -> " ++ plan.artifacts.js.display ++ ", " ++
    plan.artifacts.wasm.display

/-- The line above the units of a project. -/
def sourceHeading (project : Project) (count : Nat) : String :=
  project.name ++ " (" ++ counted count "source" ++ ")"

def listSources (context : Context) (tree : FileTree) (project : Project) : Output :=
  match Build.planUnits tree project.sourceDir project.outputDir with
  | .error failure => .failed failure
  | .ok plans =>
    if context.json then .forEach (fun plan => .emit (sourceEvent project plan)) plans
    else ⟨outLine (sourceHeading project plans.length) ::
      plans.map (fun plan => outLine (sourceLine plan)), .ok ()⟩

/-- Whether a project has to be built. -/
def reportNeed (context : Context) (project : Project) : Output :=
  let check := Build.Task.initial.needsBuild project
  if context.json then .emit (.needsBuild project.name check.required check.reason)
  else .one (outLine (project.name ++
    if check.required then ": build required" else ": up to date"))

/-- Cleaning a project, which removes nothing. -/
def reportClean (context : Context) (project : Project) : Output :=
  match Build.Task.initial.clean project with
  | .error failure => .failed failure
  | .ok () =>
    if context.json then .emit (.clean project.name 0)
    else if Verbosity.quiet < context.verbosity then
      .one (outLine (project.name ++ ": nothing removed (artifacts in " ++
        project.outputDir.display ++ " are kept)"))
    else .done

end WasmBuild.Program
