import WasmBuild.CommandLine.Help
import WasmBuild.CommandLine.Parser
import WasmBuild.Manifest.Load
import WasmBuild.Program.Building

/-!
# The whole program

Reads the command line, loads the manifest, chooses the projects and carries out the command. A
complaint is reported last and makes the exit code one; a command line that asks for nothing that
can be done is answered with code two.
-/
namespace WasmBuild.Program

open Report CommandLine

def warningLine (warning : Manifest.Warning) : String :=
  let place := match warning.line with
    | some line => warning.file.display ++ ":" ++ toString line
    | none => warning.file.display
  let hint := match warning.suggestion with
    | some word => " (did you mean '" ++ word ++ "'?)"
    | none => ""
  "[WARN] Unknown key '" ++ warning.key ++ "' in " ++ place ++ hint

def reportWarning (json : Bool) (warning : Manifest.Warning) : List Action :=
  if json then
    emitIfWritable (.warning warning.key warning.file warning.line warning.suggestion)
  else [errLine (warningLine warning)]

/-- What loading a manifest did and found. -/
structure Preparation where
  actions : List Action
  result : Except Complaint Context

/-- Loads the manifest and chooses the projects. The level is that of the manifest, unless the
environment or the command line name another. -/
def prepare (host : Host) (tree : FileTree) (request : Request) : Preparation :=
  match Manifest.load tree request.manifest with
  | .error failure =>
    ⟨[], .error (.within (.failure failure)
      ("failed to load manifest " ++ request.manifest.display))⟩
  | .ok loaded =>
    let (manifest, complaint?) := loaded.manifest.override host.environment
    let actions := loaded.warnings.flatMap (reportWarning request.json) ++
      (complaint?.map Action.err).toList
    match manifest.resolve request.manifest request.projects with
    | .error failure => ⟨actions, .error (.failure failure)⟩
    | .ok projects =>
      ⟨actions, .ok
        { json := request.json
          verbosity := .ofCount request.verbose manifest.verbosity
          manifestPath := request.manifest
          projects := projects }⟩

/-- A command that leaves the world as it is. -/
def looking (world : Build.World) (output : Output) : Turn :=
  ⟨output.actions, output.result, world⟩

def perform (host : Host) (context : Context) (world : Build.World) : Command → Turn
  | .build => build host context world
  | .needsBuild => looking world (.forEach (reportNeed context) context.projects)
  | .clean => looking world (.forEach (reportClean context) context.projects)
  | .results => looking world (.forEach (listResults context world.tree) context.projects)
  | .sources => looking world (.forEach (listSources context world.tree) context.projects)

/-- Carries out a request. -/
def carryOut (host : Host) (world : Build.World) (request : Request) : Turn :=
  let preparation := prepare host world.tree request
  match preparation.result with
  | .error complaint => ⟨preparation.actions, .error complaint, world⟩
  | .ok context =>
    let turn := perform host context world request.command
    { turn with actions := preparation.actions ++ turn.actions }

def reportComplaint (json : Bool) (env : Environment) (complaint : Complaint) : List Action :=
  if json then emitIfWritable complaint.event
  else ((complaint.annotation? env).map Action.out).toList ++ [.err complaint.text]

/-- A finished run of the program. -/
structure Finished where
  actions : List Action
  exitCode : Nat
  world : Build.World

namespace Finished

def stdout (finished : Finished) : String := String.join (finished.actions.map Action.stdout)

def stderr (finished : Finished) : String := String.join (finished.actions.map Action.stderr)

def invocations (finished : Finished) : List Invocation :=
  finished.actions.filterMap Action.invocation?

def events (finished : Finished) : List Event := finished.actions.filterMap Action.event?

end Finished

/-- Runs the program on its arguments. -/
def run (host : Host) (world : Build.World) (args : List Bytes) : Finished :=
  match CommandLine.parse args with
  | .error stop =>
    ⟨[if stop.isComplaint then .err stop.text else .out stop.text], stop.exitCode, world⟩
  | .ok request =>
    let turn := carryOut host world request
    match turn.result with
    | .ok () => ⟨turn.actions, 0, turn.world⟩
    | .error complaint =>
      ⟨turn.actions ++ reportComplaint request.json host.environment complaint, 1, turn.world⟩

end WasmBuild.Program
