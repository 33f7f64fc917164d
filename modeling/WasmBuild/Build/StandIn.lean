import WasmBuild.Build.Compiler
import WasmBuild.FileTree.Write

/-!
# A stand-in for the compiler

Running a compiler that is a script of the file tree. Every call is added to a log in the working
directory, as one line of its arguments, before the script prints and ends.
-/
namespace WasmBuild.Build.StandIn

def logPath : Path := .ofString "emcc-calls.log"

/-- The script that an invocation starts, or why it cannot be started. A program without a
separator in its name is looked for elsewhere and not found. -/
def launch (tree : FileTree) (invocation : Invocation) : Except FileError Script :=
  if invocation.program.bytes.contains 0 || invocation.args.any (·.contains 0) then
    .error .nulInArgument
  else if !invocation.program.bytes.contains separator then .error .notFound
  else match tree.find invocation.program with
    | .error fault => .error fault
    | .ok (_, .file _ true (some script)) => .ok script
    | .ok (_, .file _ true none) => .error .notExecutable
    | .ok _ => .error .permissionDenied

def logLine (invocation : Invocation) : Bytes :=
  List.intercalate [0x20] invocation.args ++ [0x0A]

/-- The log after a call. -/
def extendedLog (tree : FileTree) (invocation : Invocation) : Bytes :=
  match tree.contentAt logPath with
  | .ok log => log ++ logLine invocation
  | .error _ => logLine invocation

/-- How a script ends when the log has a number of lines. -/
def ending (script : Script) (lines : Nat) : Except CompileError Unit :=
  if (script.quietCalls.map (decide <| lines ≤ ·)).getD false then .ok ()
  else if script.isKilled then .error (.exit none)
  else if script.exitCode = 0 then .ok ()
  else .error (.exit (some script.exitCode))

/-- What a script prints. -/
def printed (script : Script) : List Printed :=
  (script.say.map fun text => ⟨.out, text ++ "\n"⟩).toList ++
    (script.warn.map fun text => ⟨.err, text ++ "\n"⟩).toList

/-- The compiler that runs the scripts of the tree. -/
def compiler : Compiler := fun _ invocation tree =>
  match launch tree invocation with
  | .error fault =>
    ⟨.error (.launch (invocation.program.display ++ ": " ++ fault.message)), tree, [], 0⟩
  | .ok script =>
    let log := extendedLog tree invocation
    let logged := match tree.putFile logPath log with
      | .ok logged => logged
      | .error _ => tree
    ⟨ending script (log.count 0x0A), logged, printed script, 0⟩

end WasmBuild.Build.StandIn
