import WasmBuild.FileTree.Write
import WasmBuild.Program.Run

/-!
# The command

The outer layer: what a run has to know of the machine is read into a file tree, the program is run
on it, and what it did is printed. The manifest is read first, and then the source and output
directories of the projects that it chooses. No process is started from here, so every compiler call
is answered by a launch error.
-/
namespace WasmBuild.Outer

/-- The variables that a run may ask for. -/
def variableNames : List String :=
  [Toolchain.variableName, Verbosity.choice.variableName, "TERM"] ++ Terminal.ciVariables ++
    Terminal.localeVariables

def readEnvironment : IO Environment := do
  let bindings ← variableNames.filterMapM fun name => do
    return (← IO.getEnv name).map fun value => (name, Utf8.encode value)
  return ⟨bindings⟩

/-- The tree after an operation, or the tree before it if the operation was refused. -/
def orSame (tree : FileTree) : Except FileError FileTree → FileTree
  | .ok changed => changed
  | .error _ => tree

/-- The tree with a file and the directories above it. -/
def withFile (tree : FileTree) (path : Path) (content : Bytes) : FileTree :=
  let tree := (tree.ensureDirectory (path.parent?.getD ⟨[]⟩)).tree
  orSame tree (tree.putFile path content)

/-- Adds what stands at a path of the machine, down to the given depth. Links to directories are
left out, as no walk enters them. -/
def scan : (depth : Nat) → Path → FileTree → IO FileTree
  | 0, _, tree => return tree
  | depth + 1, path, tree => do
    let place := (← IO.currentDir) / path.display
    if ← place.isDir then
      let mut tree := (tree.ensureDirectory path).tree
      for entry in ← place.readDir do
        let isLink := (← entry.path.symlinkMetadata).type == .symlink
        if !(isLink && (← entry.path.isDir)) then
          tree ← scan depth (path.child (Utf8.encode entry.fileName)) tree
      return tree
    else if ← place.pathExists then return withFile tree path []
    else return tree

/-- The working directory of the machine, empty but for the file of the manifest. -/
def readStart (manifest : Path) : IO FileTree := do
  let here := Path.ofString (← IO.currentDir).toString
  let tree := (FileTree.empty.ensureDirectory here).tree
  let tree := match tree.find here with
    | .ok (location, _) => { tree with workingDir := location }
    | .error _ => tree
  match ← (IO.FS.readBinFile manifest.display).toBaseIO with
  | .ok content => return withFile tree manifest content.toList
  | .error _ => return tree

/-- The depth down to which directories are read. -/
def maxDepth : Nat := 64

/-- Adds the source and output directories of the projects that a request chooses. -/
def readProjects (host : Program.Host) (request : CommandLine.Request) (tree : FileTree) :
    IO FileTree := do
  match (Program.prepare host tree request).result with
  | .error _ => return tree
  | .ok context =>
    let mut tree := tree
    for project in context.projects do
      tree ← scan maxDepth project.sourceDir tree
      tree ← scan 1 project.outputDir tree
    return tree

/-- Creates the directories of a tree that another tree lacks. -/
def createDirectories (before after : FileTree) : IO Unit := do
  for (location, entry) in after.entries do
    if entry.isDirectory && !before.isDirectoryAt location then
      IO.FS.createDirAll (FileTree.pathBelow (.ofString "/") location).display

/-- A compiler that cannot be launched. -/
def unavailable : Build.Compiler := fun _ invocation tree =>
  ⟨.error (.launch (invocation.program.display ++ ": processes are not available")), tree, [], 0⟩

end WasmBuild.Outer

open WasmBuild in
def main (args : List String) : IO UInt32 := do
  let stderr ← IO.getStderr
  let host : Program.Host :=
    ⟨← Outer.readEnvironment, ← stderr.isTty, Outer.unavailable⟩
  let args := args.map Utf8.encode
  let tree ← match CommandLine.parse args with
    | .error _ => pure FileTree.empty
    | .ok request => Outer.readProjects host request (← Outer.readStart request.manifest)
  let finished := Program.run host ⟨tree, 0, 0⟩ args
  Outer.createDirectories tree finished.world.tree
  (← IO.getStdout).putStr finished.stdout
  stderr.putStr finished.stderr
  return finished.exitCode.toUInt32
