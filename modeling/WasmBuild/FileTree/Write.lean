import WasmBuild.FileTree.Locate

/-!
# Changing a file tree

Files and links are written where a path leads, and directories are created one at a time or with
all that are missing above them. A refused operation on one entry changes nothing; creating several
directories keeps those it made before it failed.
-/
namespace WasmBuild.FileTree

/-- The tree after writing a file; the parent has to exist. A file that was there keeps its right
to be executed. -/
def putFile (tree : FileTree) (path : Path) (content : Bytes) : Except FileError FileTree :=
  match tree.locate true path with
  | .ok (.taken location (.file _ executable _)) =>
    .ok (tree.overwrite location (.file content executable none))
  | .ok (.taken _ .directory) => .error .isADirectory
  | .ok (.taken _ (.link _)) => .error .tooManyLinks
  | .ok (.free dir name) => .ok (tree.insert dir name (.file content false none))
  | .error fault => .error fault

/-- The tree after writing a script as a file that may or may not be executed. -/
def writeScript (tree : FileTree) (path : Path) (content : Bytes) (script : Script)
    (executable : Bool) : Except FileError FileTree :=
  match tree.putFile path content with
  | .ok written =>
    match written.find path with
    | .ok (location, _) =>
      .ok (written.overwrite location (.file content executable (some script)))
    | .error fault => .error fault
  | .error fault => .error fault

def createLink (tree : FileTree) (path target : Path) : Except FileError FileTree :=
  match tree.locate false path with
  | .ok (.taken _ _) => .error .alreadyExists
  | .ok (.free dir name) => .ok (tree.insert dir name (.link target))
  | .error fault => .error fault

/-- The tree after removing what a path names, without following a link in last place. -/
def removeAt (tree : FileTree) (path : Path) : Except FileError FileTree :=
  match tree.locate false path with
  | .ok (.taken location _) => .ok (tree.remove location)
  | .ok (.free _ _) => .error .notFound
  | .error fault => .error fault

/-- The directory that segments lead to. -/
def directoryAt (tree : FileTree) (path : Path) (segments : List Bytes) :
    Except FileError Location :=
  match tree.followLinks true maxLinks (startOf path tree.workingDir) (segments ++ [[]]) with
  | .ok (.taken location _) => .ok location
  | .ok (.free _ _) => .error .notFound
  | .error fault => .error fault

/-- The tree after creating one directory. Separators at the end of the path are ignored. A path
that ends in `.` or `..` names a directory that exists already, if it names anything. -/
def createDirectory (tree : FileTree) (path : Path) : Except FileError FileTree :=
  match pathFault? path with
  | some fault => .error fault
  | none =>
    let segments := (path.segments.reverse.dropWhile List.isEmpty).reverse
    match segments.getLast? with
    | none => .error .alreadyExists
    | some last =>
      match tree.directoryAt path segments.dropLast with
      | .error fault => .error fault
      | .ok dir =>
        if isIdleSegment last || last == dotDotSegment then .error .alreadyExists
        else if last.length > maxNameLength then .error .nameTooLong
        else match Name.ofBytes? last with
          | none => .error .notFound
          | some name =>
            match tree.entryAt? (dir ++ [name]) with
            | some _ => .error .alreadyExists
            | none => .ok (tree.insert dir name .directory)

/-- The outcome of creating directories: success or the reason against it, and the tree that is
left in either case. -/
structure Creation where
  result : Except FileError Unit
  tree : FileTree

/-- Creating a directory that may be there already. -/
def createOrKeep (tree : FileTree) (path : Path) : Creation :=
  match tree.createDirectory path with
  | .ok made => ⟨.ok (), made⟩
  | .error fault => ⟨if tree.isDirectory path then .ok () else .error fault, tree⟩

/-- Creates the first path of a chain of ancestors. Where it cannot be created because something
above it is missing, the rest of the chain is created first. The empty path needs nothing. -/
def createAlong (tree : FileTree) : List Path → Creation
  | [] => ⟨.ok (), tree⟩
  | path :: above =>
    if path.bytes.isEmpty then ⟨.ok (), tree⟩
    else match tree.createDirectory path with
      | .ok made => ⟨.ok (), made⟩
      | .error .notFound =>
        let upper := tree.createAlong above
        match upper.result with
        | .ok () => upper.tree.createOrKeep path
        | .error fault => ⟨.error fault, upper.tree⟩
      | .error fault => ⟨if tree.isDirectory path then .ok () else .error fault, tree⟩

/-- Makes sure that a path leads to a directory, creating what is missing. -/
def ensureDirectory (tree : FileTree) (path : Path) : Creation := tree.createAlong path.ancestors

end WasmBuild.FileTree
