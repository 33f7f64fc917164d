import WasmBuild.FileTree.Locate
import WasmBuild.Project

/-!
# Looking for source files

A walk lists what lies below a root: the root itself if it is a file, else every entry that is
reached through real directories. The root may be a link; links below it are listed and not
entered. A missing root has nothing below it. Names do not hide anything.
-/
namespace WasmBuild

/-- An entry met on a walk: the path under which it was met and its bare name. -/
structure Sighting where
  path : Path
  name : Bytes
  entry : Entry
  deriving Repr, DecidableEq

/-- A sighting split into directory and name. -/
def Sighting.toUnit (s : Sighting) : SourceUnit := ⟨s.path.parent?.getD ⟨[]⟩, s.name⟩

namespace FileTree

/-- The names that lead from one location down to another, if it lies strictly below. -/
def below? (root location : Location) : Option Location :=
  if root.isPrefixOf location && root.length < location.length then
    some (location.drop root.length)
  else none

/-- The path of an entry that lies some names below a root. -/
def pathBelow (root : Path) (names : Location) : Path :=
  names.foldl (fun path name => path.child name.bytes) root

/-- The sighting of an entry, where it lies below the root. -/
def sighting? (root : Path) (location : Location) (e : Location × Entry) : Option Sighting :=
  match below? location e.1 with
  | none => none
  | some names =>
    names.getLast?.map fun last => ⟨pathBelow root names, last.bytes, e.2⟩

/-- Whether a root stands for the standard input, below which there is nothing. -/
def isStandardInput (root : Path) : Bool := root.components == [.named [0x2D]]

/-- What lies below a root, in the order of the tree. -/
def walk (tree : FileTree) (root : Path) : List Sighting :=
  if isStandardInput root then []
  else match tree.find root with
    | .error _ => []
    | .ok (location, .directory) => tree.entries.filterMap (sighting? root location)
    | .ok (_, entry) => [⟨root, root.fileName?.getD root.bytes, entry⟩]

/-- Whether a sighting is a source file: its name says so, and it is a regular file or a link that
leads to one. -/
def isSource (tree : FileTree) (s : Sighting) : Bool :=
  isSourceName s.name &&
    match s.entry with
    | .file .. => true
    | .link _ => tree.isFile s.path
    | .directory => false

def sources (tree : FileTree) (root : Path) : List SourceUnit :=
  ((tree.walk root).filter tree.isSource).map Sighting.toUnit

end FileTree
end WasmBuild
