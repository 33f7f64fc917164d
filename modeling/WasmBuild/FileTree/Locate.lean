import WasmBuild.FileTree.Basic
import WasmBuild.FileTree.Error

/-!
# Finding the place that a path names

A path is followed segment by segment from the root or the working directory. Every segment,
idle ones included, wants to start in a directory. Symbolic links are followed as they are met, at
most forty on one way; whether a link in last place is followed is up to the operation.
-/
namespace WasmBuild

/-- Where a path leads: to an entry, or to a free name in a directory. -/
inductive Spot where
  | taken (location : Location) (entry : Entry)
  | free (dir : Location) (name : Name)
  deriving Repr, DecidableEq

def maxNameLength : Nat := 255

def maxPathLength : Nat := 4095

/-- The number of links that may be followed on one way. -/
def maxLinks : Nat := 40

namespace FileTree

/-- Follows segments from a location. A link on the way is handed to `onLink`, together with its
directory and the segments that remain. -/
def follow (tree : FileTree) (followLast : Bool)
    (onLink : Location → Path → List Bytes → Except FileError Spot) :
    Location → List Bytes → Except FileError Spot
  | here, [] =>
    match tree.entryAt? here with
    | some entry => .ok (.taken here entry)
    | none => .error .notFound
  | here, segment :: rest =>
    if !tree.isDirectoryAt here then .error .notADirectory
    else if isIdleSegment segment then follow tree followLast onLink here rest
    else if segment = dotDotSegment then follow tree followLast onLink here.dropLast rest
    else if segment.length > maxNameLength then .error .nameTooLong
    else match Name.ofBytes? segment with
      | none => .error .notFound
      | some name =>
        match tree.entryAt? (here ++ [name]) with
        | none => if rest.isEmpty then .ok (.free here name) else .error .notFound
        | some (.link target) =>
          if rest.isEmpty && !followLast then .ok (.taken (here ++ [name]) (.link target))
          else onLink here target rest
        | some _ => follow tree followLast onLink (here ++ [name]) rest

/-- The location from which the segments of a path are followed. -/
def startOf (path : Path) (dir : Location) : Location := if path.isAbsolute then [] else dir

/-- Follows segments, with a number of links that may still be met. -/
def followLinks (tree : FileTree) (followLast : Bool) :
    Nat → Location → List Bytes → Except FileError Spot
  | 0 => follow tree followLast fun _ _ _ => .error .tooManyLinks
  | links + 1 => follow tree followLast fun here target rest =>
    followLinks tree followLast links (startOf target here) (target.segments ++ rest)

/-- What is wrong with a path as such: it holds a NUL, it is empty, or it is too long. -/
def pathFault? (path : Path) : Option FileError :=
  if path.bytes.contains 0 then some .nulInName
  else if path.bytes.isEmpty then some .notFound
  else if path.bytes.length > maxPathLength then some .nameTooLong
  else none

/-- The place that a path names. -/
def locate (tree : FileTree) (followLast : Bool) (path : Path) : Except FileError Spot :=
  match pathFault? path with
  | some fault => .error fault
  | none => tree.followLinks followLast maxLinks (startOf path tree.workingDir) path.segments

/-- The entry that a path leads to when every link is followed, with its location. -/
def find (tree : FileTree) (path : Path) : Except FileError (Location × Entry) :=
  match tree.locate true path with
  | .ok (.taken location entry) => .ok (location, entry)
  | .ok (.free _ _) => .error .notFound
  | .error fault => .error fault

def isDirectory (tree : FileTree) (path : Path) : Bool :=
  match tree.find path with
  | .ok (_, entry) => entry.isDirectory
  | .error _ => false

def isFile (tree : FileTree) (path : Path) : Bool :=
  match tree.find path with
  | .ok (_, entry) => entry.isFile
  | .error _ => false

/-- The content of the file that a path leads to. -/
def contentAt (tree : FileTree) (path : Path) : Except FileError Bytes :=
  match tree.find path with
  | .ok (_, .file content _ _) => .ok content
  | .ok (_, .directory) => .error .isADirectory
  | .ok (_, .link _) => .error .tooManyLinks
  | .error fault => .error fault

def readText (tree : FileTree) (path : Path) : Except FileError String :=
  match tree.contentAt path with
  | .ok content =>
    match Utf8.decode? content with
    | some text => .ok text
    | none => .error .illFormedContent
  | .error fault => .error fault

end FileTree
end WasmBuild
