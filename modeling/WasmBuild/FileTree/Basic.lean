import WasmBuild.Path

/-!
# File trees

A file tree is a flat list of entries, each under its location: the names on the way down from the
root. No location occurs twice, and the parent of every entry is a directory. The three operations
here (adding, overwriting and removing entries) keep both facts, so a tree that is built from the
empty one has them by construction.
-/
namespace WasmBuild

/-- Whether a byte string can be the name of an entry: it is not empty, neither `.` nor `..`, and
holds no separator and no NUL. -/
def isEntryName (bytes : Bytes) : Bool :=
  !bytes.isEmpty && bytes != dotSegment && bytes != dotDotSegment &&
    !bytes.contains separator && !bytes.contains 0

/-- The name of an entry in a directory. -/
structure Name where
  bytes : Bytes
  valid : isEntryName bytes = true
  deriving Repr, DecidableEq

def Name.ofBytes? (bytes : Bytes) : Option Name :=
  if valid : isEntryName bytes = true then some ⟨bytes, valid⟩ else none

/-- The names on the way from the root to an entry. The root itself is the empty location. -/
abbrev Location := List Name

/-- What an executable file does when it is run as a compiler: it prints, then ends. While the log
of calls has at most `quietCalls` lines it ends well; afterwards it dies of a signal or exits with
its code. -/
structure Script where
  exitCode : Nat
  isKilled : Bool
  say : Option String
  warn : Option String
  quietCalls : Option Nat
  deriving Repr, DecidableEq

/-- What stands at a location. -/
inductive Entry where
  | directory
  | file (content : Bytes) (executable : Bool) (script : Option Script)
  | link (target : Path)
  deriving Repr, DecidableEq

def Entry.isDirectory : Entry → Bool
  | directory => true
  | _ => false

def Entry.isFile : Entry → Bool
  | file .. => true
  | _ => false

/-- The entries below the root and the directory from which relative paths start. -/
structure FileTree where
  entries : List (Location × Entry)
  workingDir : Location
  distinct : (entries.map Prod.fst).Nodup
  rooted : ∀ e ∈ entries, ∃ dir name, e.1 = dir ++ [name] ∧
    (dir = [] ∨ (dir, Entry.directory) ∈ entries)

namespace FileTree

/-- The tree that holds only its root. -/
def empty : FileTree where
  entries := []
  workingDir := []
  distinct := by simp
  rooted := by simp

/-- The entry at a location. The root is a directory. -/
def entryAt? (tree : FileTree) (location : Location) : Option Entry :=
  if location = [] then some .directory
  else (tree.entries.find? (·.1 = location)).map Prod.snd

theorem not_mem_of_entryAt?_eq_none {tree : FileTree} {location : Location}
    (vacant : tree.entryAt? location = none) : location ∉ tree.entries.map Prod.fst := by
  unfold entryAt? at vacant
  split at vacant
  · cases vacant
  · simp only [Option.map_eq_none_iff, List.find?_eq_none, decide_eq_true_eq] at vacant
    simp only [List.mem_map, not_exists, not_and]
    exact fun e member => vacant e member

theorem mem_of_entryAt?_eq_some {tree : FileTree} {location : Location} {entry : Entry}
    (stands : tree.entryAt? location = some entry) (below : location ≠ []) :
    (location, entry) ∈ tree.entries := by
  unfold entryAt? at stands
  rw [if_neg below] at stands
  obtain ⟨e, found, rfl⟩ := Option.map_eq_some_iff.1 stands
  have same := List.find?_some found
  simp only [decide_eq_true_eq] at same
  have member := List.mem_of_find?_eq_some found
  rw [← same]
  exact member

def isDirectoryAt (tree : FileTree) (location : Location) : Bool :=
  tree.entryAt? location == some .directory

/-- The tree with a new entry at its end. Where the place is taken, or its parent is no directory,
nothing changes. -/
def insert (tree : FileTree) (dir : Location) (name : Name) (entry : Entry) : FileTree :=
  if fits : tree.entryAt? dir = some .directory ∧ tree.entryAt? (dir ++ [name]) = none then
    { tree with
      entries := tree.entries ++ [(dir ++ [name], entry)]
      distinct := by
        have new := not_mem_of_entryAt?_eq_none fits.2
        rw [List.map_append, List.nodup_append]
        refine ⟨tree.distinct, by simp, ?_⟩
        intro a old b added same
        simp only [List.map_cons, List.map_nil, List.mem_singleton] at added
        exact new (by rw [← added, ← same]; exact old)
      rooted := by
        intro e member
        rcases List.mem_append.1 member with member | member
        · obtain ⟨d, n, split, above⟩ := tree.rooted e member
          exact ⟨d, n, split, above.imp id fun inside => List.mem_append_left _ inside⟩
        · simp only [List.mem_singleton] at member
          subst member
          refine ⟨dir, name, rfl, ?_⟩
          by_cases root : dir = []
          · exact .inl root
          · exact .inr (List.mem_append_left _ (mem_of_entryAt?_eq_some fits.1 root)) }
  else tree

/-- An entry with its content replaced if it stands at `location`; directories are left alone. -/
def overwriteEntry (location : Location) (entry : Entry) (e : Location × Entry) :
    Location × Entry :=
  if e.1 = location ∧ e.2 ≠ .directory then (e.1, entry) else e

@[simp] theorem overwriteEntry_fst (location : Location) (entry : Entry) (e : Location × Entry) :
    (overwriteEntry location entry e).1 = e.1 := by
  unfold overwriteEntry
  split <;> rfl

@[simp] theorem overwriteEntry_directory (location dir : Location) (entry : Entry) :
    overwriteEntry location entry (dir, .directory) = (dir, .directory) := by
  simp [overwriteEntry]

/-- The tree with the file or link at `location` replaced. -/
def overwrite (tree : FileTree) (location : Location) (entry : Entry) : FileTree :=
  { tree with
    entries := tree.entries.map (overwriteEntry location entry)
    distinct := by
      have kept : (Prod.fst ∘ overwriteEntry location entry) = Prod.fst :=
        funext fun e => overwriteEntry_fst location entry e
      rw [List.map_map, kept]
      exact tree.distinct
    rooted := by
      intro e member
      obtain ⟨o, old, rfl⟩ := List.mem_map.1 member
      obtain ⟨d, n, split, above⟩ := tree.rooted o old
      refine ⟨d, n, by simpa using split, above.imp id fun inside => ?_⟩
      exact List.mem_map.2 ⟨(d, .directory), inside, by simp⟩ }

/-- The tree without the entry at `location` and everything below it. -/
def remove (tree : FileTree) (location : Location) : FileTree :=
  { tree with
    entries := tree.entries.filter fun e => !location.isPrefixOf e.1
    distinct := tree.distinct.sublist (List.filter_sublist.map Prod.fst)
    rooted := by
      intro e member
      obtain ⟨kept, apart⟩ := List.mem_filter.1 member
      obtain ⟨d, n, split, above⟩ := tree.rooted e kept
      refine ⟨d, n, split, above.imp id fun inside => List.mem_filter.2 ⟨inside, ?_⟩⟩
      simp only [Bool.not_eq_true', ← Bool.not_eq_true, List.isPrefixOf_iff_prefix] at apart ⊢
      intro below
      exact apart (split ▸ below.trans (List.prefix_append d [n])) }

end FileTree
end WasmBuild
