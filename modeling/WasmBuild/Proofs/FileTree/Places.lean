import WasmBuild.FileTree.Write
import WasmBuild.Proofs.FileTree.Following

/-!
# Places

A path names a place, whether or not something stands there. Where it leads is decided by the
directories and links of a tree alone: a change that keeps them keeps the places of all paths. In a
tree without links a path that ends in a name leads to a place of that name.
-/
namespace WasmBuild

/-- The location of a spot, be it taken or free. -/
def Spot.place : Spot → Location
  | taken location _ => location
  | free dir name => dir ++ [name]

namespace FileTree

@[simp] theorem workingDir_insert (tree : FileTree) (dir : Location) (name : Name) (entry : Entry) :
    (tree.insert dir name entry).workingDir = tree.workingDir := by
  unfold insert
  split <;> rfl

/-- An entry that is added at a free place in a directory stands there, beside all others. -/
theorem entryAt?_insert {tree : FileTree} {dir : Location} {name : Name} (entry : Entry)
    (directory : tree.entryAt? dir = some .directory) (free : tree.entryAt? (dir ++ [name]) = none)
    (location : Location) : FileTree.entryAt? (tree.insert dir name entry) location =
      if location = dir ++ [name] then some entry else tree.entryAt? location := by
  unfold insert
  rw [dif_pos ⟨directory, free⟩]
  by_cases root : location = []
  · simp [root, entryAt?_nil]
  · have absent := not_mem_of_entryAt?_eq_none free
    simp only [entryAt?, if_neg root, List.find?_append, List.find?_singleton, decide_eq_true_eq,
      eq_comm (a := dir ++ [name])]
    by_cases here : location = dir ++ [name]
    · have unlisted : tree.entries.find? (·.1 = location) = none := by
        rw [List.find?_eq_none]
        intro e member same
        simp only [decide_eq_true_eq] at same
        exact absent (List.mem_map.2 ⟨e, member, same.trans here⟩)
      simp [here ▸ unlisted, here]
    · simp [here]

/-- A file that is replaced is another entry at its place, beside all others. -/
theorem entryAt?_overwrite {tree : FileTree} {place : Location} {old : Entry} (entry : Entry)
    (taken : tree.entryAt? place = some old) (file : old.isFile = true) (location : Location) :
    FileTree.entryAt? (tree.overwrite place entry) location =
      if location = place then some entry else tree.entryAt? location := by
  have away : place ≠ [] := by
    rintro rfl
    obtain rfl := Option.some.inj ((entryAt?_nil tree).symm.trans taken)
    cases file
  have same : ((fun e : Location × Entry => decide (e.1 = location)) ∘
      overwriteEntry place entry) = fun e => decide (e.1 = location) :=
    funext fun e => by simp
  by_cases root : location = []
  · rw [if_neg (root ▸ away.symm), root, entryAt?_nil, entryAt?_nil]
  · simp only [entryAt?, if_neg root, overwrite, List.find?_map, same]
    by_cases here : location = place
    · subst here
      have listed : (tree.entries.find? (·.1 = location)).map Prod.snd = some old := by
        rw [entryAt?, if_neg root] at taken
        exact taken
      obtain ⟨e, found, rfl⟩ := Option.map_eq_some_iff.1 listed
      have key : e.1 = location := by simpa using List.find?_some found
      have changed : e.2 ≠ .directory := by
        intro directory
        rw [directory] at file
        cases file
      simp [found, overwriteEntry, key, changed]
    · rw [if_neg here, Option.map_map]
      cases found : tree.entries.find? (·.1 = location) with
      | none => rfl
      | some e =>
          have key : e.1 = location := by simpa using List.find?_some found
          simp [overwriteEntry, key, here]

variable {tree later : FileTree} {followLast : Bool} {links : Nat} {here location : Location}
  {segment : Bytes} {init segments rest : List Bytes} {spot : Spot}

/-- A name in last place leads to its place, whatever stands there but a link. -/
theorem exists_leads_last {name : Name} (directory : tree.entryAt? here = some .directory)
    (move : moveOf segment = .down name)
    (noLink : ∀ target, tree.entryAt? (here ++ [name]) ≠ some (.link target)) :
    ∃ spot, tree.Leads followLast links here [segment] spot ∧ spot.place = here ++ [name] := by
  cases found : tree.entryAt? (here ++ [name]) with
  | none => exact ⟨.free here name, .free directory move found, rfl⟩
  | some entry =>
      refine ⟨.taken (here ++ [name]) entry, .down directory move found ?_ (.arrived found), rfl⟩
      rintro target rfl
      exact noLink target found

/-- Behind some segments the way goes on from one place, whatever comes then. -/
def TurnsAt (tree : FileTree) (followLast : Bool) (links : Nat) (here : Location)
    (segments : List Bytes) (left : Nat) (there : Location) : Prop :=
  ∀ rest ≠ [], ∀ spot, tree.Leads followLast links here (segments ++ rest) spot ↔
    tree.Leads followLast left there rest spot

/-- A segment is followed before the way turns. -/
theorem TurnsAt.cons {next left : Nat} {beyond there : Location} {front : List Bytes}
    (turn : tree.TurnsAt followLast next beyond front left there)
    (step : ∀ rest ≠ [], tree.followLinks followLast links here (segment :: (init ++ rest)) =
      tree.followLinks followLast next beyond (front ++ rest)) :
    tree.TurnsAt followLast links here (segment :: init) left there := by
  intro rest more spot
  rw [← turn rest more spot, ← followLinks_eq_ok_iff, ← followLinks_eq_ok_iff, List.cons_append,
    step rest more]

/-- Segments behind which a way goes on turn at some place. -/
theorem Leads.exists_turn (leads : tree.Leads followLast links here (init ++ rest) spot)
    (more : rest ≠ []) : ∃ left there, tree.TurnsAt followLast links here init left there := by
  generalize whole : init ++ rest = segments at leads
  induction leads generalizing init with
  | arrived => exact absurd (List.append_eq_nil_iff.1 whole).2 more
  | @stay links here segment _ _ directory move _ ih
  | @up links here segment _ _ directory move _ ih =>
      cases init with
      | nil => exact ⟨links, here, fun _ _ _ => Iff.rfl⟩
      | cons first init =>
          obtain ⟨rfl, split⟩ := List.cons.inj whole
          obtain ⟨left, there, turn⟩ := ih split
          refine ⟨left, there, turn.cons fun rest _ => ?_⟩
          rw [followLinks_cons directory, move]
  | @down links here segment _ _ name entry directory move found noLink _ ih =>
      cases init with
      | nil => exact ⟨links, here, fun _ _ _ => Iff.rfl⟩
      | cons first init =>
          obtain ⟨rfl, split⟩ := List.cons.inj whole
          obtain ⟨left, there, turn⟩ := ih split
          refine ⟨left, there, turn.cons fun rest _ => ?_⟩
          rw [followLinks_cons directory, move]
          cases entry with
          | directory | file => simp only [found]
          | link target => exact absurd rfl (noLink target)
  | @link links here segment _ _ name target directory move found _ _ ih =>
      cases init with
      | nil => exact ⟨links + 1, here, fun _ _ _ => Iff.rfl⟩
      | cons first init =>
          obtain ⟨rfl, rfl⟩ := List.cons.inj whole
          obtain ⟨left, there, turn⟩ := ih (List.append_assoc target.segments init rest)
          refine ⟨left, there, turn.cons fun rest more => ?_⟩
          simp [followLinks_cons directory, move, found, more, behind]
  | @free links here | @unfollowed links here =>
      cases init with
      | nil => exact ⟨links, here, fun _ _ _ => Iff.rfl⟩
      | cons first init =>
          have bare := (List.append_eq_nil_iff.1 (List.cons.inj whole).2).2
          exact absurd bare more

/-- The location that a path names when every link is followed, be it taken or free. -/
def place? (tree : FileTree) (path : Path) : Option Location :=
  match tree.locate true path with
  | .ok spot => some spot.place
  | .error _ => none

theorem place?_eq_some_iff {path : Path} : tree.place? path = some location ↔
    pathFault? path = none ∧ ∃ spot, spot.place = location ∧
      tree.Leads true maxLinks (startOf path tree.workingDir) path.segments spot := by
  unfold place?
  constructor
  · intro placed
    split at placed
    · next spot located =>
        obtain ⟨sound, leads⟩ := locate_eq_ok_iff.1 located
        exact ⟨sound, spot, Option.some.inj placed, leads⟩
    · cases placed
  · rintro ⟨sound, spot, rfl, leads⟩
    rw [locate_eq_ok_iff.2 ⟨sound, leads⟩]

/-- What a path leads to is what stands at its place. -/
theorem find_eq_ok_iff {path : Path} {entry : Entry} :
    tree.find path = .ok (location, entry) ↔
      tree.place? path = some location ∧ tree.entryAt? location = some entry := by
  constructor
  · intro found
    refine ⟨?_, entry_of_find found⟩
    unfold find at found
    unfold place?
    split at found <;> simp_all [Spot.place]
  · rintro ⟨place, stands⟩
    obtain ⟨sound, spot, rfl, leads⟩ := place?_eq_some_iff.1 place
    cases spot with
    | free dir name =>
        have vacant : tree.entryAt? (dir ++ [name]) = none := leads.standsIn.2
        rw [Spot.place, vacant] at stands
        cases stands
    | taken location other =>
        have same : tree.entryAt? location = some other := leads.standsIn
        rw [Spot.place, same] at stands
        simp [find, locate_eq_ok_iff.2 ⟨sound, leads⟩, Spot.place, Option.some.inj stands]

/-- What was a directory still is one, and the links are the same. Files may come and go. -/
structure KeepsWays (tree later : FileTree) : Prop where
  workingDir : later.workingDir = tree.workingDir
  directory : ∀ {location}, tree.entryAt? location = some .directory →
    later.entryAt? location = some .directory
  link : ∀ {location target}, later.entryAt? location = some (.link target) ↔
    tree.entryAt? location = some (.link target)

namespace KeepsWays

theorem refl (tree : FileTree) : tree.KeepsWays tree := ⟨rfl, id, Iff.rfl⟩

theorem trans {between : FileTree} (first : tree.KeepsWays between)
    (second : between.KeepsWays later) : tree.KeepsWays later :=
  ⟨second.workingDir.trans first.workingDir,
    fun stands => second.directory (first.directory stands),
    second.link.trans first.link⟩

/-- Where directories and links are kept, segments that lead to a place still lead to it. -/
theorem leads (keeps : tree.KeepsWays later) (start : later.entryAt? here = some .directory)
    (leads : tree.Leads followLast links here segments spot) :
    ∃ other, later.Leads followLast links here segments other ∧ other.place = spot.place := by
  induction leads with
  | @arrived links here => exact ⟨.taken here .directory, .arrived start, rfl⟩
  | stay _ move _ ih =>
      obtain ⟨other, onward, place⟩ := ih start
      exact ⟨other, .stay start move onward, place⟩
  | up _ move _ ih =>
      obtain ⟨other, onward, place⟩ := ih (entryAt?_dropLast start)
      exact ⟨other, .up start move onward, place⟩
  | free _ move vacant => exact exists_leads_last start move (by simp [keeps.link, vacant])
  | @down _ _ _ rest _ _ entry _ move found noLink onward ih =>
      cases entry with
      | directory =>
          have same := keeps.directory found
          obtain ⟨other, onward, place⟩ := ih same
          exact ⟨other, .down start move same (by simp) onward, place⟩
      | link target => exact absurd rfl (noLink target)
      | file content executable script =>
          -- A file is met in last place only, and there it may also be gone.
          cases rest with
          | nil =>
              cases onward with
              | arrived => exact exists_leads_last start move (by simp [keeps.link, found])
          | cons next rest =>
              have directory := onward.directory_of_ne_nil (by simp)
              rw [found] at directory
              cases directory
  | unfollowed _ move found stop =>
      exact ⟨_, .unfollowed start move (keeps.link.2 found) stop, rfl⟩
  | @link _ here _ _ _ _ target _ move found onward _ ih =>
      have home : later.entryAt? (startOf target here) = some .directory := by
        unfold startOf
        split
        · exact entryAt?_nil later
        · exact start
      obtain ⟨other, further, place⟩ := ih home
      exact ⟨other, .link start move (keeps.link.2 found) onward further, place⟩

/-- Where directories and links are kept, paths keep their places. -/
theorem place? (keeps : tree.KeepsWays later) {path : Path}
    (placed : tree.place? path = some location) : later.place? path = some location := by
  obtain ⟨sound, spot, rfl, leads⟩ := place?_eq_some_iff.1 placed
  have start := leads.directory_of_ne_nil (segmentsOf_ne_nil path.bytes)
  obtain ⟨other, found, same⟩ := keeps.leads (keeps.directory start) leads
  refine place?_eq_some_iff.2 ⟨sound, other, same, ?_⟩
  rw [keeps.workingDir]
  exact found

end KeepsWays

def LinkFree (tree : FileTree) : Prop :=
  ∀ location target, tree.entryAt? location ≠ some (.link target)

theorem linkFree_empty : empty.LinkFree := by
  intro location target
  simp [entryAt?, empty]

theorem KeepsWays.linkFree (keeps : tree.KeepsWays later) (free : tree.LinkFree) :
    later.LinkFree := fun location target stands => free location target (keeps.link.1 stands)

/-- Without links, a path that ends in a name leads to a place of that name. -/
theorem LinkFree.exists_name_of_place? (free : tree.LinkFree) {path : Path} {name : Bytes}
    (split : path.segments = init ++ [name])
    (named : Component.ofSegment? name = some (.named name))
    (place : tree.place? path = some location) :
    ∃ dir, ∃ n : Name, location = dir ++ [n] ∧ n.bytes = name := by
  obtain ⟨-, spot, rfl, leads⟩ := place?_eq_some_iff.1 place
  rw [split] at leads
  obtain ⟨left, dir, turn⟩ := leads.exists_turn (by simp)
  have last := (turn [name] (by simp) spot).1 leads
  have downward := moveOf_of_named named
  cases last with
  | stay _ move | up _ move => simp [move] at downward
  | free _ move => exact ⟨dir, _, rfl, bytes_of_moveOf_eq_down move⟩
  | down _ move _ _ onward =>
      cases onward with
      | arrived => exact ⟨dir, _, rfl, bytes_of_moveOf_eq_down move⟩
  | unfollowed _ _ _ stop => cases stop
  | link _ _ found => exact absurd found (free _ _)

end FileTree
end WasmBuild
