import Mathlib.Data.List.Nodup
import WasmBuild.FileTree.Locate
import WasmBuild.Proofs.Path.Components

/-!
# What paths lead to

The entries of a tree by location, and the rules by which segments lead from a directory to a spot:
one for each thing that a segment can do. By induction on the rules, what is found at the end of a
path stands in the tree, and a path that leads to anything but a directory ends in a name.
-/
namespace WasmBuild

theorem Name.not_mem_separator (name : Name) : separator ∉ name.bytes := by
  have valid := name.valid
  simp only [isEntryName, Bool.and_eq_true, Bool.not_eq_true'] at valid
  simpa using valid.1.2

theorem Name.ofSegment?_bytes (name : Name) :
    Component.ofSegment? name.bytes = some (.named name.bytes) := by
  have valid := name.valid
  simp only [isEntryName, Bool.and_eq_true, Bool.not_eq_true', bne_iff_ne] at valid
  obtain ⟨⟨⟨⟨nonempty, noDot⟩, noUp⟩, -⟩, -⟩ := valid
  have busy : isIdleSegment name.bytes = false := by simp [isIdleSegment, nonempty, noDot]
  rw [Component.ofSegment?, if_neg (by simp [busy]), if_neg noUp]

theorem Name.bytes_injective : Function.Injective Name.bytes := by
  rintro ⟨a, valid⟩ ⟨b, valid'⟩ same
  cases same
  rfl

theorem Name.bytes_of_ofBytes? {segment : Bytes} {name : Name}
    (named : Name.ofBytes? segment = some name) : name.bytes = segment := by
  unfold Name.ofBytes? at named
  split at named
  · cases named
    rfl
  · cases named

/-- What a segment asks for in the directory where it is met. -/
inductive Move where
  | stay
  | up
  | down (name : Name)
  | refused (fault : FileError)

/-- The move that a segment asks for. -/
def moveOf (segment : Bytes) : Move :=
  if isIdleSegment segment then .stay
  else if segment = dotDotSegment then .up
  else if segment.length > maxNameLength then .refused .nameTooLong
  else match Name.ofBytes? segment with
    | none => .refused .notFound
    | some name => .down name

theorem bytes_of_moveOf_eq_down {segment : Bytes} {name : Name}
    (move : moveOf segment = .down name) : name.bytes = segment := by
  unfold moveOf at move
  split_ifs at move
  split at move
  · cases move
  · next other named =>
      obtain rfl := Move.down.inj move
      exact Name.bytes_of_ofBytes? named

@[simp] theorem moveOf_nil : moveOf [] = .stay := rfl

/-- A segment that means a name moves down, if it moves at all. -/
theorem moveOf_of_named {segment name : Bytes}
    (named : Component.ofSegment? segment = some (.named name)) :
    (∃ n : Name, moveOf segment = .down n) ∨ ∃ fault, moveOf segment = .refused fault := by
  unfold Component.ofSegment? at named
  split at named
  · cases named
  next idle =>
  split at named
  · cases named
  next up =>
  rw [moveOf, if_neg idle, if_neg up]
  split
  · exact .inr ⟨_, rfl⟩
  · split
    · exact .inr ⟨_, rfl⟩
    · exact .inl ⟨_, rfl⟩

/-- A spot as a tree has it: an entry that stands there, or a name that nothing has in a
directory. -/
def Spot.StandsIn (tree : FileTree) : Spot → Prop
  | taken location entry => tree.entryAt? location = some entry
  | free dir name => tree.entryAt? dir = some .directory ∧ tree.entryAt? (dir ++ [name]) = none

/-- Segments of which the last is a name. -/
def EndsInName (segments : List Bytes) : Prop :=
  ∃ init name, segments = init ++ [name] ∧ Component.ofSegment? name = some (.named name)

theorem EndsInName.cons {segments : List Bytes} (ends : EndsInName segments) (s : Bytes) :
    EndsInName (s :: segments) := by
  obtain ⟨init, name, rfl, named⟩ := ends
  exact ⟨s :: init, name, rfl, named⟩

theorem EndsInName.of_append {front segments : List Bytes} (ends : EndsInName (front ++ segments))
    (nonempty : segments ≠ []) : EndsInName segments := by
  obtain ⟨init, name, split, named⟩ := ends
  rcases List.eq_nil_or_concat segments with rfl | ⟨i, last, rfl⟩
  · contradiction
  · rw [List.concat_eq_append, ← List.append_assoc] at split
    obtain ⟨-, same⟩ := List.append_inj' split rfl
    exact ⟨i, name, by rw [List.concat_eq_append, same], named⟩

theorem endsInName_of_moveOf {segment : Bytes} {name : Name} (move : moveOf segment = .down name) :
    EndsInName [segment] := by
  obtain rfl := bytes_of_moveOf_eq_down move
  exact ⟨[], name.bytes, rfl, name.ofSegment?_bytes⟩

namespace FileTree

theorem entryAt?_nil (tree : FileTree) : tree.entryAt? [] = some .directory := by simp [entryAt?]

/-- Away from the root, the entry at a location is the one listed under it. -/
theorem entryAt?_eq_some_iff {tree : FileTree} {location : Location} {entry : Entry}
    (below : location ≠ []) :
    tree.entryAt? location = some entry ↔ (location, entry) ∈ tree.entries := by
  constructor
  · intro stands
    exact mem_of_entryAt?_eq_some stands below
  · intro stands
    have listed : ((tree.entries.find? (·.1 = location)).map Prod.snd).isSome = true := by
      simp only [Option.isSome_map, List.find?_isSome, decide_eq_true_eq]
      exact ⟨_, stands, rfl⟩
    obtain ⟨other, first⟩ := Option.isSome_iff_exists.mp listed
    have found : tree.entryAt? location = some other := by
      rw [entryAt?, if_neg below]
      exact first
    have member := mem_of_entryAt?_eq_some found below
    have same : (location, other) = (location, entry) :=
      List.inj_on_of_nodup_map tree.distinct member stands rfl
    rw [found, (Prod.mk.inj same).2]

/-- Whatever stands in the tree stands in a directory. -/
theorem entryAt?_parent {tree : FileTree} {dir : Location} {name : Name} {entry : Entry}
    (stands : tree.entryAt? (dir ++ [name]) = some entry) :
    tree.entryAt? dir = some .directory := by
  rw [entryAt?_eq_some_iff (by simp)] at stands
  obtain ⟨dir', name', split, above⟩ := tree.rooted _ stands
  obtain ⟨rfl, -⟩ := List.append_inj' split rfl
  by_cases root : dir = []
  · rw [root, entryAt?_nil]
  · rw [entryAt?_eq_some_iff root]
    exact above.resolve_left root

theorem entryAt?_dropLast {tree : FileTree} {location : Location}
    (stands : tree.entryAt? location = some .directory) :
    tree.entryAt? location.dropLast = some .directory := by
  rcases List.eq_nil_or_concat location with rfl | ⟨dir, name, rfl⟩
  · exact stands
  · rw [List.concat_eq_append] at stands ⊢
    rw [List.dropLast_concat]
    exact entryAt?_parent stands

theorem isDirectoryAt_iff {tree : FileTree} {location : Location} :
    tree.isDirectoryAt location = true ↔ tree.entryAt? location = some .directory := by
  simp [isDirectoryAt]

/-- How segments are followed behind a link, with a number of links that may still be met. -/
def behind (tree : FileTree) (followLast : Bool) :
    Nat → Location → Path → List Bytes → Except FileError Spot
  | 0, _, _, _ => .error .tooManyLinks
  | links + 1, here, target, rest =>
    tree.followLinks followLast links (startOf target here) (target.segments ++ rest)

theorem followLinks_eq (tree : FileTree) (followLast : Bool) (links : Nat) :
    tree.followLinks followLast links = tree.follow followLast (tree.behind followLast links) := by
  cases links <;> rfl

variable {tree : FileTree} {followLast : Bool} {links : Nat} {here location : Location}
  {entry : Entry} {segment : Bytes} {init segments rest : List Bytes} {spot : Spot}

theorem followLinks_nil : tree.followLinks followLast links here [] =
    match tree.entryAt? here with
    | some entry => .ok (.taken here entry)
    | none => .error .notFound := by
  rw [followLinks_eq]
  cases found : tree.entryAt? here <;> simp [follow, found]

theorem followLinks_cons_outside (outside : tree.entryAt? here ≠ some .directory) :
    tree.followLinks followLast links here (segment :: rest) = .error .notADirectory := by
  have closed : (!tree.isDirectoryAt here) = true := by
    rw [Bool.not_eq_true', ← Bool.not_eq_true, isDirectoryAt_iff]
    exact outside
  rw [followLinks_eq, follow, if_pos closed]

/-- One segment, in a directory. -/
theorem followLinks_cons (directory : tree.entryAt? here = some .directory) :
    tree.followLinks followLast links here (segment :: rest) =
      match moveOf segment with
      | .refused fault => .error fault
      | .stay => tree.followLinks followLast links here rest
      | .up => tree.followLinks followLast links here.dropLast rest
      | .down name =>
        match tree.entryAt? (here ++ [name]) with
        | none => if rest.isEmpty then .ok (.free here name) else .error .notFound
        | some (.link target) =>
          if rest.isEmpty && !followLast then .ok (.taken (here ++ [name]) (.link target))
          else tree.behind followLast links here target rest
        | some _ => tree.followLinks followLast links (here ++ [name]) rest := by
  rw [followLinks_eq, follow, if_neg (by simp [isDirectoryAt_iff.2 directory])]
  by_cases idle : isIdleSegment segment = true
  · rw [moveOf, if_pos idle, if_pos idle]
  by_cases up : segment = dotDotSegment
  · rw [moveOf, if_neg idle, if_neg idle, if_pos up, if_pos up]
  by_cases long : segment.length > maxNameLength
  · rw [moveOf, if_neg idle, if_neg idle, if_neg up, if_neg up, if_pos long, if_pos long]
  · rw [moveOf, if_neg idle, if_neg idle, if_neg up, if_neg up, if_neg long, if_neg long]
    cases Name.ofBytes? segment <;> rfl

/-- The rules by which segments lead from a location to a spot. Every segment wants to start in a
directory. A link in last place may be left as it is; any other is replaced by its target, which
takes one of the links that may be met. -/
inductive Leads (tree : FileTree) (followLast : Bool) :
    Nat → Location → List Bytes → Spot → Prop
  | arrived {links : Nat} {here : Location} {entry : Entry} :
      tree.entryAt? here = some entry → Leads tree followLast links here [] (.taken here entry)
  | stay {links : Nat} {here : Location} {segment : Bytes} {rest : List Bytes} {spot : Spot} :
      tree.entryAt? here = some .directory → moveOf segment = .stay →
      Leads tree followLast links here rest spot →
      Leads tree followLast links here (segment :: rest) spot
  | up {links : Nat} {here : Location} {segment : Bytes} {rest : List Bytes} {spot : Spot} :
      tree.entryAt? here = some .directory → moveOf segment = .up →
      Leads tree followLast links here.dropLast rest spot →
      Leads tree followLast links here (segment :: rest) spot
  | free {links : Nat} {here : Location} {segment : Bytes} {name : Name} :
      tree.entryAt? here = some .directory → moveOf segment = .down name →
      tree.entryAt? (here ++ [name]) = none →
      Leads tree followLast links here [segment] (.free here name)
  | down {links : Nat} {here : Location} {segment : Bytes} {rest : List Bytes} {spot : Spot}
      {name : Name} {entry : Entry} :
      tree.entryAt? here = some .directory → moveOf segment = .down name →
      tree.entryAt? (here ++ [name]) = some entry → (∀ target, entry ≠ .link target) →
      Leads tree followLast links (here ++ [name]) rest spot →
      Leads tree followLast links here (segment :: rest) spot
  | unfollowed {links : Nat} {here : Location} {segment : Bytes} {name : Name} {target : Path} :
      tree.entryAt? here = some .directory → moveOf segment = .down name →
      tree.entryAt? (here ++ [name]) = some (.link target) → followLast = false →
      Leads tree followLast links here [segment] (.taken (here ++ [name]) (.link target))
  | link {links : Nat} {here : Location} {segment : Bytes} {rest : List Bytes} {spot : Spot}
      {name : Name} {target : Path} :
      tree.entryAt? here = some .directory → moveOf segment = .down name →
      tree.entryAt? (here ++ [name]) = some (.link target) → (rest ≠ [] ∨ followLast = true) →
      Leads tree followLast links (startOf target here) (target.segments ++ rest) spot →
      Leads tree followLast (links + 1) here (segment :: rest) spot

theorem leads_of_followLinks
    (followed : tree.followLinks followLast links here segments = .ok spot) :
    tree.Leads followLast links here segments spot := by
  induction links using Nat.strong_induction_on generalizing here segments with
  | _ links fewer =>
  induction segments generalizing here with
  | nil =>
      rw [followLinks_nil] at followed
      split at followed
      · next entry stands =>
          obtain rfl := Except.ok.inj followed
          exact .arrived stands
      · cases followed
  | cons segment rest ih =>
      by_cases directory : tree.entryAt? here = some .directory
      · rw [followLinks_cons directory] at followed
        cases move : moveOf segment with
        | refused fault => simp [move] at followed
        | stay => exact .stay directory move (ih (by simpa [move] using followed))
        | up => exact .up directory move (ih (by simpa [move] using followed))
        | down name =>
            simp only [move] at followed
            cases found : tree.entryAt? (here ++ [name]) with
            | none =>
                simp only [found] at followed
                split at followed
                · next last =>
                    obtain rfl := List.isEmpty_iff.1 last
                    obtain rfl := Except.ok.inj followed
                    exact .free directory move found
                · cases followed
            | some entry =>
                cases entry with
                | directory | file =>
                    exact .down directory move found (by simp)
                      (ih (by simpa [found] using followed))
                | link target =>
                    simp only [found] at followed
                    split at followed
                    · next last =>
                        simp only [Bool.and_eq_true, List.isEmpty_iff, Bool.not_eq_true'] at last
                        obtain ⟨rfl, stop⟩ := last
                        obtain rfl := Except.ok.inj followed
                        exact .unfollowed directory move found stop
                    · next pass =>
                        cases links with
                        | zero => cases followed
                        | succ links =>
                            have onward : rest ≠ [] ∨ followLast = true := by
                              simpa [← imp_iff_not_or] using pass
                            exact .link directory move found onward
                              (fewer links (Nat.lt_succ_self links) followed)
      · rw [followLinks_cons_outside directory] at followed
        cases followed

theorem Leads.followLinks (leads : tree.Leads followLast links here segments spot) :
    tree.followLinks followLast links here segments = .ok spot := by
  induction leads with
  | arrived stands => rw [followLinks_nil, stands]
  | stay directory move _ ih => rw [followLinks_cons directory, move]; exact ih
  | up directory move _ ih => rw [followLinks_cons directory, move]; exact ih
  | free directory move vacant => simp [followLinks_cons directory, move, vacant]
  | @down _ _ _ _ _ _ entry directory move found noLink _ ih =>
      rw [followLinks_cons directory, move]
      cases entry with
      | directory | file => simpa [found] using ih
      | link target => exact absurd rfl (noLink target)
  | unfollowed directory move found stop => simp [followLinks_cons directory, move, found, stop]
  | @link _ _ _ rest _ _ _ directory move found onward _ ih =>
      have pass : ¬ (rest.isEmpty && !followLast) = true := by
        simpa [← imp_iff_not_or] using onward
      rw [followLinks_cons directory, move]
      simp only [found]
      rw [if_neg pass]
      exact ih

/-- Following segments succeeds with the spot to which the rules lead. -/
theorem followLinks_eq_ok_iff : tree.followLinks followLast links here segments = .ok spot ↔
    tree.Leads followLast links here segments spot :=
  ⟨leads_of_followLinks, Leads.followLinks⟩

namespace Leads

/-- Whatever leads on over a segment starts in a directory. -/
theorem directory_of_ne_nil (leads : tree.Leads followLast links here segments spot)
    (more : segments ≠ []) : tree.entryAt? here = some .directory := by
  cases leads with
  | arrived => exact absurd rfl more
  | stay directory | up directory | free directory | down directory | unfollowed directory
  | link directory => exact directory

theorem standsIn (leads : tree.Leads followLast links here segments spot) :
    spot.StandsIn tree := by
  induction leads with
  | arrived stands => exact stands
  | free directory _ vacant => exact ⟨directory, vacant⟩
  | unfollowed _ _ found _ => exact found
  | stay _ _ _ ih | up _ _ _ ih | down _ _ _ _ _ ih | link _ _ _ _ _ ih => exact ih

/-- Idle segments and steps upwards end at a directory, so whatever else is found was named by the
last segment. -/
theorem endsInName (leads : tree.Leads followLast links here segments spot)
    (noDirectory : ∀ location, spot ≠ .taken location .directory) (more : segments ≠ []) :
    EndsInName segments := by
  -- Where nothing is left behind a directory, the spot is this directory.
  have ends {links : Nat} {there : Location} {spot : Spot} {rest : List Bytes}
      (noDirectory : ∀ location, spot ≠ .taken location .directory)
      (directory : tree.entryAt? there = some .directory)
      (leads : tree.Leads followLast links there rest spot) : rest ≠ [] := by
    rintro rfl
    cases leads with
    | arrived stands =>
        obtain rfl := Option.some.inj (directory.symm.trans stands)
        exact noDirectory _ rfl
  induction leads with
  | arrived => exact absurd rfl more
  | stay directory _ onward ih =>
      exact (ih noDirectory (ends noDirectory directory onward)).cons _
  | up directory _ onward ih =>
      exact (ih noDirectory (ends noDirectory (entryAt?_dropLast directory) onward)).cons _
  | free _ move _ | unfollowed _ move _ _ => exact endsInName_of_moveOf move
  | @down _ _ _ rest _ _ _ _ move _ _ _ ih =>
      by_cases last : rest = []
      · rw [last]
        exact endsInName_of_moveOf move
      · exact (ih noDirectory last).cons _
  | @link _ _ _ rest _ _ _ _ move _ _ _ ih =>
      by_cases last : rest = []
      · rw [last]
        exact endsInName_of_moveOf move
      · exact ((ih noDirectory (by simp [last])).of_append last).cons _

/-- Where every link is followed, an idle segment does not matter: it wants to start in a directory,
and what comes before it leads there alone. -/
theorem without_idle (idle : isIdleSegment segment = true)
    (leads : tree.Leads true links here (init ++ segment :: rest) spot) :
    tree.Leads true links here (init ++ rest) spot := by
  have stays : moveOf segment = .stay := if_pos idle
  generalize whole : init ++ segment :: rest = segments at leads
  -- Either the first of the segments is the idle one, or it stays in front of it.
  induction leads generalizing init with
  | arrived => simp at whole
  | stay directory move onward ih =>
      cases init with
      | nil =>
          obtain ⟨-, rfl⟩ := List.cons.inj whole
          exact onward
      | cons first init =>
          obtain ⟨rfl, split⟩ := List.cons.inj whole
          exact .stay directory move (ih split)
  | up directory move onward ih =>
      cases init with
      | nil =>
          obtain ⟨rfl, -⟩ := List.cons.inj whole
          cases stays.symm.trans move
      | cons first init =>
          obtain ⟨rfl, split⟩ := List.cons.inj whole
          exact .up directory move (ih split)
  | free _ move | unfollowed _ move =>
      cases init with
      | nil =>
          obtain ⟨rfl, -⟩ := List.cons.inj whole
          cases stays.symm.trans move
      | cons first init => simp at whole
  | down directory move found noLink onward ih =>
      cases init with
      | nil =>
          obtain ⟨rfl, -⟩ := List.cons.inj whole
          cases stays.symm.trans move
      | cons first init =>
          obtain ⟨rfl, split⟩ := List.cons.inj whole
          exact .down directory move found noLink (ih split)
  | link directory move found pass onward ih =>
      cases init with
      | nil =>
          obtain ⟨rfl, -⟩ := List.cons.inj whole
          cases stays.symm.trans move
      | cons first init =>
          obtain ⟨rfl, rfl⟩ := List.cons.inj whole
          have beyond := ih (List.append_assoc ..)
          rw [List.append_assoc] at beyond
          exact .link directory move found (.inr rfl) beyond

theorem without_idles {gap : List Bytes} (idle : ∀ s ∈ gap, isIdleSegment s = true)
    (leads : tree.Leads true links here (init ++ (gap ++ rest)) spot) :
    tree.Leads true links here (init ++ rest) spot := by
  induction gap with
  | nil => exact leads
  | cons first gap ih =>
      exact ih (fun s inside => idle s (List.mem_cons_of_mem _ inside))
        (without_idle (idle first List.mem_cons_self) leads)

end Leads

theorem locate_eq_ok_iff {path : Path} : tree.locate followLast path = .ok spot ↔
    pathFault? path = none ∧
      tree.Leads followLast maxLinks (startOf path tree.workingDir) path.segments spot := by
  rw [← followLinks_eq_ok_iff]
  unfold locate
  cases pathFault? path <;> simp

theorem leads_of_find {path : Path} (found : tree.find path = .ok (location, entry)) :
    tree.Leads true maxLinks (startOf path tree.workingDir) path.segments
      (.taken location entry) := by
  have located : tree.locate true path = .ok (.taken location entry) := by
    unfold find at found
    split at found <;> simp_all
  exact (locate_eq_ok_iff.1 located).2

theorem entry_of_find {path : Path} (found : tree.find path = .ok (location, entry)) :
    tree.entryAt? location = some entry := (leads_of_find found).standsIn

/-- The segments of a path that leads to anything but a directory end in a name. -/
theorem endsInName_of_find {path : Path} (found : tree.find path = .ok (location, entry))
    (noDirectory : entry ≠ .directory) : EndsInName path.segments :=
  (leads_of_find found).endsInName (fun _ same => noDirectory (Spot.taken.inj same).2)
    (segmentsOf_ne_nil path.bytes)

theorem fileName?_of_find {path : Path} (found : tree.find path = .ok (location, entry))
    (noDirectory : entry ≠ .directory) : ∃ name, path.fileName? = some name := by
  obtain ⟨init, name, split, named⟩ := endsInName_of_find found noDirectory
  exact ⟨name, Path.fileName?_of_segments split named⟩

end FileTree
end WasmBuild
