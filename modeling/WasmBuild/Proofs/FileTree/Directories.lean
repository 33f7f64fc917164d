import WasmBuild.Proofs.FileTree.Places

/-!
# Making sure of a directory

A directory is created beside what is there, under a name that nothing has. Making sure of one leads
to a directory wherever it succeeds. Doing so once more changes nothing, and files that have come or
gone in between do not matter.
-/
namespace WasmBuild.FileTree

/-- A path cut at the last of its segments that is not empty. -/
structure LastSegment (path : Path) (init : List Bytes) (last : Bytes) (empties : List Bytes) :
    Prop where
  split : path.segments = init ++ last :: empties
  kept : path.segments.rdropWhile List.isEmpty = init ++ [last]
  full : last ≠ []
  empty : ∀ segment ∈ empties, segment = []

theorem exists_lastSegment (path : Path) :
    path.segments.rdropWhile List.isEmpty = [] ∨
      ∃ init last empties, LastSegment path init last empties := by
  rcases List.eq_nil_or_concat (path.segments.rdropWhile List.isEmpty) with
    bare | ⟨init, last, kept⟩
  · exact .inl bare
  rw [List.concat_eq_append] at kept
  have split : path.segments.rdropWhile List.isEmpty ++ path.segments.rtakeWhile List.isEmpty =
      path.segments := List.rdropWhile_append_rtakeWhile
  rw [kept, List.append_assoc] at split
  have full : last ≠ [] := by
    rintro rfl
    have more : path.segments.rdropWhile List.isEmpty ≠ [] := by simp [kept]
    have notEmpty := List.rdropWhile_last_not List.isEmpty path.segments more
    simp [kept] at notEmpty
  refine .inr ⟨init, last, path.segments.rtakeWhile List.isEmpty, split.symm, kept, full, ?_⟩
  exact fun segment member => List.isEmpty_iff.1 (List.mem_rtakeWhile_imp member)

variable {tree later made : FileTree} {path : Path} {init : List Bytes} {last : Bytes}
  {empties : List Bytes} {here dir : Location} {followLast : Bool} {left : Nat}

/-- One directory is created where the last segment asks for a name that nothing has. -/
theorem createDirectory_eq (cut : LastSegment path init last empties)
    (sound : pathFault? path = none) :
    tree.createDirectory path =
      match tree.directoryAt path init with
      | .error fault => .error fault
      | .ok dir =>
        match moveOf last with
        | .stay | .up => .error .alreadyExists
        | .refused fault => .error fault
        | .down name =>
          match tree.entryAt? (dir ++ [name]) with
          | some _ => .error .alreadyExists
          | none => .ok (tree.insert dir name .directory) := by
  have kept : (path.segments.reverse.dropWhile List.isEmpty).reverse = init ++ [last] := cut.kept
  simp only [createDirectory, sound, kept, List.getLast?_concat, List.dropLast_concat]
  cases tree.directoryAt path init with
  | error fault => rfl
  | ok dir =>
      dsimp only
      by_cases idle : isIdleSegment last = true
      · rw [moveOf, if_pos idle, if_pos (by simp [idle])]
      by_cases up : last = dotDotSegment
      · rw [moveOf, if_neg idle, if_pos up, if_pos (by simp [up])]
      rw [if_neg (by simp [idle, up])]
      by_cases long : last.length > maxNameLength
      · rw [moveOf, if_neg idle, if_neg up, if_pos long, if_pos long]
      · rw [moveOf, if_neg idle, if_neg up, if_neg long, if_neg long]
        cases Name.ofBytes? last <;> rfl

/-- A path of empty segments alone is never created. -/
theorem createDirectory_of_empties (bare : path.segments.rdropWhile List.isEmpty = [])
    (sound : pathFault? path = none) : tree.createDirectory path = .error .alreadyExists := by
  have kept : (path.segments.reverse.dropWhile List.isEmpty).reverse = [] := bare
  simp only [createDirectory, sound, kept, List.getLast?_nil]

/-- Empty segments stay in the directory where they are met. -/
theorem leads_empties (directory : tree.entryAt? here = some .directory)
    (empty : ∀ segment ∈ empties, segment = []) :
    tree.Leads followLast left here empties (.taken here .directory) := by
  induction empties with
  | nil => exact .arrived directory
  | cons segment rest ih =>
      obtain rfl := empty segment List.mem_cons_self
      exact .stay directory moveOf_nil (ih fun s member => empty s (List.mem_cons_of_mem _ member))

/-- The directory that segments lead to is the one where the way turns for whatever comes behind
them. -/
theorem directoryAt_eq_ok_iff : tree.directoryAt path init = .ok dir ↔
    tree.entryAt? dir = some .directory ∧ ∃ left,
      tree.TurnsAt true maxLinks (startOf path tree.workingDir) init left dir := by
  have stays {left : Nat} {there : Location} (directory : tree.entryAt? there = some .directory) :
      tree.Leads true left there [[]] (.taken there .directory) :=
    leads_empties directory (by simp)
  unfold directoryAt
  constructor
  · intro found
    split at found
    · next location entry followed =>
        obtain rfl := Except.ok.inj found
        obtain ⟨left, there, turn⟩ := (leads_of_followLinks followed).exists_turn (by simp)
        have onward := (turn [[]] (by simp) _).1 (leads_of_followLinks followed)
        have directory := onward.directory_of_ne_nil (by simp)
        have arrives := (turn [[]] (by simp) _).2 (stays directory)
        rw [arrives.followLinks] at followed
        obtain ⟨rfl, rfl⟩ := Spot.taken.inj (Except.ok.inj followed)
        exact ⟨directory, left, turn⟩
    · cases found
    · cases found
  · rintro ⟨directory, left, turn⟩
    rw [((turn [[]] (by simp) _).2 (stays directory)).followLinks]

theorem KeepsWays.directoryAt (keeps : tree.KeepsWays later)
    (reached : tree.directoryAt path init = .ok dir) : later.directoryAt path init = .ok dir := by
  obtain ⟨directory, left, turn⟩ := directoryAt_eq_ok_iff.1 reached
  have leads := (turn [[]] (by simp) _).2 (leads_empties directory (by simp))
  have start := leads.directory_of_ne_nil (by simp)
  obtain ⟨spot, found, place⟩ := keeps.leads (keeps.directory start) leads
  unfold FileTree.directoryAt
  rw [keeps.workingDir, found.followLinks]
  cases spot with
  | taken location entry => rw [show location = dir from place]
  | free above name =>
      have vacant : later.entryAt? (above ++ [name]) = none := found.standsIn.2
      have stands := keeps.directory directory
      rw [show dir = above ++ [name] from place.symm, vacant] at stands
      cases stands

/-- An entry that is no link keeps the ways of a tree when it is added. -/
theorem keepsWays_insert {name : Name} {entry : Entry} (noLink : ∀ target, entry ≠ .link target)
    (directory : tree.entryAt? dir = some .directory)
    (free : tree.entryAt? (dir ++ [name]) = none) :
    tree.KeepsWays (tree.insert dir name entry) := by
  have inserted := entryAt?_insert entry directory free
  refine ⟨workingDir_insert .., fun {location} stands => ?_, fun {location target} => ?_⟩
  · rw [inserted, if_neg (by rintro rfl; simp [free] at stands)]
    exact stands
  · rw [inserted]
    split
    · next here => simp [here, free, noLink target]
    · rfl

/-- What creating a directory has done: there is a new one, in a directory that the path leads to up
to its last segment. -/
theorem createDirectory_eq_ok (created : tree.createDirectory path = .ok made) :
    ∃ init last empties dir, ∃ name : Name, LastSegment path init last empties ∧
      pathFault? path = none ∧ moveOf last = .down name ∧ tree.directoryAt path init = .ok dir ∧
      tree.entryAt? (dir ++ [name]) = none ∧ made = tree.insert dir name .directory := by
  have sound : pathFault? path = none := by
    cases fault : pathFault? path with
    | none => rfl
    | some error => simp [createDirectory, fault] at created
  rcases exists_lastSegment path with bare | ⟨init, last, empties, cut⟩
  · rw [createDirectory_of_empties bare sound] at created
    cases created
  rw [createDirectory_eq cut sound] at created
  cases reached : tree.directoryAt path init with
  | error fault => simp [reached] at created
  | ok dir =>
      cases move : moveOf last with
      | stay | up | refused => simp [reached, move] at created
      | down name =>
          simp only [reached, move] at created
          split at created
          · cases created
          · next free =>
              exact ⟨init, last, empties, dir, name, cut, sound, move, reached, free,
                (Except.ok.inj created).symm⟩

theorem keepsWays_of_createDirectory (created : tree.createDirectory path = .ok made) :
    tree.KeepsWays made := by
  obtain ⟨init, last, empties, dir, name, -, -, -, reached, free, rfl⟩ :=
    createDirectory_eq_ok created
  exact keepsWays_insert (by simp) (directoryAt_eq_ok_iff.1 reached).1 free

theorem isDirectory_iff : tree.isDirectory path = true ↔
    ∃ location, tree.place? path = some location ∧ tree.entryAt? location = some .directory := by
  constructor
  · intro leads
    unfold isDirectory at leads
    split at leads
    · next location entry found =>
        cases entry with
        | directory => exact ⟨location, find_eq_ok_iff.1 found⟩
        | file | link => cases leads
    · cases leads
  · rintro ⟨location, found⟩
    simp [isDirectory, find_eq_ok_iff.2 found, Entry.isDirectory]

theorem KeepsWays.isDirectory (keeps : tree.KeepsWays later)
    (leads : tree.isDirectory path = true) : later.isDirectory path = true := by
  obtain ⟨location, place, stands⟩ := isDirectory_iff.1 leads
  exact isDirectory_iff.2 ⟨location, keeps.place? place, keeps.directory stands⟩

/-- A path names the place of the directory that was created for it. -/
theorem place?_of_createDirectory (created : tree.createDirectory path = .ok made) :
    ∃ dir, ∃ name : Name, tree.entryAt? dir = some .directory ∧
      tree.entryAt? (dir ++ [name]) = none ∧ made = tree.insert dir name .directory ∧
      made.place? path = some (dir ++ [name]) := by
  have keeps := keepsWays_of_createDirectory created
  obtain ⟨init, last, empties, dir, name, cut, sound, move, reached, free, rfl⟩ :=
    createDirectory_eq_ok created
  have home := (directoryAt_eq_ok_iff.1 reached).1
  have stands :
      FileTree.entryAt? (tree.insert dir name .directory) (dir ++ [name]) = some .directory := by
    rw [entryAt?_insert _ home free, if_pos rfl]
  obtain ⟨directory, left, turn⟩ := directoryAt_eq_ok_iff.1 (keeps.directoryAt reached)
  refine ⟨dir, name, home, free, rfl, ?_⟩
  refine place?_eq_some_iff.2 ⟨sound, .taken (dir ++ [name]) .directory, rfl, ?_⟩
  rw [cut.split]
  exact (turn _ (by simp) _).2
    (.down directory move stands (by simp) (leads_empties stands cut.empty))

/-- A path leads to the directory that was created for it. -/
theorem isDirectory_of_createDirectory (created : tree.createDirectory path = .ok made) :
    made.isDirectory path = true := by
  obtain ⟨dir, name, directory, free, rfl, place⟩ := place?_of_createDirectory created
  refine isDirectory_iff.2 ⟨dir ++ [name], place, ?_⟩
  rw [entryAt?_insert _ directory free, if_pos rfl]

/-- Where a directory is, none is created. -/
theorem createDirectory_of_isDirectory (stood : tree.isDirectory path = true) :
    tree.createDirectory path = .error .alreadyExists := by
  obtain ⟨location, place, stands⟩ := isDirectory_iff.1 stood
  obtain ⟨sound, spot, rfl, leads⟩ := place?_eq_some_iff.1 place
  rcases exists_lastSegment path with bare | ⟨init, last, empties, cut⟩
  · exact createDirectory_of_empties bare sound
  rw [cut.split] at leads
  obtain ⟨left, dir, turn⟩ := leads.exists_turn (by simp)
  have onward := (turn _ (by simp) spot).1 leads
  have directory := onward.directory_of_ne_nil (by simp)
  rw [createDirectory_eq cut sound, directoryAt_eq_ok_iff.2 ⟨directory, left, turn⟩]
  cases onward with
  | stay _ move | up _ move => rw [move]
  | free _ move vacant =>
      rw [Spot.place, vacant] at stands
      cases stands
  | down _ move found | unfollowed _ move found | link _ move found => simp only [move, found]

/-- What every directory that is created keeps of a tree, creating a chain of them keeps, whether it
succeeds or fails. -/
theorem createAlong_keeps {keeps : FileTree → Prop} {paths : List Path}
    (step : ∀ path ∈ paths, ∀ tree made, keeps tree → tree.createDirectory path = .ok made →
      keeps made) (start : keeps tree) : keeps (tree.createAlong paths).tree := by
  induction paths with
  | nil => exact start
  | cons path above ih =>
      have first := step path List.mem_cons_self
      have upper := ih fun p member => step p (List.mem_cons_of_mem _ member)
      unfold createAlong
      by_cases empty : path.bytes.isEmpty = true
      · rwa [if_pos empty]
      rw [if_neg empty]
      split
      · next made created => exact first tree made start created
      · dsimp only
        split
        · unfold createOrKeep
          split
          · next made created => exact first _ made upper created
          · exact upper
        · exact upper
      · exact start

theorem LinkFree.ensureDirectory (free : tree.LinkFree) (path : Path) :
    (tree.ensureDirectory path).tree.LinkFree :=
  createAlong_keeps
    (fun _ _ _ _ free made => (keepsWays_of_createDirectory made).linkFree free) free

/-- Where making sure of a directory succeeds, the path leads to one. -/
theorem isDirectory_of_ensureDirectory (named : path.bytes ≠ [])
    (ensured : (tree.ensureDirectory path).result = .ok ()) :
    (tree.ensureDirectory path).tree.isDirectory path = true := by
  obtain ⟨above, chain⟩ : ∃ above, path.ancestors = path :: above := ⟨_, rfl⟩
  unfold ensureDirectory at ensured ⊢
  rw [chain] at ensured ⊢
  unfold createAlong at ensured ⊢
  rw [if_neg (by simpa using named)] at ensured ⊢
  split at ensured
  · next made created => exact isDirectory_of_createDirectory created
  · dsimp only at ensured ⊢
    split at ensured
    · unfold createOrKeep at ensured ⊢
      split at ensured
      · next made created => exact isDirectory_of_createDirectory created
      · dsimp only at ensured
        split at ensured
        · assumption
        · cases ensured
    · cases ensured
  · dsimp only at ensured
    split at ensured
    · assumption
    · cases ensured

/-- Where a path leads to a directory, there is nothing to be done. -/
theorem ensureDirectory_of_isDirectory (stood : tree.isDirectory path = true) :
    tree.ensureDirectory path = ⟨.ok (), tree⟩ := by
  obtain ⟨above, chain⟩ : ∃ above, path.ancestors = path :: above := ⟨_, rfl⟩
  rw [ensureDirectory, chain, createAlong]
  by_cases empty : path.bytes.isEmpty = true
  · rw [if_pos empty]
  · rw [if_neg empty, createDirectory_of_isDirectory stood]
    exact congrArg (Creation.mk · tree) (if_pos stood)

/-- Making sure of a directory once more succeeds and changes nothing, also where files have come or
gone since. -/
theorem ensureDirectory_again (ensured : (tree.ensureDirectory path).result = .ok ())
    (keeps : (tree.ensureDirectory path).tree.KeepsWays later) :
    later.ensureDirectory path = ⟨.ok (), later⟩ := by
  by_cases named : path.bytes = []
  · obtain ⟨bytes⟩ := path
    obtain rfl : bytes = [] := named
    rfl
  · have led := isDirectory_of_ensureDirectory named ensured
    exact ensureDirectory_of_isDirectory (keeps.isDirectory led)

end WasmBuild.FileTree
