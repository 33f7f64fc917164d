import WasmBuild.Proofs.Path.Components
import WasmBuild.Proofs.Text.Utf8

/-!
# Paths that are texts

A path is valid UTF-8 when its bytes are those of a text. Joining two such paths, taking the parent
of one and taking a child apart stay within them, since a separator is a character of its own.
-/
namespace WasmBuild.Path

/-- The bytes of a path are those of a text. -/
def IsText (p : Path) : Prop := ∃ text, p = ofString text

theorem text?_eq_some_iff (p : Path) (text : String) : p.text? = some text ↔ p = ofString text := by
  obtain ⟨bytes⟩ := p
  rw [text?, Utf8.decode?_eq_some_iff, ofString, mk.injEq]

@[simp] theorem text?_ofString (text : String) : (ofString text).text? = some text :=
  (text?_eq_some_iff _ _).2 rfl

theorem text?_eq_none_iff (p : Path) : p.text? = none ↔ ¬ p.IsText := by
  rw [Option.eq_none_iff_forall_ne_some, IsText, not_exists]
  exact forall_congr' fun text => not_congr (text?_eq_some_iff p text)

instance (p : Path) : Decidable p.IsText :=
  decidable_of_iff (p.text? ≠ none) (by rw [Ne, text?_eq_none_iff, not_not])

@[simp] theorem isText_ofString (text : String) : (ofString text).IsText := ⟨text, rfl⟩

theorem isText_append {first second : Bytes} (left : IsText ⟨first⟩) (right : IsText ⟨second⟩) :
    IsText ⟨first ++ second⟩ := by
  obtain ⟨s, spelled⟩ := left
  obtain ⟨t, spelled'⟩ := right
  obtain rfl : first = Utf8.encode s := congrArg bytes spelled
  obtain rfl : second = Utf8.encode t := congrArg bytes spelled'
  exact ⟨s ++ t, by rw [ofString, Utf8.encode_append]⟩

theorem isText_separator_cons {rest : Bytes} (text : IsText ⟨rest⟩) :
    IsText ⟨separator :: rest⟩ := by
  have slash : IsText ⟨[separator]⟩ := ⟨"/", by decide⟩
  exact isText_append slash text

/-- A text that is cut at an ASCII byte gives two texts. -/
theorem isText_of_cut {before after : Bytes} {b : UInt8} (small : b < 0x80)
    (whole : IsText ⟨before ++ b :: after⟩) : IsText ⟨before⟩ ∧ IsText ⟨after⟩ := by
  obtain ⟨text, spelled⟩ := whole
  have bytes' : before ++ b :: after = Utf8.encode text := congrArg bytes spelled
  obtain ⟨⟨s, rfl⟩, t, rfl⟩ := Utf8.exists_encode_of_cut small bytes'
  exact ⟨⟨s, rfl⟩, t, rfl⟩

theorem IsText.join {base child : Path} (left : base.IsText) (right : child.IsText) :
    (base.join child).IsText := by
  unfold Path.join
  split_ifs
  · exact right
  · exact isText_append left right
  · exact isText_append left (isText_separator_cons right)

/-- The name of a child is a text if the path of the child is one. -/
theorem isText_of_child {base : Path} {name : Bytes} (whole : (base.child name).IsText) :
    IsText ⟨name⟩ := by
  unfold Path.child Path.join at whole
  split_ifs at whole with absolute ends
  · exact whole
  · rw [Bool.or_eq_true, List.isEmpty_iff, beq_iff_eq] at ends
    rcases ends with empty | last
    · rwa [empty] at whole
    · obtain ⟨init, split⟩ := List.getLast?_eq_some_iff.1 last
      rw [split, List.append_assoc] at whole
      exact (isText_of_cut (by decide) whole).2
  · exact (isText_of_cut (by decide) whole).2

/-- A path is a text if a relative path as seen from it is one. -/
theorem isText_of_join {base child : Path} (relative : child.isAbsolute = false)
    (whole : (base.join child).IsText) : base.IsText := by
  obtain ⟨bytes⟩ := base
  rw [join_of_not_isAbsolute _ relative] at whole
  split_ifs at whole with ends
  · rcases ends with rfl | last
    · exact ⟨"", rfl⟩
    · obtain ⟨front, rfl⟩ := List.getLast?_eq_some_iff.1 last
      rw [List.append_assoc] at whole
      have start := (isText_of_cut (by decide) whole).1
      exact isText_append start (isText_separator_cons ⟨"", rfl⟩)
  · exact (isText_of_cut (by decide) whole).1

theorem isText_of_mem_segmentsOf (size : Nat) (bytes : Bytes) (small : bytes.length ≤ size)
    (whole : IsText ⟨bytes⟩) : ∀ s ∈ segmentsOf bytes, IsText ⟨s⟩ := by
  induction size generalizing bytes with
  | zero =>
      obtain rfl := List.length_eq_zero_iff.1 (Nat.le_zero.1 small)
      intro s member
      rwa [List.mem_singleton.1 member]
  | succ size ih =>
      intro s member
      by_cases cut : separator ∈ bytes
      · obtain ⟨before, after, rfl⟩ := List.append_of_mem cut
        rw [List.length_append, List.length_cons] at small
        obtain ⟨left, right⟩ := isText_of_cut (by decide) whole
        rw [segmentsOf_append_separator] at member
        rcases List.mem_append.1 member with member | member
        · exact ih before (by omega) left s member
        · exact ih after (by omega) right s member
      · rw [segmentsOf_eq_singleton cut] at member
        rwa [List.mem_singleton.1 member]

theorem IsText.of_mem_segments {p : Path} (text : p.IsText) {s : Bytes} (member : s ∈ p.segments) :
    IsText ⟨s⟩ := isText_of_mem_segmentsOf p.bytes.length p.bytes (le_refl _) text s member

theorem IsText.fileName? {p : Path} (text : p.IsText) {n : Bytes} (named : p.fileName? = some n) :
    IsText ⟨n⟩ := text.of_mem_segments (mem_segments_of_fileName? named).1

theorem isText_ofSegments {segments : List Bytes} (texts : ∀ s ∈ segments, IsText ⟨s⟩) :
    IsText ⟨ofSegments segments⟩ := by
  induction segments with
  | nil => exact ⟨"", rfl⟩
  | cons s rest ih =>
      cases rest with
      | nil =>
          rw [ofSegments_singleton]
          exact texts s List.mem_cons_self
      | cons t rest =>
          rw [ofSegments_cons_cons]
          have right := ih fun u member => texts u (List.mem_cons_of_mem _ member)
          exact isText_append (texts s List.mem_cons_self) (isText_separator_cons right)

theorem IsText.parent? {p q : Path} (text : p.IsText) (parent : p.parent? = some q) : q.IsText := by
  have kept {part : List Bytes} (inside : part ⊆ p.segments) :
      ∀ s ∈ dropIdleEnd (dropIdleEnd part).dropLast, IsText ⟨s⟩ := by
    intro s member
    have outer := mem_of_mem_dropIdleEnd (List.dropLast_subset _ (mem_of_mem_dropIdleEnd member))
    exact text.of_mem_segments (inside outer)
  have dot : IsText ⟨dotSegment⟩ := ⟨".", by decide⟩
  unfold Path.parent? at parent
  split_ifs at parent
  · split at parent
    · simp at parent
    · obtain rfl := Option.some.inj parent
      exact isText_separator_cons (isText_ofSegments (kept (List.tail_sublist _).subset))
  · split at parent
    · obtain rfl := Option.some.inj parent
      exact ⟨"", rfl⟩
    · obtain rfl := Option.some.inj parent
      refine isText_ofSegments fun s member => ?_
      rcases List.mem_cons.1 member with rfl | member
      · exact dot
      · exact kept (List.tail_sublist _).subset s member
  · split at parent
    · simp at parent
    · obtain rfl := Option.some.inj parent
      exact isText_ofSegments (kept (List.Subset.refl _))

theorem isText_of_mem_ancestorsUpTo {p : Path} (text : p.IsText) (count : Nat) :
    ∀ q ∈ p.ancestorsUpTo count, q.IsText := by
  induction count generalizing p with
  | zero => simp [ancestorsUpTo]
  | succ count ih =>
      intro q member
      rcases List.mem_cons.1 member with rfl | above
      · exact text
      · cases parent : p.parent? with
        | none => simp [parent] at above
        | some up =>
            rw [parent] at above
            exact ih (text.parent? parent) q above

end WasmBuild.Path
