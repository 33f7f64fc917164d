import Mathlib.Data.List.DropRight
import WasmBuild.Path

/-!
# Children and parents by components

Byte strings are cut at separators and put together again without loss. From this follows what
joining a name and taking the parent do to the components of a path: a child has the components of
its base and then its own name, and a path that ends in a name is, component by component, the child
of its parent under that name.
-/
namespace WasmBuild

theorem segmentsOf_ne_nil (bytes : Bytes) : segmentsOf bytes ≠ [] := by
  cases bytes with
  | nil => simp [segmentsOf]
  | cons b rest =>
      simp only [segmentsOf]
      split
      · simp
      · split <;> simp

/-- A separator divides the segments into those before and those after it. -/
theorem segmentsOf_append_separator (a b : Bytes) :
    segmentsOf (a ++ separator :: b) = segmentsOf a ++ segmentsOf b := by
  induction a with
  | nil => simp [segmentsOf]
  | cons x a ih =>
      obtain ⟨s, more, split⟩ := List.exists_cons_of_ne_nil (segmentsOf_ne_nil a)
      by_cases ends : x = separator
      · simp [segmentsOf, ends, ih]
      · simp [segmentsOf, ends, ih, split]

theorem segmentsOf_eq_singleton {bytes : Bytes} (single : separator ∉ bytes) :
    segmentsOf bytes = [bytes] := by
  induction bytes with
  | nil => rfl
  | cons x bytes ih =>
      simp only [List.mem_cons, not_or] at single
      simp [segmentsOf, Ne.symm single.1, ih single.2]

theorem not_mem_of_mem_segmentsOf {bytes s : Bytes} (member : s ∈ segmentsOf bytes) :
    separator ∉ s := by
  induction bytes generalizing s with
  | nil => simp_all [segmentsOf]
  | cons x bytes ih =>
      obtain ⟨t, more, split⟩ := List.exists_cons_of_ne_nil (segmentsOf_ne_nil bytes)
      by_cases ends : x = separator
      · simp only [segmentsOf, ends, if_true, List.mem_cons] at member
        rcases member with rfl | member
        · simp
        · exact ih member
      · simp only [segmentsOf, ends, if_false, split, List.mem_cons] at member
        rcases member with rfl | member
        · have later := ih (split ▸ List.mem_cons_self : t ∈ segmentsOf bytes)
          simp [Ne.symm ends, later]
        · exact ih (split ▸ List.mem_cons_of_mem t member)

@[simp] theorem ofSegments_nil : ofSegments [] = [] := rfl

@[simp] theorem ofSegments_singleton (s : Bytes) : ofSegments [s] = s := by
  simp [ofSegments, List.intercalate]

theorem ofSegments_cons_cons (s t : Bytes) (rest : List Bytes) :
    ofSegments (s :: t :: rest) = s ++ separator :: ofSegments (t :: rest) := by
  simp [ofSegments, List.intercalate]

theorem segmentsOf_ofSegments {segments : List Bytes} (nonempty : segments ≠ [])
    (single : ∀ s ∈ segments, separator ∉ s) : segmentsOf (ofSegments segments) = segments := by
  induction segments with
  | nil => contradiction
  | cons s rest ih =>
      have first : separator ∉ s := single s List.mem_cons_self
      cases rest with
      | nil => rw [ofSegments_singleton, segmentsOf_eq_singleton first]
      | cons t rest =>
          rw [ofSegments_cons_cons, segmentsOf_append_separator, segmentsOf_eq_singleton first,
            ih (by simp) (fun s first => single s (List.mem_cons_of_mem _ first))]
          rfl

/-- The components that segments mean, where they stand behind the lead of a path. -/
def meaning (segments : List Bytes) : List Component :=
  segments.filterMap Component.ofSegment?

@[simp] theorem meaning_append (a b : List Bytes) : meaning (a ++ b) = meaning a ++ meaning b :=
  List.filterMap_append

theorem ofSegment?_eq_none {s : Bytes} (idle : isIdleSegment s = true) :
    Component.ofSegment? s = none := by simp [Component.ofSegment?, idle]

theorem ofSegment?_eq_named {s n : Bytes} (named : Component.ofSegment? s = some (.named n)) :
    s = n := by
  unfold Component.ofSegment? at named
  split at named
  · cases named
  · split at named
    · cases named
    · simpa using named

/-- A segment that is too long to be special is a name. -/
theorem ofSegment?_of_length {s : Bytes} (long : 3 ≤ s.length) :
    Component.ofSegment? s = some (.named s) := by
  have notEmpty : s ≠ [] := by rintro rfl; simp at long
  have notDot : s ≠ dotSegment := by rintro rfl; simp [dotSegment] at long
  have notUp : s ≠ dotDotSegment := by rintro rfl; simp [dotDotSegment] at long
  simp [Component.ofSegment?, isIdleSegment, notEmpty, notDot, notUp]

theorem dropIdleEnd_eq_rdropWhile (segments : List Bytes) :
    dropIdleEnd segments = segments.rdropWhile isIdleSegment := rfl

/-- Segments at the end that move nowhere do not add to the meaning. -/
theorem meaning_dropIdleEnd (segments : List Bytes) :
    meaning (dropIdleEnd segments) = meaning segments := by
  have idle : meaning (segments.rtakeWhile isIdleSegment) = [] := by
    refine List.filterMap_eq_nil_iff.mpr fun s member => ofSegment?_eq_none ?_
    exact List.mem_rtakeWhile_imp member
  have split : dropIdleEnd segments ++ segments.rtakeWhile isIdleSegment = segments :=
    List.rdropWhile_append_rtakeWhile
  have meant := congrArg meaning split
  rwa [meaning_append, idle, List.append_nil] at meant

theorem mem_of_mem_dropIdleEnd {segments : List Bytes} {s : Bytes}
    (member : s ∈ dropIdleEnd segments) : s ∈ segments :=
  (List.rdropWhile_prefix isIdleSegment segments).subset member

/-- Joining segments and cutting them again keeps their meaning, even if there are none. -/
theorem meaning_segmentsOf_ofSegments {segments : List Bytes}
    (single : ∀ s ∈ segments, separator ∉ s) :
    meaning (segmentsOf (ofSegments segments)) = meaning segments := by
  by_cases empty : segments = []
  · subst empty
    rfl
  · rw [segmentsOf_ofSegments empty single]

namespace Path

/-- What stands before the meaning of the segments: the root, a leading dot, or nothing. -/
def lead (p : Path) : List Component :=
  if p.isAbsolute then [.root] else if p.segments.head? = some dotSegment then [.here] else []

theorem components_eq (p : Path) : p.components = p.lead ++ meaning p.segments := rfl

theorem components_root_append (b : Bytes) :
    components ⟨separator :: b⟩ = .root :: meaning (segmentsOf b) := by
  rw [components_eq]
  simp [lead, isAbsolute, segments, segmentsOf, meaning, Component.ofSegment?, isIdleSegment]

/-- The components of a path that is continued behind a separator. -/
theorem components_append_separator {a : Bytes} (nonempty : a ≠ []) (b : Bytes) :
    components ⟨a ++ separator :: b⟩ = components ⟨a⟩ ++ meaning (segmentsOf b) := by
  have led : lead ⟨a ++ separator :: b⟩ = lead ⟨a⟩ := by
    obtain ⟨s, more, split⟩ := List.exists_cons_of_ne_nil (segmentsOf_ne_nil a)
    obtain ⟨x, a, rfl⟩ := List.exists_cons_of_ne_nil nonempty
    have both : segmentsOf (x :: (a ++ separator :: b)) =
        segmentsOf (x :: a) ++ segmentsOf b := segmentsOf_append_separator (x :: a) b
    simp [lead, isAbsolute, segments, both, split]
  rw [components_eq, components_eq, led, List.append_assoc]
  simp [segments, segmentsOf_append_separator]

@[simp] theorem components_empty : components ⟨[]⟩ = [] := by
  simp [components_eq, lead, isAbsolute, segments, segmentsOf, meaning, Component.ofSegment?,
    isIdleSegment, dotSegment]

theorem not_isAbsolute {s : Bytes} (single : separator ∉ s) : isAbsolute ⟨s⟩ = false := by
  cases s with
  | nil => rfl
  | cons x s =>
      simp only [List.mem_cons, not_or] at single
      simp [isAbsolute, Ne.symm single.1]

theorem components_singleton {s : Bytes} (single : separator ∉ s) :
    components ⟨s⟩ = (if s = dotSegment then [.here] else []) ++ meaning [s] := by
  simp [components_eq, lead, not_isAbsolute single, segments, segmentsOf_eq_singleton single]

theorem join_of_not_isAbsolute (base : Path) {child : Path} (relative : child.isAbsolute = false) :
    base.join child =
      if base.bytes = [] ∨ base.bytes.getLast? = some separator then ⟨base.bytes ++ child.bytes⟩
      else ⟨base.bytes ++ separator :: child.bytes⟩ := by
  unfold join
  rw [relative, if_neg (by simp)]
  by_cases bare : base.bytes = [] ∨ base.bytes.getLast? = some separator
  · rw [if_pos bare, if_pos (by simpa using bare)]
  · rw [if_neg bare, if_neg (by simpa using bare)]

/-- Whatever single name is joined to a base, the same bytes stand before it. -/
theorem exists_bytes_child (base : Path) :
    ∃ front, ∀ name, separator ∉ name → (base.child name).bytes = front ++ name := by
  by_cases bare : base.bytes = [] ∨ base.bytes.getLast? = some separator
  · refine ⟨base.bytes, fun name single => ?_⟩
    rw [child, join_of_not_isAbsolute _ (not_isAbsolute single), if_pos bare]
  · refine ⟨base.bytes ++ [separator], fun name single => ?_⟩
    rw [child, join_of_not_isAbsolute _ (not_isAbsolute single), if_neg bare, List.append_assoc]
    rfl

/-- A single name that is joined to a base becomes its last segment. -/
theorem exists_segments_child (base : Path) {name : Bytes} (single : separator ∉ name) :
    ∃ init, (base.child name).segments = init ++ [name] := by
  obtain ⟨bytes⟩ := base
  rw [child, join_of_not_isAbsolute _ (not_isAbsolute single)]
  rcases List.eq_nil_or_concat bytes with rfl | ⟨a, x, rfl⟩
  · exact ⟨[], segmentsOf_eq_singleton single⟩
  rw [List.concat_eq_append]
  by_cases ends : x = separator
  · subst ends
    refine ⟨segmentsOf a, ?_⟩
    rw [if_pos (by simp), List.append_assoc, List.singleton_append, segments,
      segmentsOf_append_separator, segmentsOf_eq_singleton single]
  · refine ⟨segmentsOf (a ++ [x]), ?_⟩
    rw [if_neg (by simp [ends]), segments, segmentsOf_append_separator,
      segmentsOf_eq_singleton single]

/-- Below a base that is not empty, the segments of a relative path add their meaning. -/
theorem components_join {base child : Path} (nonempty : base.bytes ≠ [])
    (relative : child.isAbsolute = false) :
    (base.join child).components = base.components ++ meaning child.segments := by
  obtain ⟨bytes⟩ := base
  rw [join_of_not_isAbsolute _ relative]
  rcases List.eq_nil_or_concat bytes with rfl | ⟨a, x, rfl⟩
  · contradiction
  rw [List.concat_eq_append]
  by_cases ends : x = separator
  · subst ends
    rw [if_pos (by simp), List.append_assoc, List.singleton_append]
    by_cases bare : a = []
    · subst bare
      rw [List.nil_append, components_root_append, List.nil_append, components_root_append]
      rfl
    · have nothing : meaning (segmentsOf []) = [] := by
        simp [segmentsOf, meaning, Component.ofSegment?, isIdleSegment]
      rw [components_append_separator bare, components_append_separator bare, nothing,
        List.append_nil]
      rfl
  · rw [if_neg (by simp [ends]), components_append_separator (by simp)]
    rfl

/-- A child has the components of its base and then its own name. -/
theorem components_child (base : Path) {name : Bytes} (single : separator ∉ name)
    (named : Component.ofSegment? name = some (.named name)) :
    (base.child name).components = base.components ++ [.named name] := by
  have meant : meaning (segmentsOf name) = [.named name] := by
    simp [segmentsOf_eq_singleton single, meaning, named]
  by_cases bare : base.bytes = []
  · have noDot : name ≠ dotSegment := by
      rintro rfl
      simp [Component.ofSegment?, isIdleSegment] at named
    have empty : base = ⟨[]⟩ := by rw [← bare]
    rw [child, join_of_not_isAbsolute _ (not_isAbsolute single), if_pos (.inl bare), empty,
      components_empty]
    simp [components_singleton single, noDot, meaning, named]
  · rw [child, components_join bare (not_isAbsolute single)]
    exact congrArg _ meant

/-- The components of a path as seen from a base. An absolute path is the same from everywhere, and
from nowhere, the empty base, a path is what it is. -/
def seenFrom (base p : Path) : List Component :=
  if p.isAbsolute = true ∨ base.bytes = [] then p.components
  else base.components ++ meaning p.segments

theorem components_join_eq_seenFrom (base p : Path) :
    (base.join p).components = seenFrom base p := by
  unfold seenFrom
  by_cases absolute : p.isAbsolute = true
  · rw [if_pos (.inl absolute), join, if_pos absolute]
  · have relative : p.isAbsolute = false := by simpa using absolute
    by_cases empty : base.bytes = []
    · rw [if_pos (.inr empty), join_of_not_isAbsolute base relative, if_pos (.inl empty), empty]
      rfl
    · rw [if_neg (by simp [absolute, empty]), components_join empty relative]

/-- A path that is one ordinary component, written as nothing but its name. -/
def IsPlain (p : Path) : Prop :=
  separator ∉ p.bytes ∧ Component.ofSegment? p.bytes = some (.named p.bytes)

instance (p : Path) : Decidable p.IsPlain := inferInstanceAs (Decidable (_ ∧ _))

theorem IsPlain.seenFrom {p : Path} (plain : p.IsPlain) (base : Path) :
    seenFrom base p = base.components ++ [.named p.bytes] := by
  rw [← components_join_eq_seenFrom]
  exact components_child base plain.1 plain.2

/-- A path whose meaning comes from segments that end in a name: what is kept of them, and the
meaning of what stands before the name. -/
theorem dropIdleEnd_of_getLast? {front : List Component} {segments : List Bytes} {n : Bytes}
    (before : front.getLast? ≠ some (.named n))
    (ends : (front ++ meaning segments).getLast? = some (.named n)) :
    ∃ init, dropIdleEnd segments = init ++ [n] ∧ meaning segments = meaning init ++ [.named n] := by
  rw [← meaning_dropIdleEnd] at ends ⊢
  rcases List.eq_nil_or_concat (dropIdleEnd segments) with idle | ⟨init, last, kept⟩
  · rw [idle] at ends
    exact absurd (by simpa [meaning] using ends) before
  · have busy : isIdleSegment last = false := by
      have nonempty : segments.rdropWhile isIdleSegment ≠ [] := by
        rw [← dropIdleEnd_eq_rdropWhile, kept]
        simp
      have stopped := List.rdropWhile_last_not isIdleSegment segments nonempty
      simpa [← dropIdleEnd_eq_rdropWhile, kept] using stopped
    rw [List.concat_eq_append] at kept
    have means : ∃ c, Component.ofSegment? last = some c := by
      by_cases up : last = dotDotSegment
      · exact ⟨.up, by rw [Component.ofSegment?, if_neg (by simp [busy]), if_pos up]⟩
      · exact ⟨.named last, by simp [Component.ofSegment?, busy, up]⟩
    obtain ⟨c, meant⟩ := means
    have split : meaning (init ++ [last]) = meaning init ++ [c] := by simp [meaning, meant]
    rw [kept, split, ← List.append_assoc, List.getLast?_concat, Option.some.injEq] at ends
    subst ends
    refine ⟨init, ?_, ?_⟩
    · rw [kept, ofSegment?_eq_named meant]
    · rw [kept, split]

theorem isAbsolute_iff (p : Path) : p.isAbsolute = true ↔ ∃ b, p.bytes = separator :: b := by
  obtain ⟨bytes⟩ := p
  cases bytes <;> simp [isAbsolute]

theorem fileName?_eq_some_iff {p : Path} {n : Bytes} :
    p.fileName? = some n ↔ p.components.getLast? = some (.named n) := by
  unfold fileName?
  cases last : p.components.getLast? with
  | none => simp
  | some c => cases c <;> simp

/-- A path whose last segment is a name ends in that name. -/
theorem fileName?_of_segments {p : Path} {init : List Bytes} {n : Bytes}
    (split : p.segments = init ++ [n]) (named : Component.ofSegment? n = some (.named n)) :
    p.fileName? = some n := by
  have last : meaning [n] = [.named n] := by simp [meaning, named]
  rw [fileName?_eq_some_iff, components_eq, split, meaning_append, last, ← List.append_assoc,
    List.getLast?_concat]

theorem components_root_ofSegments {segments : List Bytes}
    (single : ∀ s ∈ segments, separator ∉ s) :
    components ⟨separator :: ofSegments segments⟩ = .root :: meaning segments := by
  rw [components_root_append, meaning_segmentsOf_ofSegments single]

theorem components_dot_ofSegments {segments : List Bytes} (single : ∀ s ∈ segments, separator ∉ s) :
    components ⟨ofSegments (dotSegment :: segments)⟩ = .here :: meaning segments := by
  have dotted : components ⟨dotSegment⟩ = [.here] := by decide
  cases segments with
  | nil => simpa [meaning] using dotted
  | cons s rest =>
      rw [ofSegments_cons_cons, components_append_separator (by decide), dotted,
        meaning_segmentsOf_ofSegments single]
      rfl

/-- Segments that begin with a name or with a step upwards are a path without a lead. -/
theorem components_ofSegments {segments : List Bytes} (single : ∀ s ∈ segments, separator ∉ s)
    (visible : segments.head? ≠ some []) (noDot : segments.head? ≠ some dotSegment) :
    components ⟨ofSegments segments⟩ = meaning segments := by
  cases segments with
  | nil => exact components_empty
  | cons s rest =>
      have other : s ≠ dotSegment := by simpa using noDot
      have first : separator ∉ s := single s List.mem_cons_self
      have alone : components ⟨s⟩ = meaning [s] := by
        rw [components_singleton first, if_neg other]
        rfl
      cases rest with
      | nil => simpa using alone
      | cons t rest =>
          rw [ofSegments_cons_cons, components_append_separator (by simpa using visible), alone,
            meaning_segmentsOf_ofSegments (fun s other => single s (List.mem_cons_of_mem _ other)),
            ← meaning_append]
          rfl

theorem isAbsolute_of_segments {p : Path} {t : Bytes} {more : List Bytes}
    (split : p.segments = [] :: t :: more) : p.isAbsolute = true := by
  obtain ⟨bytes⟩ := p
  cases bytes with
  | nil => simp [segments, segmentsOf] at split
  | cons x rest =>
      by_cases root : x = separator
      · simp [isAbsolute, root]
      · obtain ⟨s, more, others⟩ := List.exists_cons_of_ne_nil (segmentsOf_ne_nil rest)
        simp [segments, segmentsOf, root, others] at split

theorem head?_of_dropIdleEnd {segments : List Bytes} {s : Bytes}
    (first : (dropIdleEnd segments).head? = some s) : segments.head? = some s := by
  obtain ⟨rest, whole⟩ := List.rdropWhile_prefix isIdleSegment segments
  rw [← whole, List.head?_append, ← dropIdleEnd_eq_rdropWhile, first]
  rfl

/-- What is kept before the name in which the segments of a path end holds no separator. -/
theorem not_mem_separator_of_kept (p : Path) {segments init : List Bytes} {n : Bytes}
    (inside : segments ⊆ p.segments) (kept : dropIdleEnd segments = init ++ [n]) :
    ∀ s ∈ dropIdleEnd init, separator ∉ s := by
  intro s member
  refine not_mem_of_mem_segmentsOf (inside (mem_of_mem_dropIdleEnd ?_))
  rw [kept]
  exact List.mem_append_left _ (mem_of_mem_dropIdleEnd member)

theorem meaning_cons_of_idle {s : Bytes} (idle : isIdleSegment s = true) (rest : List Bytes) :
    meaning (s :: rest) = meaning rest := by
  simp [meaning, ofSegment?_eq_none idle]

theorem exists_parent_of_absolute {p : Path} {n : Bytes} (absolute : p.isAbsolute = true)
    (named : p.components.getLast? = some (.named n)) :
    ∃ q, p.parent? = some q ∧ p.components = q.components ++ [.named n] := by
  obtain ⟨b, bytes⟩ := (isAbsolute_iff p).mp absolute
  have cut : p.segments = [] :: segmentsOf b := by simp [segments, bytes, segmentsOf]
  have split : p.components = [.root] ++ meaning (segmentsOf b) := by
    rw [components_eq, cut, meaning_cons_of_idle rfl]
    simp [lead, absolute]
  rw [split] at named ⊢
  obtain ⟨init, kept, meant⟩ := dropIdleEnd_of_getLast? (by simp) named
  refine ⟨⟨separator :: ofSegments (dropIdleEnd init)⟩, ?_, ?_⟩
  · simp [parent?, absolute, cut, kept]
  · rw [components_root_ofSegments (not_mem_separator_of_kept p (by simp [cut]) kept),
      meaning_dropIdleEnd, meant]
    rfl

theorem exists_parent_of_dotted {p : Path} {n : Bytes} (relative : p.isAbsolute = false)
    (dotted : p.segments.head? = some dotSegment)
    (named : p.components.getLast? = some (.named n)) :
    ∃ q, p.parent? = some q ∧ p.components = q.components ++ [.named n] := by
  obtain ⟨tail, cut⟩ := List.head?_eq_some_iff.mp dotted
  have split : p.components = [.here] ++ meaning tail := by
    rw [components_eq, cut, meaning_cons_of_idle (by decide)]
    simp [lead, relative, dotted]
  rw [split] at named ⊢
  obtain ⟨init, kept, meant⟩ := dropIdleEnd_of_getLast? (by simp) named
  refine ⟨⟨ofSegments (dotSegment :: dropIdleEnd init)⟩, ?_, ?_⟩
  · simp [parent?, relative, cut, kept]
  · rw [components_dot_ofSegments (not_mem_separator_of_kept p (by simp [cut]) kept),
      meaning_dropIdleEnd, meant]
    rfl

/-- Without a lead the parent has none either: what is kept before the name begins as the path
does. -/
theorem exists_parent_of_bare {p : Path} {n : Bytes} (relative : p.isAbsolute = false)
    (noDot : p.segments.head? ≠ some dotSegment)
    (named : p.components.getLast? = some (.named n)) :
    ∃ q, p.parent? = some q ∧ p.components = q.components ++ [.named n] := by
  have split : p.components = [] ++ meaning p.segments := by
    rw [components_eq]
    simp [lead, relative, noDot]
  rw [split] at named ⊢
  obtain ⟨init, kept, meant⟩ := dropIdleEnd_of_getLast? (by simp) named
  have begins {s : Bytes} (first : (dropIdleEnd init).head? = some s) :
      p.segments.head? = some s := by
    refine head?_of_dropIdleEnd ?_
    rw [kept, List.head?_append, head?_of_dropIdleEnd first]
    rfl
  have visible : (dropIdleEnd init).head? ≠ some [] := by
    intro first
    obtain ⟨more, cut⟩ := List.head?_eq_some_iff.mp (begins first)
    obtain ⟨others, front⟩ := List.head?_eq_some_iff.mp (head?_of_dropIdleEnd first)
    have nonempty : more ≠ [] := by
      rintro rfl
      have shorter := (List.rdropWhile_prefix isIdleSegment p.segments).length_le
      rw [← dropIdleEnd_eq_rdropWhile, kept, cut, front] at shorter
      simp at shorter
    obtain ⟨t, more, rfl⟩ := List.exists_cons_of_ne_nil nonempty
    rw [isAbsolute_of_segments cut] at relative
    cases relative
  refine ⟨⟨ofSegments (dropIdleEnd init)⟩, ?_, ?_⟩
  · simp [parent?, relative, noDot, kept]
  · rw [components_ofSegments (not_mem_separator_of_kept p (List.Subset.refl _) kept) visible
      (fun first => noDot (begins first)), meaning_dropIdleEnd, meant]
    rfl

/-- A path that ends in a name has a parent, and its components are those of the parent and then
the name. -/
theorem parent?_of_fileName? {p : Path} {n : Bytes} (named : p.fileName? = some n) :
    ∃ q, p.parent? = some q ∧ p.components = q.components ++ [.named n] := by
  rw [fileName?_eq_some_iff] at named
  by_cases absolute : p.isAbsolute = true
  · exact exists_parent_of_absolute absolute named
  have relative : p.isAbsolute = false := by simpa using absolute
  by_cases dotted : p.segments.head? = some dotSegment
  · exact exists_parent_of_dotted relative dotted named
  · exact exists_parent_of_bare relative dotted named

/-- A path whose last component is a name has a parent that means the components before it. -/
theorem exists_parent_of_components {p q : Path} {n : Bytes}
    (split : p.components = q.components ++ [.named n]) :
    ∃ above, p.parent? = some above ∧ above.components = q.components := by
  have named : p.fileName? = some n := by
    rw [fileName?_eq_some_iff, split, List.getLast?_concat]
  obtain ⟨above, found, split'⟩ := parent?_of_fileName? named
  exact ⟨above, found, List.append_cancel_right (split'.symm.trans split)⟩

/-- A name in last place is one of the segments. -/
theorem mem_segments_of_fileName? {p : Path} {n : Bytes} (named : p.fileName? = some n) :
    n ∈ p.segments ∧ Component.ofSegment? n = some (.named n) := by
  rw [fileName?_eq_some_iff, components_eq] at named
  have outside : Component.named n ∉ p.lead := by
    unfold lead
    split_ifs <;> simp
  have member : Component.named n ∈ meaning p.segments :=
    (List.mem_append.mp (List.mem_of_getLast? named)).resolve_left outside
  obtain ⟨s, inside, means⟩ := List.mem_filterMap.mp member
  have same := ofSegment?_eq_named means
  subst same
  exact ⟨inside, means⟩

/-- Splitting a path into parent and name and joining the two again names the same path. -/
theorem components_child_parent {p : Path} {n : Bytes} (named : p.fileName? = some n) :
    ((p.parent?.getD ⟨[]⟩).child n).components = p.components := by
  obtain ⟨q, above, split⟩ := parent?_of_fileName? named
  obtain ⟨member, means⟩ := mem_segments_of_fileName? named
  have single : separator ∉ n := not_mem_of_mem_segmentsOf member
  rw [above, Option.getD_some, components_child q single means, split]

end Path
end WasmBuild
