import WasmBuild.Proofs.Path.Joining
import WasmBuild.Proofs.Path.Parents

/-!
# Splitting a path and joining it again

A path that ends in a name is split into its parent and that name. What the two make together begins
as the path did and goes on with the same segments, without the idle ones before the name and after
it. Splitting it again therefore gives the same parent and the same name, byte by byte.
-/
namespace WasmBuild

theorem isIdleSegment_of_named {segment name : Bytes}
    (named : Component.ofSegment? segment = some (.named name)) :
    isIdleSegment segment = false := by
  by_contra idle
  rw [ofSegment?_eq_none (by simpa using idle)] at named
  cases named

/-- Segments without the idle ones at their end are left as they are. -/
theorem dropIdleEnd_concat (init : List Bytes) {last : Bytes} (moves : isIdleSegment last = false) :
    dropIdleEnd (init ++ [last]) = init ++ [last] :=
  List.rdropWhile_concat_neg _ _ _ (by simp [moves])

theorem dropIdleEnd_dropIdleEnd (segments : List Bytes) :
    dropIdleEnd (dropIdleEnd segments) = dropIdleEnd segments :=
  List.rdropWhile_idempotent ..

/-- What is dropped at the end of some segments is idle. -/
theorem exists_idle_end (segments : List Bytes) :
    ∃ gap, segments = dropIdleEnd segments ++ gap ∧ ∀ s ∈ gap, isIdleSegment s = true :=
  ⟨segments.rtakeWhile isIdleSegment, List.rdropWhile_append_rtakeWhile.symm, fun _ inside =>
    List.mem_rtakeWhile_imp inside⟩

theorem getLast?_dropIdleEnd_ne_nil (segments : List Bytes) :
    (dropIdleEnd segments).getLast? ≠ some [] := by
  intro ends
  obtain ⟨init, whole⟩ := List.getLast?_eq_some_iff.1 ends
  have idle : dropIdleEnd (dropIdleEnd segments) = dropIdleEnd init := by
    rw [whole]
    exact List.rdropWhile_concat_pos _ _ _ rfl
  have shorter := (List.rdropWhile_prefix isIdleSegment init).length_le
  rw [dropIdleEnd_dropIdleEnd, whole] at idle
  rw [← dropIdleEnd_eq_rdropWhile, ← idle, List.length_append, List.length_singleton] at shorter
  omega

/-- Whatever the last segment is, the same bytes stand before it. -/
theorem exists_ofSegments_concat (init : List Bytes) :
    ∃ front, ∀ last, ofSegments (init ++ [last]) = front ++ last := by
  by_cases bare : init = []
  · exact ⟨[], fun last => by rw [bare, List.nil_append, ofSegments_singleton, List.nil_append]⟩
  · refine ⟨ofSegments init ++ [separator], fun last => ?_⟩
    rw [ofSegments_append bare (by simp), ofSegments_singleton, List.append_assoc]
    rfl

/-- Leaving out segments leaves out bytes. -/
theorem ofSegments_sublist {kept segments : List Bytes} (among : kept.Sublist segments) :
    (ofSegments kept).Sublist (ofSegments segments) := by
  induction among with
  | slnil => exact .slnil
  | @cons kept segments first among ih =>
      cases segments with
      | nil =>
          rw [List.sublist_nil.1 among]
          exact List.nil_sublist _
      | cons second more =>
          rw [ofSegments_cons_cons]
          exact (ih.cons _).trans (List.sublist_append_right _ _)
  | @cons_cons kept segments first among ih =>
      cases kept with
      | nil =>
          rw [ofSegments_singleton]
          cases segments with
          | nil => rw [ofSegments_singleton]
          | cons second more =>
              rw [ofSegments_cons_cons]
              exact List.sublist_append_left _ _
      | cons other kept =>
          have nonempty : segments ≠ [] := by
            rintro rfl
            cases among
          obtain ⟨second, more, rfl⟩ := List.exists_cons_of_ne_nil nonempty
          rw [ofSegments_cons_cons, ofSegments_cons_cons]
          exact (List.Sublist.refl first).append (ih.cons_cons separator)

namespace Path

theorem opened_separator_cons (bytes : Bytes) :
    opened (separator :: bytes) = separator :: opened bytes := by
  by_cases bare : bytes = []
  · rw [bare]
    rfl
  · exact opened_append [separator] bare

/-- A name that follows segments of which the last is not empty becomes their last segment. -/
theorem opened_ofSegments {segments : List Bytes} (single : ∀ s ∈ segments, separator ∉ s)
    (ends : segments.getLast? ≠ some []) (name : Bytes) :
    opened (ofSegments segments) ++ name = ofSegments (segments ++ [name]) := by
  rcases List.eq_nil_or_concat segments with rfl | ⟨init, last, rfl⟩
  · simp
  rw [List.concat_eq_append] at *
  have notEmpty : last ≠ [] := by simpa using ends
  have notSeparator : last.getLast? ≠ some separator := fun same =>
    single last (by simp) (List.mem_of_getLast? same)
  have closed : opened last = last ++ [separator] := if_neg (not_or.2 ⟨notEmpty, notSeparator⟩)
  have longer : ofSegments (init ++ [last] ++ [name]) =
      ofSegments (init ++ [last]) ++ separator :: name := by
    rw [ofSegments_append (by simp) (by simp), ofSegments_singleton]
  obtain ⟨front, spelled⟩ := exists_ofSegments_concat init
  rw [longer, spelled, opened_append front notEmpty, closed, List.append_assoc, List.append_assoc,
    List.append_assoc]
  rfl

/-- The segments with which a path begins and that count although they move nowhere: the empty one
of the root, or a dot. -/
def leadSegments (p : Path) : List Bytes :=
  if p.isAbsolute then [[]] else if p.segments.head? = some dotSegment then [dotSegment] else []

/-- The segments behind those with which a path begins. -/
def bodySegments (p : Path) : List Bytes := p.segments.drop p.leadSegments.length

theorem segments_eq (p : Path) : p.segments = p.leadSegments ++ p.bodySegments := by
  unfold bodySegments leadSegments
  split_ifs with absolute dot
  · obtain ⟨b, spelled⟩ := (isAbsolute_iff p).1 absolute
    simp [segments, spelled, segmentsOf]
  · obtain ⟨tail, split⟩ := List.head?_eq_some_iff.1 dot
    simp [split]
  · rfl

/-- The path that begins as another does and goes on with some segments. -/
def goingOn (p : Path) (segments : List Bytes) : Path :=
  if p.isAbsolute then ⟨separator :: ofSegments segments⟩
  else ⟨ofSegments (p.leadSegments ++ segments)⟩

/-- A path that ends in a name has this name at the end of its segments, but for idle ones. -/
theorem exists_dropIdleEnd_body {p : Path} {n : Bytes} (named : p.fileName? = some n) :
    ∃ init, dropIdleEnd p.bodySegments = init ++ [n] := by
  have idle : meaning p.leadSegments = [] := by
    unfold leadSegments
    split_ifs <;> simp [meaning, Component.ofSegment?, isIdleSegment]
  have ends : (p.lead ++ meaning p.bodySegments).getLast? = some (.named n) := by
    rw [fileName?_eq_some_iff, components_eq, segments_eq, meaning_append, idle] at named
    exact named
  have notLead : p.lead.getLast? ≠ some (.named n) := by
    unfold lead
    split_ifs <;> simp
  obtain ⟨init, split, -⟩ := dropIdleEnd_of_getLast? notLead ends
  exact ⟨init, split⟩

/-- The parent of a path begins as the path does and goes on up to the name. -/
theorem parent?_eq_goingOn {p : Path} {n : Bytes} {init : List Bytes}
    (split : dropIdleEnd p.bodySegments = init ++ [n]) :
    p.parent? = some (p.goingOn (dropIdleEnd init)) := by
  by_cases absolute : p.isAbsolute = true
  · have body : p.segments.tail = p.bodySegments := by
      simp [bodySegments, leadSegments, absolute]
    simp [parent?, goingOn, absolute, body, split]
  by_cases dot : p.segments.head? = some dotSegment
  · have body : p.segments.tail = p.bodySegments := by
      simp [bodySegments, leadSegments, absolute, dot]
    simp [parent?, goingOn, leadSegments, absolute, dot, body, split]
  · have body : p.segments = p.bodySegments := by
      simp [bodySegments, leadSegments, absolute, dot]
    rw [parent?, if_neg absolute, if_neg dot, body, split]
    simp [goingOn, leadSegments, absolute, dot]

/-- The root and the dot at the beginning of a path are among its components. -/
theorem leadSegments_eq (p : Path) : p.leadSegments =
    if .root ∈ p.components then [[]] else if .here ∈ p.components then [dotSegment] else [] := by
  have inside : Component.here ∉ meaning p.segments := fun member =>
    (ne_lead_of_mem_meaning member).2 rfl
  have here : .here ∈ p.components ↔ .here ∈ p.lead := by
    rw [components_eq, List.mem_append, or_iff_left inside]
  simp only [root_mem_components_iff, here, lead, leadSegments]
  split_ifs <;> simp_all

theorem isAbsolute_congr {p q : Path} (same : p.components = q.components) :
    p.isAbsolute = q.isAbsolute := by
  rw [Bool.eq_iff_iff, ← root_mem_components_iff, ← root_mem_components_iff, same]

/-- Paths of the same components begin in the same way. -/
theorem goingOn_congr {p q : Path} (same : p.components = q.components) (segments : List Bytes) :
    p.goingOn segments = q.goingOn segments := by
  rw [goingOn, goingOn, isAbsolute_congr same, leadSegments_eq, leadSegments_eq, same]

theorem goingOn_of_isAbsolute {p : Path} (absolute : p.isAbsolute = true) (segments : List Bytes) :
    p.goingOn segments = ⟨separator :: ofSegments segments⟩ := if_pos absolute

theorem goingOn_of_relative {p : Path} (relative : ¬ p.isAbsolute = true)
    (segments : List Bytes) : p.goingOn segments = ⟨ofSegments (p.leadSegments ++ segments)⟩ :=
  if_neg relative

/-- Behind its beginning, a path goes on with the segments that it is given. -/
theorem segments_goingOn (p : Path) {segments : List Bytes} (more : segments ≠ [])
    (single : ∀ s ∈ segments, separator ∉ s) :
    (p.goingOn segments).segments = p.leadSegments ++ segments := by
  have leads : ∀ s ∈ p.leadSegments, separator ∉ s := by
    unfold leadSegments
    split_ifs <;> simp [dotSegment, separator]
  have spelled : p.goingOn segments = ⟨ofSegments (p.leadSegments ++ segments)⟩ := by
    by_cases absolute : p.isAbsolute = true
    · have lead : p.leadSegments = [[]] := if_pos absolute
      rw [goingOn_of_isAbsolute absolute, lead, ofSegments_append (by simp) more,
        ofSegments_singleton, List.nil_append]
    · exact goingOn_of_relative absolute segments
  rw [spelled, Path.segments, segmentsOf_ofSegments (by simp [more])]
  intro s inside
  exact (List.mem_append.1 inside).elim (leads s) (single s)

/-- A name below a path that goes on with segments of which the last is not empty. -/
theorem child_goingOn (p : Path) {segments : List Bytes} {n : Bytes}
    (single : ∀ s ∈ segments, separator ∉ s) (ends : segments.getLast? ≠ some [])
    (nameOnly : separator ∉ n) :
    (p.goingOn segments).child n = p.goingOn (segments ++ [n]) := by
  rw [child, join_eq_opened _ (not_isAbsolute nameOnly)]
  by_cases absolute : p.isAbsolute = true
  · rw [goingOn_of_isAbsolute absolute, goingOn_of_isAbsolute absolute, opened_separator_cons,
      List.cons_append, opened_ofSegments single ends]
  · rw [goingOn_of_relative absolute, goingOn_of_relative absolute, ← List.append_assoc]
    congr 1
    have lead : p.leadSegments = [dotSegment] ∨ p.leadSegments = [] := by
      unfold leadSegments
      split_ifs <;> simp
    rcases lead with lead | lead
    · rw [lead]
      refine opened_ofSegments (fun s inside => ?_) ?_ n
      · rcases List.mem_cons.1 inside with rfl | inside
        · decide
        · exact single s inside
      · rw [List.getLast?_append]
        cases last : segments.getLast? <;> simp_all [dotSegment]
    · rw [lead]
      exact opened_ofSegments single ends n

/-- A path that goes on with segments up to a name and means the same as before has the parent that
it had before. -/
theorem parent?_goingOn {p : Path} {front : List Bytes} {n : Bytes}
    (single : ∀ s ∈ front ++ [n], separator ∉ s) (moves : isIdleSegment n = false)
    (same : (p.goingOn (front ++ [n])).components = p.components) :
    (p.goingOn (front ++ [n])).parent? = some (p.goingOn (dropIdleEnd front)) := by
  have lead : (p.goingOn (front ++ [n])).leadSegments = p.leadSegments := by
    rw [leadSegments_eq, leadSegments_eq, same]
  have body : (p.goingOn (front ++ [n])).bodySegments = front ++ [n] := by
    rw [bodySegments, lead, segments_goingOn p (by simp) single, List.drop_left]
  have kept : dropIdleEnd (p.goingOn (front ++ [n])).bodySegments = front ++ [n] := by
    rw [body, dropIdleEnd_concat front moves]
  rw [parent?_eq_goingOn kept, goingOn_congr same]

/-- A path that ends in a name, beside what its parent and this name make together: the same
segments without an idle gap before the name and an idle rest behind it. -/
structure Splits (p dir : Path) (n : Bytes) (front gap rest : List Bytes) : Prop where
  segments : p.segments = front ++ (gap ++ n :: rest)
  gap_idle : ∀ s ∈ gap, isIdleSegment s = true
  rest_idle : ∀ s ∈ rest, isIdleSegment s = true
  parent : p.parent? = some dir
  rejoined : (dir.child n).segments = front ++ [n]
  components : (dir.child n).components = p.components
  again : (dir.child n).parent? = some dir

theorem exists_splits {p : Path} {n : Bytes} (named : p.fileName? = some n) :
    ∃ dir front gap rest, Splits p dir n front gap rest := by
  obtain ⟨init, kept⟩ := exists_dropIdleEnd_body named
  obtain ⟨rest, body, restIdle⟩ := exists_idle_end p.bodySegments
  obtain ⟨gap, before, gapIdle⟩ := exists_idle_end init
  have parent : p.parent? = some (p.goingOn (dropIdleEnd init)) := parent?_eq_goingOn kept
  obtain ⟨inside, moves⟩ := mem_segments_of_fileName? named
  have nameOnly : separator ∉ n := not_mem_of_mem_segmentsOf inside
  have single : ∀ s ∈ dropIdleEnd init, separator ∉ s := by
    intro s member
    have among : s ∈ p.bodySegments :=
      mem_of_mem_dropIdleEnd (kept ▸ List.mem_append_left _ (mem_of_mem_dropIdleEnd member))
    exact not_mem_of_mem_segmentsOf (List.mem_of_mem_drop among)
  have single' : ∀ s ∈ dropIdleEnd init ++ [n], separator ∉ s := by
    intro s member
    rcases List.mem_append.1 member with first | last
    · exact single s first
    · rwa [List.mem_singleton.1 last]
  have child : (p.goingOn (dropIdleEnd init)).child n = p.goingOn (dropIdleEnd init ++ [n]) :=
    child_goingOn p single (getLast?_dropIdleEnd_ne_nil init) nameOnly
  have components : (p.goingOn (dropIdleEnd init ++ [n])).components = p.components := by
    have joined := components_child_parent named
    rwa [parent, Option.getD_some, child] at joined
  refine ⟨p.goingOn (dropIdleEnd init), p.leadSegments ++ dropIdleEnd init, gap, rest, ?_,
    gapIdle, restIdle, parent, ?_, ?_, ?_⟩
  · calc p.segments = p.leadSegments ++ p.bodySegments := segments_eq p
      _ = p.leadSegments ++ (init ++ [n] ++ rest) := by rw [← kept, ← body]
      _ = p.leadSegments ++ (dropIdleEnd init ++ gap ++ [n] ++ rest) := by rw [← before]
      _ = p.leadSegments ++ dropIdleEnd init ++ (gap ++ n :: rest) := by simp
  · rw [child, segments_goingOn p (by simp) single', List.append_assoc]
  · rw [child, components]
  · rw [child, parent?_goingOn single' (isIdleSegment_of_named moves) components,
      dropIdleEnd_dropIdleEnd]

/-- Splitting a path and joining it again loses idle segments and separators only. -/
theorem Splits.bytes_sublist {p dir : Path} {n : Bytes} {front gap rest : List Bytes}
    (splits : Splits p dir n front gap rest) : (dir.child n).bytes.Sublist p.bytes := by
  have kept : (front ++ [n]).Sublist (front ++ (gap ++ n :: rest)) :=
    (List.Sublist.refl front).append ((List.singleton_sublist.2 (by simp)))
  rw [← splits.rejoined, ← splits.segments] at kept
  have bytes := ofSegments_sublist kept
  rwa [Path.segments, Path.segments, ofSegments_segmentsOf, ofSegments_segmentsOf] at bytes

end Path
end WasmBuild
