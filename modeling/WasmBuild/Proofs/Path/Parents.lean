import WasmBuild.Proofs.Path.Components

/-!
# The parent of a path as it is written

Taking the parent cuts a path at one of its separators and never rewrites what stands before it.
Only the root is kept together with its separator, and the parent of a single name is empty.
-/
namespace WasmBuild

theorem ofSegments_append {a b : List Bytes} (nonempty : a ≠ []) (nonempty' : b ≠ []) :
    ofSegments (a ++ b) = ofSegments a ++ separator :: ofSegments b := by
  obtain ⟨t, rest, rfl⟩ := List.exists_cons_of_ne_nil nonempty'
  induction a with
  | nil => contradiction
  | cons s a ih =>
      cases a with
      | nil => simp [ofSegments_cons_cons]
      | cons s' a =>
          rw [List.cons_append, List.cons_append, ofSegments_cons_cons, ofSegments_cons_cons,
            ← List.cons_append, ih (by simp), List.append_assoc, List.cons_append]

/-- Cutting bytes at separators and putting the segments together again gives them back. -/
theorem ofSegments_segmentsOf (bytes : Bytes) : ofSegments (segmentsOf bytes) = bytes := by
  induction bytes with
  | nil => rfl
  | cons x bytes ih =>
      obtain ⟨s, more, segments⟩ := List.exists_cons_of_ne_nil (segmentsOf_ne_nil bytes)
      by_cases divides : x = separator
      · rw [segmentsOf, if_pos divides, segments, ofSegments_cons_cons, ← segments, ih, divides]
        rfl
      · rw [segments] at ih
        rw [segmentsOf, if_neg divides, segments]
        cases more with
        | nil => simpa using ih
        | cons t more =>
            rw [ofSegments_cons_cons] at ih ⊢
            rw [List.cons_append, ih]

/-- Before the last segment that moves anywhere, and what is idle before it, there is a front of the
segments. -/
theorem exists_split_dropIdleEnd {segments : List Bytes} (moves : dropIdleEnd segments ≠ []) :
    ∃ more ≠ [], segments = dropIdleEnd (dropIdleEnd segments).dropLast ++ more := by
  have first : dropIdleEnd segments <+: segments := List.rdropWhile_prefix isIdleSegment segments
  have second : dropIdleEnd (dropIdleEnd segments).dropLast <+: (dropIdleEnd segments).dropLast :=
    List.rdropWhile_prefix isIdleSegment _
  obtain ⟨more, whole⟩ := (second.trans (List.dropLast_prefix _)).trans first
  refine ⟨more, ?_, whole.symm⟩
  rintro rfl
  have shorter := second.length_le
  have kept := first.length_le
  have positive := List.length_pos_of_ne_nil moves
  rw [List.append_nil] at whole
  rw [whole, List.length_dropLast] at shorter
  omega

/-- What is kept of segments for their parent, behind a lead, is followed by a separator. -/
theorem exists_behind_kept (lead : List Bytes) {segments : List Bytes}
    (moves : dropIdleEnd segments ≠ [])
    (shown : lead ++ dropIdleEnd (dropIdleEnd segments).dropLast ≠ []) :
    ∃ rest, ofSegments (lead ++ segments) =
      ofSegments (lead ++ dropIdleEnd (dropIdleEnd segments).dropLast) ++ separator :: rest := by
  obtain ⟨more, nonempty, split⟩ := exists_split_dropIdleEnd moves
  refine ⟨ofSegments more, ?_⟩
  rw [← ofSegments_append shown nonempty, List.append_assoc, ← split]

namespace Path

/-- The parent of a path is empty, or it is the root, or a separator and some more stand behind it
in the path. -/
theorem parent?_eq_some_cases {p up : Path} (parent : p.parent? = some up) :
    up.bytes = [] ∨ (up.bytes = [separator] ∧ p.isAbsolute = true) ∨
      ∃ rest, p.bytes = up.bytes ++ separator :: rest := by
  rw [← ofSegments_segmentsOf p.bytes, show segmentsOf p.bytes = p.segments from rfl]
  unfold parent? at parent
  by_cases absolute : p.isAbsolute = true
  · rw [if_pos absolute] at parent
    obtain ⟨b, spelled⟩ := (isAbsolute_iff p).1 absolute
    have cut : p.segments = [[]] ++ segmentsOf b := by simp [segments, spelled, segmentsOf]
    rw [cut, List.singleton_append, List.tail_cons] at parent
    split at parent
    · cases parent
    · next kept moves =>
        obtain rfl := Option.some.inj parent
        obtain ⟨rest, behind⟩ := exists_behind_kept [[]] moves (by simp)
        rw [← cut] at behind
        cases front : dropIdleEnd (dropIdleEnd (segmentsOf b)).dropLast with
        | nil => exact .inr (.inl ⟨by simp, absolute⟩)
        | cons first others =>
            rw [front, List.singleton_append, ofSegments_cons_cons] at behind
            exact .inr (.inr ⟨rest, behind⟩)
  rw [if_neg absolute] at parent
  by_cases dot : p.segments.head? = some dotSegment
  · rw [if_pos dot] at parent
    obtain ⟨tail, cut⟩ := List.head?_eq_some_iff.1 dot
    rw [cut, List.tail_cons] at parent
    split at parent
    · obtain rfl := Option.some.inj parent
      exact .inl rfl
    · next kept moves =>
        obtain rfl := Option.some.inj parent
        obtain ⟨rest, behind⟩ := exists_behind_kept [dotSegment] moves (by simp)
        exact .inr (.inr ⟨rest, cut ▸ behind⟩)
  rw [if_neg dot] at parent
  split at parent
  · cases parent
  · next kept moves =>
      obtain rfl := Option.some.inj parent
      by_cases bare : dropIdleEnd (dropIdleEnd p.segments).dropLast = []
      · exact .inl (by simp [bare])
      · obtain ⟨rest, behind⟩ := exists_behind_kept [] moves bare
        exact .inr (.inr ⟨rest, behind⟩)

end Path
end WasmBuild
