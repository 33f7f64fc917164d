import Mathlib.Data.List.Infix
import WasmBuild.Toml.Value

/-!
# What readers leave

Whatever a reader of a document leaves is an end of the text that it was given. So the length of
what is left tells where in the text a reader stands, which is how keys and values know their
places.
-/
namespace WasmBuild.Toml

/-- What may be left, if anything, is an end of a text. -/
def Ends (text : List Char) (left : Option (List Char)) : Prop :=
  ∀ rest, left = some rest → rest <:+ text

/-- What a reader leaves, where it reads something. -/
def left {α : Type} (read : Option (α × List Char)) : Option (List Char) := read.map Prod.snd

section Left

variable {α β : Type}

@[simp, grind =] theorem left_none : left (none : Option (α × List Char)) = none := rfl

@[simp, grind =] theorem left_some (a : α) (rest : List Char) :
    left (some (a, rest)) = some rest := rfl

@[simp, grind =] theorem left_withChar (c : Char) (read : Option (List Char × List Char)) :
    left (withChar c read) = left read := by
  cases read <;> rfl

@[simp, grind =] theorem left_withQuotes (quote : Char) (count : Nat)
    (read : Option (List Char × List Char)) : left (withQuotes quote count read) = left read := by
  cases read <;> rfl

theorem left_map_pair (o : Option α) (rest : List Char) :
    left (o.map (·, rest)) = o.map fun _ => rest := by
  cases o <;> rfl

theorem left_bind (o : Option α) (next : α → Option (β × List Char)) :
    left (o.bind next) = o.bind fun a => left (next a) := by
  cases o <;> rfl

end Left

namespace Ends

variable {α : Type} {text : List Char} {remains : Option (List Char)}

@[simp, grind ←] theorem none (text : List Char) : Ends text none := nofun

@[grind ←] theorem some {rest : List Char} (suffix : rest <:+ text) : Ends text (some rest) := by
  rintro _ ⟨⟩
  exact suffix

@[grind ←] theorem cons (ends : Ends text remains) (c : Char) : Ends (c :: text) remains :=
  fun rest found => (ends rest found).trans (List.suffix_cons c text)

theorem trans {before : List Char} (ends : Ends text remains) (inside : text <:+ before) :
    Ends before remains :=
  fun rest found => (ends rest found).trans inside

/-- Going on from what is left, where only an end of it is left again. -/
theorem bind {next : List Char → Option (List Char)} (first : Ends text remains)
    (others : ∀ rest, Ends rest (next rest)) : Ends text (remains.bind next) := by
  intro rest found
  obtain ⟨middle, read, found⟩ := Option.bind_eq_some_iff.1 found
  exact (others middle rest found).trans (first middle read)

/-- Going on after a reader, where only an end of what it leaves is left again. -/
theorem bindRead {read : Option (α × List Char)} {next : α × List Char → Option (List Char)}
    (first : Ends text (left read)) (others : ∀ a rest, Ends rest (next (a, rest))) :
    Ends text (read.bind next) := by
  intro rest found
  obtain ⟨⟨a, middle⟩, read, found⟩ := Option.bind_eq_some_iff.1 found
  exact (others a middle rest found).trans (first middle (by rw [read, left_some]))

/-- A change of what was read does not touch what is left. -/
theorem map {β : Type} {f : α × List Char → β × List Char} {read : Option (α × List Char)}
    (same : ∀ p, (f p).2 = p.2) (ends : Ends text (left read)) : Ends text (left (read.map f)) := by
  have equal : left (read.map f) = left read := by
    cases read with
    | none => rfl
    | some p => exact congrArg Option.some (same p)
  rwa [equal]

theorem mapPair {rest : List Char} (inside : rest <:+ text) (o : Option α) :
    Ends text (left (o.map (·, rest))) := by
  rw [left_map_pair]
  cases o with
  | none => exact none text
  | some a => exact some inside

end Ends

variable (text : List Char)

theorem skipGap_suffix : skipGap text <:+ text := List.dropWhile_suffix isGap

theorem skipComment_suffix : skipComment text <:+ text := by
  unfold skipComment
  split
  · exact (List.dropWhile_suffix _).trans (List.suffix_cons _ _)
  · exact List.suffix_refl _

theorem ends_lineEnd? : Ends text (lineEnd? text) := by
  unfold lineEnd?
  split
  · exact .some (List.suffix_refl _)
  · exact .some (List.suffix_cons _ _)
  · exact .cons (.some (List.suffix_cons _ _)) _
  · exact .none _

theorem ends_finishLine? : Ends text (finishLine? text) :=
  (ends_lineEnd? _).trans ((skipComment_suffix _).trans (skipGap_suffix text))

theorem ends_skipLines? (inComment : Bool) : Ends text (skipLines? inComment text) := by
  fun_induction skipLines? inComment text <;> grind [List.suffix_cons]

/-! ### Strings -/

theorem ends_basicText (state : BasicState) : Ends text (left (basicText state text)) := by
  fun_induction basicText state text <;> grind [List.suffix_cons]

theorem ends_literalText : Ends text (left (literalText text)) := by
  fun_induction literalText text <;> grind [List.suffix_cons]

theorem ends_basicBlock (state : BlockState) : Ends text (left (basicBlock state text)) := by
  fun_induction basicBlock state text <;> grind [List.suffix_cons]

theorem ends_literalBlock (quotes : Nat) : Ends text (left (literalBlock quotes text)) := by
  fun_induction literalBlock quotes text <;> grind [List.suffix_cons]

theorem skipFirstLineEnd_suffix : skipFirstLineEnd text <:+ text := by
  unfold skipFirstLineEnd
  split
  · exact List.suffix_cons _ _
  · exact (List.suffix_cons _ _).trans (List.suffix_cons _ _)
  · exact List.suffix_refl _

theorem ends_lineString : Ends text (left (lineString text)) := by
  unfold lineString
  split
  · exact (ends_basicText _ _).cons _
  · exact (ends_literalText _).cons _
  · exact .none _

theorem ends_anyString : Ends text (left (anyString text)) := by
  unfold anyString
  split
  · exact ((((ends_basicBlock _ _).trans (skipFirstLineEnd_suffix _)).cons _).cons _).cons _
  · exact ((((ends_literalBlock _ _).trans (skipFirstLineEnd_suffix _)).cons _).cons _).cons _
  · exact ends_lineString text

/-! ### Numbers -/

theorem ends_moreDigits (isDigit : Char → Bool) : Ends text (left (moreDigits isDigit text)) := by
  fun_induction moreDigits isDigit text with
  | case1 => exact .some (List.suffix_refl _)
  | case2 d rest digit ih =>
      exact .map (fun _ => rfl) ((ih.cons d).cons _)
  | case3 | case5 => exact .none _
  | case4 c rest _ digit ih =>
      exact .map (fun _ => rfl) (ih.cons c)
  | case6 => exact .some (List.suffix_refl _)

theorem ends_someDigits (isDigit : Char → Bool) : Ends text (left (someDigits isDigit text)) := by
  unfold someDigits
  split
  · exact .none _
  · split
    · exact .map (fun _ => rfl) ((ends_moreDigits _ _).cons _)
    · exact .none _

theorem ends_wholeDigits : Ends text (left (wholeDigits text)) := by
  unfold wholeDigits
  split
  · exact .some (List.suffix_cons _ _)
  · exact ends_someDigits text _

theorem sign_suffix : (sign text).2 <:+ text := by
  unfold sign
  split
  · exact List.suffix_cons _ _
  · exact List.suffix_cons _ _
  · exact List.suffix_refl _

theorem ends_basedInteger (base : Nat) (isDigit : Char → Bool) :
    Ends text (left (basedInteger base isDigit text)) := by
  rw [basedInteger, left_bind]
  exact .bindRead (ends_someDigits text _) fun _ rest => .mapPair (List.suffix_refl rest) _

theorem ends_exponent : Ends text (left (exponent text)) := by
  exact .map (fun _ => rfl) ((ends_someDigits _ _).trans (sign_suffix text))

theorem ends_optionalExponent : Ends text (left (optionalExponent text)) := by
  unfold optionalExponent
  split
  · split
    · exact (ends_exponent _).cons _
    · exact .some (List.suffix_refl _)
  · exact .some (List.suffix_refl _)

theorem ends_afterWhole (negative : Bool) (whole : List Char) :
    Ends text (left (afterWhole negative whole text)) := by
  unfold afterWhole
  split
  · rw [left_bind]
    refine .cons (.bindRead (ends_someDigits _ _) fun fraction rest => ?_) _
    rw [left_bind]
    exact .bindRead (ends_optionalExponent rest) fun _ after => .mapPair (List.suffix_refl after) _
  · split
    · rw [left_bind]
      refine .cons (.bindRead (ends_exponent _) fun _ after => ?_) _
      exact .mapPair (List.suffix_refl after) _
    · exact .mapPair (List.suffix_refl _) _
  · exact .mapPair (List.suffix_refl _) _

theorem ends_signedNumber (negative : Bool) : Ends text (left (signedNumber negative text)) := by
  unfold signedNumber
  split
  · next rest => exact .some (List.suffix_append ['i', 'n', 'f'] rest)
  · next rest => exact .some (List.suffix_append ['n', 'a', 'n'] rest)
  · rw [left_bind]
    exact .bindRead (ends_wholeDigits text) fun whole rest => ends_afterWhole rest negative whole

theorem ends_number : Ends text (left (number text)) := by
  unfold number
  split
  · exact ((ends_basedInteger _ _ _).cons _).cons _
  · exact ((ends_basedInteger _ _ _).cons _).cons _
  · exact ((ends_basedInteger _ _ _).cons _).cons _
  · exact (ends_signedNumber _ _).trans (sign_suffix text)

/-! ### Dates and times -/

theorem ends_fixedDigits (count value : Nat) : Ends text (left (fixedDigits count value text)) := by
  fun_induction fixedDigits count value text with
  | case1 => exact .some (List.suffix_refl _)
  | case2 _ _ c _ _ ih => exact ih.cons c
  | case3 | case4 => exact .none _

theorem ends_twoDigits (low high : Nat) : Ends text (left (twoDigits low high text)) := by
  rw [twoDigits, left_bind]
  refine .bindRead (ends_fixedDigits text _ _) fun n rest => ?_
  show Ends rest (left (if low ≤ n ∧ n ≤ high then _ else _))
  split
  · exact .some (List.suffix_refl _)
  · exact .none _

theorem ends_after? (c : Char) : Ends text (after? c text) := by
  unfold after?
  split
  · split
    · exact .some (List.suffix_cons _ _)
    · exact .none _
  · exact .none _

theorem ends_date? : Ends text (date? text) := by
  refine .bindRead (ends_fixedDigits text _ _) fun year rest => ?_
  refine .bind (ends_after? rest _) fun rest => ?_
  refine .bindRead (ends_twoDigits rest _ _) fun month rest => ?_
  refine .bind (ends_after? rest _) fun rest => ?_
  exact .bindRead (ends_twoDigits rest _ _) fun _ rest => .some (List.suffix_refl rest)

theorem skipFraction_suffix : skipFraction text <:+ text := by
  unfold skipFraction
  split
  · split
    · exact ((List.dropWhile_suffix _).trans (List.suffix_cons _ _)).trans (List.suffix_cons _ _)
    · exact List.suffix_refl _
  · exact List.suffix_refl _

theorem ends_time? : Ends text (time? text) := by
  refine .bindRead (ends_twoDigits text _ _) fun _ rest => ?_
  refine .bind (ends_after? rest _) fun rest => ?_
  refine .bindRead (ends_twoDigits rest _ _) fun _ rest => ?_
  refine .bind (ends_after? rest _) fun rest => ?_
  exact .bindRead (ends_twoDigits rest _ _) fun _ rest => .some (skipFraction_suffix rest)

theorem ends_offset? : Ends text (offset? text) := by
  unfold offset?
  split
  · split
    · exact .some (List.suffix_cons _ _)
    · split
      · refine .cons (.bindRead (ends_twoDigits _ _ _) fun _ rest => ?_) _
        refine .bind (ends_after? rest _) fun rest => ?_
        exact .bindRead (ends_twoDigits rest _ _) fun _ rest => .some (List.suffix_refl rest)
      · exact .some (List.suffix_refl _)
  · exact .some (List.suffix_refl _)

theorem ends_timeOfDate? : Ends text (timeOfDate? text) := by
  unfold timeOfDate?
  split
  · split
    · split
      · next after read => exact .cons ((ends_offset? after).trans (ends_time? _ _ read)) _
      · exact .some (List.suffix_refl _)
    · exact .some (List.suffix_refl _)
  · exact .some (List.suffix_refl _)

theorem ends_dateTime? : Ends text (dateTime? text) := by
  unfold dateTime?
  split
  · next after read => exact (ends_timeOfDate? after).trans (ends_date? _ _ read)
  · exact ends_time? text

theorem ends_keyPart (total : Nat) : Ends text (left (keyPart total text)) := by
  unfold keyPart
  split
  · exact .none _
  · split
    · exact .map (fun _ => rfl) (ends_lineString _)
    · split
      · exact .some (List.dropWhile_suffix _)
      · exact .none _

end WasmBuild.Toml
