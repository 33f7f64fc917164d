import Mathlib.Algebra.BigOperators.Group.List.Basic
import Mathlib.Data.List.Basic
import WasmBuild.Proofs.Suggestion.Choosing
import WasmBuild.Proofs.Text.Utf8
import WasmBuild.Verbosity

/-!
# What the warning about a level offers

A warning repeats the value it is about, and the value may hold any words, those of an offer among
them. Apart from what it repeats, the warning offers the suggestion that was made and nothing else.
No offer begins in the value and ends behind it either: a suggestion is only made for short values,
and the words of an offer up to its first quote are longer.
-/
namespace WasmBuild

theorem Text.length_le_lowerFrom (before chars : List Char) :
    chars.length ≤ (lowerFrom before chars).length := by
  induction chars generalizing before with
  | nil => exact Nat.zero_le _
  | cons c rest ih =>
      have one : 0 < (if c = '\u03a3' then
          if meetsCased before && !meetsCased rest then ['\u03c2'] else ['\u03c3']
        else lowerChar c).length := by
        unfold lowerChar
        split_ifs <;> (try split) <;> simp
      rw [lowerFrom, List.length_append, List.length_cons]
      have others := ih (c :: before)
      omega

theorem Utf8.length_le_encode (text : String) : text.length ≤ (encode text).length := by
  rw [encode, List.length_flatMap, ← String.length_toList]
  have each : ∀ n ∈ text.toList.map fun c => (String.utf8EncodeChar c).length, 1 ≤ n := by
    simp only [List.mem_map]
    rintro n ⟨c, -, rfl⟩
    rw [String.length_utf8EncodeChar]
    exact Char.utf8Size_pos c
  simpa using List.length_le_sum_of_one_le _ each

/-- A text is not longer than the words it is in reach of, its limit added. -/
theorem Suggestion.WithinEdits.length_le {limit : Nat} {value word : String}
    (near : WithinEdits limit (Text.lowercase value) word) :
    value.length ≤ (Utf8.encode word).length + limit := by
  obtain ⟨n, le, edits⟩ := near
  have bytes := edits.length_le
  have chars := Utf8.length_le_encode (Text.lowercase value)
  have lower := Text.length_le_lowerFrom [] value.toList
  have same : (Text.lowercase value).length = (Text.lowerFrom [] value.toList).length := by
    rw [Text.lowercase, String.length_ofList]
  rw [String.length_toList] at lower
  omega

namespace Verbosity

open Suggestion

/-- The words that offer a correction. -/
def offer (word : String) : String := "Did you mean '" ++ word ++ "'?"

/-- What a warning says in front of the value that it repeats. -/
def heading : String := "Warning: Invalid EMPROJ_VERBOSITY value '"

/-- The names that a warning lists at its end. -/
def listing : String := "\nValid values: quiet, normal, verbose, debug\n"

/-- What a warning says behind the value that it repeats. -/
def remark (suggestion? : Option String) : String :=
  let hint := match suggestion? with
    | some word => ". Did you mean '" ++ word ++ "'?"
    | none => ""
  "'" ++ hint ++ listing

theorem choice_warning (value : String) :
    choice.warning value = heading ++ value ++ remark (choice.suggestion? value) := by
  have begun : "Warning: Invalid " ++ choice.variableName ++ " value '" = heading := by decide
  have listed : "\nValid values: " ++ (String.intercalate ", " choice.valid ++ "\n") = listing := by
    decide
  delta NamedChoice.warning remark
  rw [begun]
  cases choice.suggestion? value with
  | none => simp only [String.append_assoc, listed]
  | some word => simp only [String.append_assoc, listed]

theorem suggestion_cases {value word : String} (found : choice.suggestion? value = some word) :
    word ∈ names ∧ WithinEdits 2 (Text.lowercase value) word ∧ word ≠ Text.lowercase value := by
  simp only [NamedChoice.suggestion?, Option.filter_eq_some_iff] at found
  obtain ⟨closest, other⟩ := found
  obtain ⟨member, near⟩ := mem_of_closest? closest
  exact ⟨member, withinEdits_iff.2 near, of_decide_eq_true other⟩

theorem toList_offer (word : String) :
    (offer word).toList = 'D' :: ("id you mean '".toList ++ word.toList ++ ['\'', '?']) := by
  delta offer
  simp [String.toList_append]

section Remark

variable {x : String} {suggestion? : Option String} {before after : List Char}

/-- Behind the value stands no offer but that of the suggestion. The letter and the mark that an
offer begins and ends with stand there once, or not at all. -/
theorem eq_some_of_remark (known : ∀ word ∈ suggestion?, word ∈ names)
    (offered : (remark suggestion?).toList = before ++ (offer x).toList ++ after) :
    suggestion? = some x := by
  rw [toList_offer, List.append_assoc, List.cons_append] at offered
  cases suggestion? with
  | none =>
      have absent : 'D' ∉ (remark none).toList := by decide
      exact absurd (offered ▸ by simp) absent
  | some word =>
      have parts : (remark (some word)).toList = "'. ".toList ++ 'D' ::
          ("id you mean '".toList ++ word.toList ++ ['\''] ++ '?' :: listing.toList) := by
        delta remark
        simp [String.toList_append]
      have once : ∀ word ∈ names,
          'D' ∉ "id you mean '".toList ++ word.toList ++ ['\''] ++ '?' :: listing.toList ∧
          '?' ∉ "id you mean '".toList ++ word.toList ++ ['\''] := by
        decide
      obtain ⟨noLetter, noMark⟩ := once word (known word rfl)
      rw [parts] at offered
      obtain ⟨-, -, behind⟩ := (List.append_cons_inj_of_notMem (by decide) noLetter).1 offered
      have regrouped : "id you mean '".toList ++ word.toList ++ ['\''] ++ '?' :: listing.toList =
          "id you mean '".toList ++ x.toList ++ ['\''] ++ '?' :: after := by
        simpa using behind
      obtain ⟨same, -, -⟩ := (List.append_cons_inj_of_notMem noMark (by decide)).1 regrouped
      have named : word.toList = x.toList := by simpa using same
      rw [String.toList_inj.1 named]

end Remark

/-- What is followed by an item that a list does not hold begins with the whole list. -/
theorem exists_append_of_notMem {α : Type} {c : α} {front back before after : List α}
    (same : front ++ back = before ++ c :: after) (absent : c ∉ front) :
    ∃ inner, before = front ++ inner ∧ back = inner ++ c :: after := by
  obtain ⟨inner, split, rest⟩ | ⟨inner, split, rest⟩ := List.append_eq_append_iff.1 same
  · exact ⟨inner, split, rest⟩
  · cases inner with
    | nil => exact ⟨[], by simpa using split.symm, by simpa using rest.symm⟩
    | cons d others =>
        obtain ⟨rfl, -⟩ := List.cons.inj rest
        exact absurd (split ▸ by simp) absent

/-- No offer begins in the value of a warning and ends behind it. -/
theorem not_across {value x : String} {inner begun rest after : List Char}
    (held : value.toList = inner ++ begun) (whole : (offer x).toList = begun ++ rest)
    (behind : (remark (choice.suggestion? value)).toList = rest ++ after) : rest = [] := by
  cases found : choice.suggestion? value with
  | none =>
      -- The mark at the end of an offer is missing.
      by_contra more
      have last : (offer x).toList.getLast? = some '?' := by
        have apart : (offer x).toList = "Did you mean '".toList ++ x.toList ++ ['\''] ++ ['?'] := by
          simp [toList_offer]
        rw [apart, List.getLast?_concat]
      have ending : '?' ∈ rest := by
        rw [whole, List.getLast?_append_of_ne_nil _ more] at last
        exact List.mem_of_getLast? last
      have absent : '?' ∉ (remark none).toList := by decide
      rw [found] at behind
      exact absurd (behind ▸ List.mem_append_left _ ending) absent
  | some word =>
      -- The quote behind the value would be the first one of the offer.
      cases rest with
      | nil => rfl
      | cons c others =>
          exfalso
          obtain ⟨member, near, -⟩ := suggestion_cases found
          have short : ∀ name ∈ names, (Utf8.encode name).length ≤ 7 := by decide
          have most : value.length ≤ 9 :=
            near.length_le.trans (Nat.add_le_add_right (short word member) 2)
          obtain rfl : c = '\'' := by
            have head := congrArg List.head? behind
            rw [found] at head
            delta remark at head
            simpa [String.toList_append] using head.symm
          have split : "Did you mean ".toList ++ '\'' :: (x.toList ++ ['\'', '?']) =
              begun ++ '\'' :: others := by
            rw [← whole, toList_offer]
            simp
          obtain ⟨inner', rfl, -⟩ := exists_append_of_notMem split (by decide)
          have length := congrArg List.length held
          have words : "Did you mean ".length = 13 := rfl
          simp only [List.length_append, String.length_toList] at length
          omega

/-- Where a warning has the words of an offer, they are part of the value, or the offer is that of
the suggestion. -/
theorem offer_cases {value x before after : String}
    (offered : choice.warning value = before ++ offer x ++ after) :
    (∃ inner rest, before = heading ++ inner ∧ value = inner ++ offer x ++ rest) ∨
      choice.suggestion? value = some x := by
  have chars := congrArg String.toList offered
  simp only [choice_warning, String.toList_append, List.append_assoc] at chars
  have letter : heading.toList ++ (value.toList ++ (remark (choice.suggestion? value)).toList) =
      before.toList ++ 'D' ::
        ("id you mean '".toList ++ x.toList ++ ['\'', '?'] ++ after.toList) := by
    rw [chars, toList_offer, List.cons_append]
  obtain ⟨inner, ahead, others⟩ := exists_append_of_notMem letter (by decide)
  rw [← List.cons_append, ← toList_offer] at others
  have begins : before = heading ++ String.ofList inner := by
    rw [← String.toList_inj, ahead, String.toList_append, String.toList_ofList]
  have within {rest : List Char} (held : value.toList = inner ++ ((offer x).toList ++ rest)) :
      value = String.ofList inner ++ offer x ++ String.ofList rest := by
    rw [← String.toList_inj, held]
    simp [String.toList_append]
  obtain ⟨skipped, -, behind⟩ | ⟨begun, held, others⟩ := List.append_eq_append_iff.1 others
  · have apart : (remark (choice.suggestion? value)).toList =
        skipped ++ (offer x).toList ++ after.toList := by
      rw [behind, List.append_assoc]
    exact .inr (eq_some_of_remark (fun word found => (suggestion_cases found).1) apart)
  · refine .inl ⟨String.ofList inner, ?_⟩
    obtain ⟨rest, whole, -⟩ | ⟨rest, whole, behind⟩ := List.append_eq_append_iff.1 others
    · exact ⟨String.ofList rest, begins, within (whole ▸ held)⟩
    · obtain rfl := not_across held whole behind
      rw [List.append_nil] at whole
      exact ⟨"", begins, within (by rw [whole, held, List.append_nil])⟩

end Verbosity
end WasmBuild
