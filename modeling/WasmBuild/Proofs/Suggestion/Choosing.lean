import Mathlib.Data.List.Pairwise
import WasmBuild.Proofs.Suggestion.Closest
import WasmBuild.Proofs.Suggestion.LeastEdits
import WasmBuild.Verbosity

/-!
# Which candidate is suggested

The first of the nearest candidates is suggested, and none if even that one is out of reach. Where
the candidates lie more than twice the limit apart, a word is in reach of one of them at most, and
their order does not matter.
-/
namespace WasmBuild.Suggestion

section FirstCheapest

variable {α : Type} {cost : α → Nat} {items : List α} {i j : Nat} {item other : α}

/-- An item stands at an index, nothing in the list costs less, and all before it costs more. -/
structure FirstCheapest (cost : α → Nat) (items : List α) (i : Nat) (item : α) : Prop where
  stands : items[i]? = some item
  least : ∀ other ∈ items, cost item ≤ cost other
  first : ∀ j < i, ∀ other, items[j]? = some other → cost item < cost other

theorem FirstCheapest.index_le (one : FirstCheapest cost items i item)
    (two : FirstCheapest cost items j other) : i ≤ j := by
  by_contra later
  have less : cost item < cost other := one.first j (Nat.lt_of_not_le later) other two.stands
  have most : cost other ≤ cost item := two.least item (List.mem_of_getElem? one.stands)
  omega

theorem FirstCheapest.unique (one : FirstCheapest cost items i item)
    (two : FirstCheapest cost items j other) : item = other := by
  obtain rfl : i = j := Nat.le_antisymm (one.index_le two) (two.index_le one)
  exact Option.some.inj (one.stands.symm.trans two.stands)

theorem exists_firstCheapest (found : cheapest? cost items = some item) :
    ∃ i, FirstCheapest cost items i item := by
  induction items with
  | nil => contradiction
  | cons a rest ih =>
      have least : ∀ other ∈ a :: rest, cost item ≤ cost other := fun _ => cheapest?_le found
      obtain ⟨rfl, -⟩ | ⟨inside, less⟩ := cheapest?_cons_cases found
      · exact ⟨0, rfl, least, fun j earlier => absurd earlier (Nat.not_lt_zero j)⟩
      · obtain ⟨i, stands, -, first⟩ := ih inside
        refine ⟨i + 1, stands, least, fun j earlier other placed => ?_⟩
        cases j with
        | zero => exact Option.some.inj placed ▸ less
        | succ j => exact first j (Nat.lt_of_succ_lt_succ earlier) other placed

theorem cheapest?_eq_some_iff :
    cheapest? cost items = some item ↔ ∃ i, FirstCheapest cost items i item := by
  constructor
  · exact exists_firstCheapest
  · rintro ⟨i, given⟩
    obtain ⟨best, found⟩ : ∃ best, cheapest? cost items = some best :=
      exists_cheapest? (List.ne_nil_of_mem (List.mem_of_getElem? given.stands))
    obtain ⟨j, chosen⟩ := exists_firstCheapest found
    rw [found, chosen.unique given]

end FirstCheapest

variable {word : String} {candidates : List String} {limit : Nat}

theorem closest?_eq_none_iff :
    closest? word candidates limit = none ↔
      ∀ candidate ∈ candidates, limit < textDistance word candidate := by
  constructor
  · intro nothing candidate member
    obtain ⟨best, found⟩ : ∃ best, cheapest? (textDistance word) candidates = some best :=
      exists_cheapest? (List.ne_nil_of_mem member)
    have least : textDistance word best ≤ textDistance word candidate := cheapest?_le found member
    have far : ¬ textDistance word best ≤ limit := by simpa [closest?, found] using nothing
    omega
  · intro far
    cases found : closest? word candidates limit with
    | none => rfl
    | some best =>
        obtain ⟨member, near⟩ := mem_of_closest? found
        exact absurd near (Nat.not_le_of_lt (far best member))

/-- A candidate is suggested exactly if it is in reach and stands at an index where nothing in the
list is nearer to the word and all before is farther from it. Nothing is suggested exactly if every
candidate is out of reach. -/
theorem suggested_iff_first_nearest (word : String) (candidates : List String) (limit : Nat) :
    (∀ candidate, closest? word candidates limit = some candidate ↔
      ∃ i, FirstCheapest (textDistance word) candidates i candidate ∧
        textDistance word candidate ≤ limit) ∧
    (closest? word candidates limit = none ↔
      ∀ candidate ∈ candidates, limit < textDistance word candidate) := by
  refine ⟨fun candidate => ?_, closest?_eq_none_iff⟩
  rw [closest?, Option.filter_eq_some_iff, cheapest?_eq_some_iff, decide_eq_true_iff,
    exists_and_right]

/-- A number of edits of single bytes, at most `limit`, turns one text into the other. -/
def WithinEdits (limit : Nat) (a b : String) : Prop :=
  ∃ n ≤ limit, Edits n (Utf8.encode a) (Utf8.encode b)

section WithinEdits

variable {m n : Nat} {a b c : String}

theorem WithinEdits.symm (near : WithinEdits n a b) : WithinEdits n b a := by
  obtain ⟨k, le, edits⟩ := near
  exact ⟨k, le, edits.symm⟩

theorem WithinEdits.trans (near : WithinEdits m a b) (next : WithinEdits n b c) :
    WithinEdits (m + n) a c := by
  obtain ⟨k, le, edits⟩ := near
  obtain ⟨l, le', others⟩ := next
  exact ⟨k + l, Nat.add_le_add le le', edits.trans others⟩

theorem withinEdits_iff : WithinEdits limit a b ↔ textDistance a b ≤ limit := by
  constructor
  · rintro ⟨n, le, edits⟩
    exact edits.editDistance_le.trans le
  · intro le
    exact ⟨_, le, edits_editDistance _ _⟩

instance : Decidable (WithinEdits limit a b) := decidable_of_iff _ withinEdits_iff.symm

end WithinEdits

/-- Any two of the candidates are more than twice the limit of edits apart. -/
def Separated (limit : Nat) (candidates : List String) : Prop :=
  candidates.Pairwise fun a b => ¬ WithinEdits (2 * limit) a b

instance : Decidable (Separated limit candidates) :=
  inferInstanceAs (Decidable (candidates.Pairwise _))

theorem Separated.perm {permuted : List String} (apart : Separated limit candidates)
    (perm : permuted.Perm candidates) : Separated limit permuted :=
  (perm.pairwise_iff fun far near => far near.symm).2 apart

/-- No word is in reach of two of them, which would be near each other by way of the word. -/
theorem Separated.not_both (apart : Separated limit candidates) {a b : String}
    {rest : List String} :
    candidates.filter (WithinEdits limit word ·) ≠ a :: b :: rest := by
  intro both
  have near (c : String) (member : c ∈ a :: b :: rest) : WithinEdits limit word c := by
    rw [← both, List.mem_filter] at member
    exact of_decide_eq_true member.2
  have far : ¬ WithinEdits (2 * limit) a b := by
    have others := List.Pairwise.filter (WithinEdits limit word ·) apart
    rw [both] at others
    exact List.rel_of_pairwise_cons others List.mem_cons_self
  rw [two_mul] at far
  exact far ((near a (.head _)).symm.trans (near b (.tail _ (.head _))))

/-- Of separated candidates at most one is in reach, and that one is suggested. -/
theorem Separated.filter_withinEdits (apart : Separated limit candidates) (word : String) :
    candidates.filter (WithinEdits limit word ·) = (closest? word candidates limit).toList := by
  cases found : closest? word candidates limit with
  | none =>
      refine List.filter_eq_nil_iff.2 fun c member near => ?_
      exact absurd (withinEdits_iff.1 (of_decide_eq_true near))
        (Nat.not_le_of_lt (closest?_eq_none_iff.1 found c member))
  | some best =>
      obtain ⟨member, near⟩ := mem_of_closest? found
      have reached : best ∈ candidates.filter (WithinEdits limit word ·) :=
        List.mem_filter.2 ⟨member, decide_eq_true (withinEdits_iff.2 near)⟩
      cases reach : candidates.filter (WithinEdits limit word ·) with
      | nil => exact absurd (reach ▸ reached) List.not_mem_nil
      | cons a others =>
          cases others with
          | nil =>
              rw [reach, List.mem_singleton] at reached
              rw [reached, Option.toList_some]
          | cons b rest => exact absurd reach apart.not_both

theorem closest?_perm {permuted : List String} (apart : Separated limit candidates)
    (perm : permuted.Perm candidates) (word : String) :
    closest? word permuted limit = closest? word candidates limit := by
  have reach := perm.filter (WithinEdits limit word ·)
  rw [apart.filter_withinEdits, (apart.perm perm).filter_withinEdits] at reach
  cases found : closest? word candidates limit with
  | none =>
      rw [found, Option.toList_none, List.perm_nil] at reach
      exact Option.toList_eq_nil_iff.1 reach
  | some best =>
      rw [found, Option.toList_some, List.perm_singleton] at reach
      exact Option.toList_eq_singleton_iff.1 reach

/-- If any two candidates are more than twice the limit of edits apart, then a candidate that a word
reaches within the limit is the only one that it reaches, and is what is suggested for it. What is
suggested, if anything is, does not depend on the order of the candidates. -/
theorem suggested_of_separated {limit : Nat} {candidates : List String}
    (apart : Separated limit candidates) (word : String) :
    (∀ candidate ∈ candidates, WithinEdits limit word candidate →
      closest? word candidates limit = some candidate ∧
        candidates.filter (WithinEdits limit word ·) = [candidate]) ∧
    ∀ permuted : List String, permuted.Perm candidates →
      closest? word permuted limit = closest? word candidates limit := by
  refine ⟨fun candidate member near => ?_, fun permuted perm => closest?_perm apart perm word⟩
  have reached : candidate ∈ candidates.filter (WithinEdits limit word ·) :=
    List.mem_filter.2 ⟨member, decide_eq_true near⟩
  have all := apart.filter_withinEdits word
  rw [all, Option.mem_toList] at reached
  have suggested : closest? word candidates limit = some candidate := reached
  exact ⟨suggested, by rw [all, suggested, Option.toList_some]⟩

/-- The names of the levels are separated, so a slip in one of them is corrected in the same way
whatever order they are listed in. -/
theorem suggested_of_separated_levels :
    Separated defaultLimit Verbosity.names ∧ "verbose" ∈ Verbosity.names ∧
      WithinEdits defaultLimit "vebrose" "verbose" ∧
      closest? "vebrose" Verbosity.names.reverse defaultLimit = some "verbose" := by
  have apart : Separated defaultLimit Verbosity.names := by decide
  have near : WithinEdits defaultLimit "vebrose" "verbose" := by decide
  have known : "verbose" ∈ Verbosity.names := by decide
  obtain ⟨suggested, anyOrder⟩ := suggested_of_separated apart "vebrose"
  refine ⟨apart, known, near, ?_⟩
  rw [anyOrder _ (List.reverse_perm _)]
  exact (suggested "verbose" known near).1

end WasmBuild.Suggestion
