import WasmBuild.Proofs.Suggestion.EditDistance
import WasmBuild.Proofs.Text.Utf8
import WasmBuild.Suggestion

/-!
# What is suggested for a word

A suggestion is one of the candidates, and no more edits than the limit allows lead to it from the
word. So a word that is a candidate itself is suggested for itself.
-/
namespace WasmBuild.Suggestion

section Cheapest

variable {α : Type} {cost : α → Nat} {items : List α} {best : α}

theorem exists_cheapest? (notEmpty : items ≠ []) : ∃ best, cheapest? cost items = some best := by
  cases items with
  | nil => contradiction
  | cons a rest =>
      rw [cheapest?]
      split
      · exact ⟨a, rfl⟩
      · next b found =>
          by_cases less : cost b < cost a
          · exact ⟨b, if_pos less⟩
          · exact ⟨a, if_neg less⟩

/-- The first item of a list is the cheapest one, or a cheaper one of the others is. -/
theorem cheapest?_cons_cases {a : α} (cheapest : cheapest? cost (a :: items) = some best) :
    best = a ∧ (∀ b, cheapest? cost items = some b → cost a ≤ cost b) ∨
      cheapest? cost items = some best ∧ cost best < cost a := by
  rw [cheapest?] at cheapest
  split at cheapest
  · next empty =>
      obtain rfl := Option.some.inj cheapest
      exact .inl ⟨rfl, fun b found => by rw [empty] at found; contradiction⟩
  · next b found =>
      split at cheapest
      · next less =>
          obtain rfl := Option.some.inj cheapest
          exact .inr ⟨found, less⟩
      · next notLess =>
          obtain rfl := Option.some.inj cheapest
          refine .inl ⟨rfl, fun b' found' => ?_⟩
          obtain rfl := Option.some.inj (found.symm.trans found')
          exact Nat.le_of_not_lt notLess

theorem mem_of_cheapest? (cheapest : cheapest? cost items = some best) : best ∈ items := by
  induction items with
  | nil => contradiction
  | cons a rest ih =>
      obtain ⟨rfl, -⟩ | ⟨found, -⟩ := cheapest?_cons_cases cheapest
      · exact List.mem_cons_self
      · exact List.mem_cons_of_mem a (ih found)

theorem cheapest?_le (cheapest : cheapest? cost items = some best) {b : α} (member : b ∈ items) :
    cost best ≤ cost b := by
  induction items generalizing best with
  | nil => contradiction
  | cons a rest ih =>
      obtain ⟨rfl, least⟩ | ⟨found, less⟩ := cheapest?_cons_cases cheapest
      · obtain rfl | inside := List.mem_cons.1 member
        · exact Nat.le_refl _
        · obtain ⟨c, found⟩ := exists_cheapest? (List.ne_nil_of_mem inside)
          exact (least c found).trans (ih found inside)
      · obtain rfl | inside := List.mem_cons.1 member
        · exact less.le
        · exact ih found inside

end Cheapest

variable {word suggested : String} {candidates : List String} {limit : Nat}

/-- What is suggested is a candidate within the limit. -/
theorem mem_of_closest? (closest : closest? word candidates limit = some suggested) :
    suggested ∈ candidates ∧ textDistance word suggested ≤ limit := by
  obtain ⟨found, near⟩ := Option.filter_eq_some_iff.1 closest
  exact ⟨mem_of_cheapest? found, of_decide_eq_true near⟩

/-- A candidate is suggested for itself. -/
theorem closest?_self (member : word ∈ candidates) :
    closest? word candidates limit = some word := by
  obtain ⟨best, found⟩ := exists_cheapest? (List.ne_nil_of_mem member)
  have least : textDistance word best ≤ textDistance word word := cheapest?_le found member
  have zero : textDistance word word = 0 := editDistance_self _
  have same : textDistance word best = 0 := by omega
  obtain rfl : word = best := Utf8.encode_injective (editDistance_eq_zero_iff.1 same)
  rw [closest?, found, Option.filter_some_pos]
  exact decide_eq_true (zero ▸ Nat.zero_le limit)

end WasmBuild.Suggestion
