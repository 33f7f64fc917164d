import Mathlib.Order.Bounds.Basic
import WasmBuild.Proofs.Suggestion.EditDistance
import WasmBuild.Proofs.Suggestion.InPlace

/-!
# The edit distance is the least number of edits

One edit changes the distance to any third list by one at most, so fewer edits than the distance
says do not lead from one list to another. With this the distance is what edits make it: the same
from either side, and never longer than the way over a third list.
-/
namespace WasmBuild.Suggestion

section Edits

variable {α : Type} {m n : Nat} {a b c : List α}

theorem Edit.symm (edit : Edit a b) : Edit b a := by
  cases edit with
  | insert front y back => exact .delete front y back
  | delete front x back => exact .insert front x back
  | replace front x y back => exact .replace front y x back

theorem Edits.trans (edits : Edits m a b) (others : Edits n b c) : Edits (m + n) a c := by
  induction edits with
  | none a => rwa [Nat.zero_add]
  | more first rest ih =>
      rw [Nat.add_right_comm]
      exact .more first (ih others)

theorem Edits.symm (edits : Edits n a b) : Edits n b a := by
  induction edits with
  | none a => exact .none a
  | more first others ih => exact ih.trans (.more first.symm (.none _))

theorem Edits.length_le (edits : Edits n a b) : a.length ≤ b.length + n := by
  induction edits with
  | none a => exact Nat.le_refl _
  | more first others ih =>
      cases first <;> simp only [List.length_append, List.length_cons] at ih ⊢ <;> omega

end Edits

variable {α : Type} [DecidableEq α]

theorem distance_comm (a b : List α) : distance a b = distance b a := by
  fun_induction distance a b with
  | case1 b => rw [distance_nil_right]
  | case2 x a => rw [distance_nil_left]
  | case3 a x b ih => rw [distance, if_pos rfl, ih]
  | case4 x a y b other replaced deleted inserted =>
      rw [distance, if_neg (Ne.symm other), replaced, deleted, inserted, min_right_comm]

/-- One item more on the left changes the distance by one at most. -/
theorem distance_cons_bounds (x : α) (a b : List α) :
    distance (x :: a) b ≤ distance a b + 1 ∧ distance a b ≤ distance (x :: a) b + 1 := by
  match b with
  | [] =>
      rw [distance_nil_right, distance_nil_right, List.length_cons]
      omega
  | y :: b =>
      -- One item more on the right is one more on the left once the lists have changed sides, and
      -- together they are shorter here. Where the items agree, each bound needs the other one.
      have right := distance_cons_bounds y b a
      rw [distance_comm (y :: b) a, distance_comm b a] at right
      have shorter := distance_cons_bounds x a b
      by_cases same : x = y
      · rw [distance, if_pos same]
        omega
      · rw [distance, if_neg same]
        omega
termination_by a.length + b.length

theorem distance_cons_right_bounds (y : α) (a b : List α) :
    distance a (y :: b) ≤ distance a b + 1 ∧ distance a b ≤ distance a (y :: b) + 1 := by
  rw [distance_comm a (y :: b), distance_comm a b]
  exact distance_cons_bounds y b a

theorem distance_replace_le (x y : α) (a c : List α) :
    distance (x :: a) c ≤ distance (y :: a) c + 1 := by
  induction c with
  | nil =>
      rw [distance_nil_right, distance_nil_right]
      exact Nat.le_succ _
  | cons z c ih =>
      have left := distance_cons_bounds y a c
      have right := distance_cons_right_bounds z a c
      rw [distance, distance]
      split <;> split <;> omega

/-- If `a` is further than `b` from any list by one edit at most, it stays so behind the same
item. -/
theorem distance_cons_mono {a b : List α} (near : ∀ c, distance a c ≤ distance b c + 1) (z : α)
    (c : List α) : distance (z :: a) c ≤ distance (z :: b) c + 1 := by
  induction c with
  | nil =>
      have lengths := near []
      rw [distance_nil_right, distance_nil_right] at lengths ⊢
      rw [List.length_cons, List.length_cons]
      omega
  | cons w c ih =>
      have diagonal := near c
      have deleted := near (w :: c)
      rw [distance, distance]
      split <;> omega

theorem distance_append_mono {a b : List α} (near : ∀ c, distance a c ≤ distance b c + 1)
    (front c : List α) : distance (front ++ a) c ≤ distance (front ++ b) c + 1 := by
  induction front generalizing c with
  | nil => exact near c
  | cons z front ih => exact distance_cons_mono ih z c

/-- One edit brings a list nearer to any other by one at most. -/
theorem Edit.distance_le {a b : List α} (edit : Edit a b) (c : List α) :
    distance a c ≤ distance b c + 1 := by
  cases edit with
  | insert front y back =>
      exact distance_append_mono (fun c => (distance_cons_bounds y back c).2) front c
  | delete front x back =>
      exact distance_append_mono (fun c => (distance_cons_bounds x back c).1) front c
  | replace front x y back => exact distance_append_mono (distance_replace_le x y back) front c

theorem Edits.distance_le {n : Nat} {a b : List α} (edits : Edits n a b) : distance a b ≤ n := by
  induction edits with
  | none a => exact (distance_self a).le
  | more first others ih => exact (first.distance_le _).trans (Nat.succ_le_succ ih)

/-- Fewer edits than the edit distance says do not lead from one list to the other. -/
theorem Edits.editDistance_le {n : Nat} {source target : List α} (edits : Edits n source target) :
    editDistance source target ≤ n := by
  rw [editDistance_eq]
  exact edits.reverse.distance_le

/-- The edit distance is the least number of insertions, deletions and replacements of single items
that lead from one list to the other. One row that is overwritten in place is enough to find it, and
no index ever lies outside this row. -/
theorem editDistance_isLeast (source target : List α) :
    IsLeast {n | Edits n source target} (editDistance source target) ∧
      editDistanceInPlace? source target = some (editDistance source target) :=
  ⟨⟨edits_editDistance source target, fun _ edits => edits.editDistance_le⟩,
    editDistanceInPlace?_eq source target⟩

end WasmBuild.Suggestion
