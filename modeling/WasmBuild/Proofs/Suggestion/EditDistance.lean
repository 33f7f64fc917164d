import Mathlib.Order.MinMax
import WasmBuild.Suggestion

/-!
# Edit distance as a number of edits

The rows of the table hold the values of a plain recursion on both lists, and these values are
numbers of edits of single items that turn the one list into the other.
-/
namespace WasmBuild.Suggestion

section Edits

variable {α : Type}

/-- A single item of a list is inserted, deleted or replaced. -/
inductive Edit : List α → List α → Prop
  | insert (front : List α) (y : α) (back : List α) : Edit (front ++ back) (front ++ y :: back)
  | delete (front : List α) (x : α) (back : List α) : Edit (front ++ x :: back) (front ++ back)
  | replace (front : List α) (x y : α) (back : List α) :
      Edit (front ++ x :: back) (front ++ y :: back)

/-- A number of edits, one after the other. -/
inductive Edits : Nat → List α → List α → Prop
  | none (a : List α) : Edits 0 a a
  | more {n : Nat} {a b c : List α} (first : Edit a b) (others : Edits n b c) : Edits (n + 1) a c

variable {n : Nat} {a b : List α}

theorem edits_zero_iff : Edits 0 a b ↔ a = b := by
  constructor
  · intro edits
    cases edits
    rfl
  · rintro rfl
    exact .none a

theorem Edit.cons (z : α) (edit : Edit a b) : Edit (z :: a) (z :: b) := by
  cases edit with
  | insert front y back => exact .insert (z :: front) y back
  | delete front x back => exact .delete (z :: front) x back
  | replace front x y back => exact .replace (z :: front) x y back

theorem Edit.reverse (edit : Edit a b) : Edit a.reverse b.reverse := by
  cases edit with
  | insert front y back => simpa using Edit.insert back.reverse y front.reverse
  | delete front x back => simpa using Edit.delete back.reverse x front.reverse
  | replace front x y back => simpa using Edit.replace back.reverse x y front.reverse

theorem Edits.cons (z : α) (edits : Edits n a b) : Edits n (z :: a) (z :: b) := by
  induction edits with
  | none a => exact .none (z :: a)
  | more first others ih => exact .more (first.cons z) ih

theorem Edits.reverse (edits : Edits n a b) : Edits n a.reverse b.reverse := by
  induction edits with
  | none a => exact .none a.reverse
  | more first others ih => exact .more first.reverse ih

theorem edits_from_nil (b : List α) : Edits b.length [] b := by
  induction b with
  | nil => exact .none []
  | cons y b ih => exact .more (.insert [] y []) (ih.cons y)

theorem edits_to_nil (a : List α) : Edits a.length a [] := by
  induction a with
  | nil => exact .none []
  | cons x a ih => exact .more (.delete [] x a) ih

end Edits

variable {α : Type} [DecidableEq α]

/-- The edit distance between two lists by recursion on both. -/
def distance : List α → List α → Nat
  | [], b => b.length
  | x :: a, [] => (x :: a).length
  | x :: a, y :: b =>
    if x = y then distance a b
    else 1 + min (min (distance a b) (distance a (y :: b))) (distance (x :: a) b)
termination_by a b => a.length + b.length

theorem distance_nil_left (b : List α) : distance [] b = b.length := by
  rw [distance]

theorem distance_nil_right (a : List α) : distance a [] = a.length := by
  cases a <;> rw [distance]

theorem distance_self (a : List α) : distance a a = 0 := by
  induction a with
  | nil => exact distance_nil_left []
  | cons x a ih => rw [distance, if_pos rfl, ih]

/-- As many edits as the distance says turn one list into the other. -/
theorem edits_distance (a b : List α) : Edits (distance a b) a b := by
  fun_induction distance a b with
  | case1 b => exact edits_from_nil b
  | case2 x a => exact edits_to_nil (x :: a)
  | case3 a x b ih => exact ih.cons x
  | case4 x a y b other replaced deleted inserted =>
      rw [Nat.add_comm]
      -- The neighbour with the least value says which edit comes first.
      rcases min_choice (min (distance a b) (distance a (y :: b))) (distance (x :: a) b)
        with inner | left
      · rw [inner]
        rcases min_choice (distance a b) (distance a (y :: b)) with diagonal | above
        · rw [diagonal]
          exact .more (.replace [] x y a) (replaced.cons y)
        · rw [above]
          exact .more (.delete [] x a) deleted
      · rw [left]
        exact .more (.insert [] y (x :: a)) (inserted.cons y)

/-- The entries of a row after the first one, for the items `read` of the first list and the items
`seen` of the second list that stand before. Both are in reverse order. -/
def entries (read seen : List α) : List α → List Nat
  | [] => []
  | y :: ys => distance read (y :: seen) :: entries read (y :: seen) ys

/-- The row of the items that were read, in reverse order. -/
def row (read target : List α) : List Nat := distance read [] :: entries read [] target

theorem rowTail_entries (x : α) (read seen ys : List α) :
    rowTail x (distance (x :: read) seen) (distance read seen) ys (entries read seen ys) =
      entries (x :: read) seen ys := by
  induction ys generalizing seen with
  | nil => rfl
  | cons y ys ih =>
      -- `left` is the entry just written, `diagonal` and `above` still stand in the old row.
      have entry : distance (x :: read) (y :: seen) =
          if x = y then distance read seen
          else 1 + min (min (distance read seen) (distance read (y :: seen)))
            (distance (x :: read) seen) := by rw [distance]
      simp only [entries, rowTail, ← entry, ih]

theorem nextRow_row (x : α) (read target : List α) :
    nextRow target (row read target) x = row (x :: read) target := by
  have first : distance read [] + 1 = distance (x :: read) [] := by
    rw [distance_nil_right, distance_nil_right, List.length_cons]
  rw [row, nextRow, first, rowTail_entries, row]

theorem foldl_nextRow (read source target : List α) :
    source.foldl (nextRow target) (row read target) = row (source.reverse ++ read) target := by
  induction source generalizing read with
  | nil => rfl
  | cons x source ih =>
      rw [List.foldl_cons, nextRow_row, ih, List.reverse_cons, List.append_assoc,
        List.singleton_append]

theorem entries_nil (seen ys : List α) :
    entries [] seen ys = List.range' (seen.length + 1) ys.length := by
  induction ys generalizing seen with
  | nil => rfl
  | cons y ys ih =>
      rw [entries, ih, distance_nil_left, List.length_cons, List.length_cons, List.range'_succ]

theorem row_nil (target : List α) : row [] target = List.range (target.length + 1) := by
  rw [row, entries_nil, distance_nil_left, List.range_eq_range', List.range'_succ]
  rfl

theorem getLastD_entries (read seen ys : List α) :
    (entries read seen ys).getLastD (distance read seen) = distance read (ys.reverse ++ seen) := by
  induction ys generalizing seen with
  | nil => rfl
  | cons y ys ih =>
      rw [entries, List.getLastD_cons, ih, List.reverse_cons, List.append_assoc,
        List.singleton_append]

/-- The table computes the recursion on the reversed lists. -/
theorem editDistance_eq (source target : List α) :
    editDistance source target = distance source.reverse target.reverse := by
  rw [editDistance, ← row_nil, foldl_nextRow, row, List.getLastD_cons, getLastD_entries,
    List.append_nil, List.append_nil]

theorem editDistance_self (a : List α) : editDistance a a = 0 := by
  rw [editDistance_eq, distance_self]

/-- As many edits as the edit distance says turn the first list into the second. -/
theorem edits_editDistance (source target : List α) :
    Edits (editDistance source target) source target := by
  have reversed := (edits_distance source.reverse target.reverse).reverse
  rwa [List.reverse_reverse, List.reverse_reverse, ← editDistance_eq] at reversed

theorem editDistance_eq_zero_iff {a b : List α} : editDistance a b = 0 ↔ a = b := by
  constructor
  · intro zero
    have edits := edits_editDistance a b
    rw [zero] at edits
    exact edits_zero_iff.1 edits
  · rintro rfl
    exact editDistance_self a

end WasmBuild.Suggestion
