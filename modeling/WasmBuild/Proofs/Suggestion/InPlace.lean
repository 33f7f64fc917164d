import WasmBuild.Suggestion

/-!
# The row overwritten in place

One row is enough for the edit distance: its entries are overwritten from left to right, and the one
old value that is still asked for is kept aside. Here every entry is read and written at its index,
and there is no result once an index lies outside the row. There always is one, and it is the edit
distance.
-/
namespace WasmBuild.Suggestion

variable {α : Type} [DecidableEq α]

/-- A row whose first entries are new already. `diagonal` is what stood in the last one of these. -/
structure HalfRow where
  row : List Nat
  diagonal : Nat

/-- Overwrites the entry behind an index, for the item of the second list at that index. -/
def HalfRow.overwrite? (x : α) (half : HalfRow) : α × Nat → Option HalfRow
  | (y, j) => do
    let above ← half.row[j + 1]?
    let left ← half.row[j]?
    let entry := if x = y then half.diagonal else 1 + min (min half.diagonal above) left
    return ⟨half.row.set (j + 1) entry, above⟩

/-- Overwrites a whole row, for the item of the first list at an index. -/
def overwriteRow? (target : List α) (row : List Nat) : α × Nat → Option (List Nat)
  | (x, i) => do
    let first ← row[0]?
    let half ← target.zipIdx.foldlM (HalfRow.overwrite? x) ⟨row.set 0 (i + 1), first⟩
    return half.row

/-- The edit distance by a row that is overwritten in place. -/
def editDistanceInPlace? (source target : List α) : Option Nat := do
  let row ← source.zipIdx.foldlM (overwriteRow? target) (List.range (target.length + 1))
  row[target.length]?

theorem length_rowTail (x : α) (left diagonal : Nat) {ys : List α} {old : List Nat}
    (same : old.length = ys.length) : (rowTail x left diagonal ys old).length = ys.length := by
  induction ys generalizing left diagonal old with
  | nil => simp [rowTail]
  | cons y ys ih =>
      cases old with
      | nil => contradiction
      | cons above old =>
          rw [rowTail, List.length_cons, List.length_cons, ih _ _ (Nat.succ.inj same)]

/-- Overwriting the entry behind `left`, where `front` and `left` are new and `above` is old. -/
theorem overwrite?_append (x y : α) (front old : List Nat) (left diagonal above : Nat) :
    HalfRow.overwrite? x ⟨front ++ left :: above :: old, diagonal⟩ (y, front.length) =
      some ⟨front ++ left ::
        (if x = y then diagonal else 1 + min (min diagonal above) left) :: old, above⟩ := by
  have readsAbove : (front ++ left :: above :: old)[front.length + 1]? = some above := by
    rw [List.getElem?_append_right (Nat.le_add_right _ 1), Nat.add_sub_cancel_left]
    rfl
  have readsLeft : (front ++ left :: above :: old)[front.length]? = some left := by
    rw [List.getElem?_append_right (Nat.le_refl _), Nat.sub_self]
    rfl
  have writes (entry : Nat) : (front ++ left :: above :: old).set (front.length + 1) entry =
      front ++ left :: entry :: old := by
    rw [List.set_append_right _ _ (Nat.le_add_right _ 1), Nat.add_sub_cancel_left]
    rfl
  simp only [HalfRow.overwrite?, readsAbove, readsLeft, writes, Option.bind_eq_bind,
    Option.bind_some, Option.pure_def]

/-- Every entry that is left to overwrite lies in the row, and becomes the entry of the new row. -/
theorem foldlM_overwrite? (x : α) {ys : List α} {old : List Nat} (same : old.length = ys.length)
    (front : List Nat) (left diagonal : Nat) :
    ∃ last, (ys.zipIdx front.length).foldlM (HalfRow.overwrite? x)
        ⟨front ++ left :: old, diagonal⟩ =
      some ⟨front ++ left :: rowTail x left diagonal ys old, last⟩ := by
  induction ys generalizing old front left diagonal with
  | nil =>
      obtain rfl := List.length_eq_zero_iff.1 same
      exact ⟨diagonal, rfl⟩
  | cons y ys ih =>
      cases old with
      | nil => contradiction
      | cons above old =>
          rw [List.zipIdx_cons, List.foldlM_cons, overwrite?_append, Option.bind_eq_bind,
            Option.bind_some]
          -- The entry just written joins `front`, and is the one to the left of the next.
          obtain ⟨last, rest⟩ := ih (Nat.succ.inj same) (front ++ [left])
            (if x = y then diagonal else 1 + min (min diagonal above) left) above
          rw [List.length_append, List.length_singleton, List.append_assoc,
            List.singleton_append] at rest
          exact ⟨last, by rw [rest, rowTail, List.append_assoc, List.singleton_append]⟩

/-- A row is overwritten with the next one if its first entry is the index of the item. -/
theorem overwriteRow?_eq (x : α) (index : Nat) {target : List α} {rest : List Nat}
    (same : rest.length = target.length) :
    overwriteRow? target (index :: rest) (x, index) = some (nextRow target (index :: rest) x) := by
  obtain ⟨last, whole⟩ := foldlM_overwrite? x same [] (index + 1) index
  have done : target.zipIdx.foldlM (HalfRow.overwrite? x) ⟨(index + 1) :: rest, index⟩ =
      some ⟨(index + 1) :: rowTail x (index + 1) index target rest, last⟩ := whole
  simp only [overwriteRow?, List.getElem?_cons_zero, List.set_cons_zero, Option.bind_eq_bind,
    Option.bind_some, done, Option.pure_def, nextRow]

/-- Overwriting goes on to the end, and the last row has an entry for each beginning of the second
list. -/
theorem foldlM_overwriteRow? (source : List α) (index : Nat) {target : List α} {rest : List Nat}
    (same : rest.length = target.length) :
    (source.zipIdx index).foldlM (overwriteRow? target) (index :: rest) =
        some (source.foldl (nextRow target) (index :: rest)) ∧
      (source.foldl (nextRow target) (index :: rest)).length = target.length + 1 := by
  induction source generalizing index rest with
  | nil => exact ⟨rfl, congrArg (· + 1) same⟩
  | cons x source ih =>
      rw [List.zipIdx_cons, List.foldlM_cons, overwriteRow?_eq x index same, Option.bind_eq_bind,
        Option.bind_some, List.foldl_cons, nextRow]
      exact ih (index + 1) (length_rowTail x (index + 1) index same)

/-- No index lies outside the row, and the entry read at the end is the edit distance. -/
theorem editDistanceInPlace?_eq (source target : List α) :
    editDistanceInPlace? source target = some (editDistance source target) := by
  have start : List.range (target.length + 1) = 0 :: List.range' 1 target.length := by
    rw [List.range_eq_range', List.range'_succ]
  have same : (List.range' 1 target.length).length = target.length := List.length_range'
  obtain ⟨whole, length⟩ := foldlM_overwriteRow? source 0 same
  rw [editDistanceInPlace?, editDistance, start, whole, Option.bind_eq_bind, Option.bind_some,
    List.getLastD_eq_getLast?, List.getLast?_eq_getElem?, length, Nat.add_sub_cancel]
  rw [List.getElem?_eq_getElem (by omega), Option.getD_some]

end WasmBuild.Suggestion
