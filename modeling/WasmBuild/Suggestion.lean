import WasmBuild.Text.Utf8

/-!
# Suggestions for a mistyped word

The candidate with the least edit distance is suggested, the first of them on a tie, if it is near
enough. The distance is the least number of insertions, deletions and substitutions of single bytes
that turn one word into the other. One row of its table is kept: entry `j` is the distance from the
items of the first list read so far to the first `j` items of the second.
-/
namespace WasmBuild.Suggestion

section

variable {α : Type} [DecidableEq α]

/-- The entries of the next row after its first. `left` is the entry just written, `diagonal` the
entry of the old row above it; `above` runs along the old row. -/
def rowTail (x : α) (left diagonal : Nat) : List α → List Nat → List Nat
  | y :: ys, above :: row =>
    let entry := if x = y then diagonal else 1 + min (min diagonal above) left
    entry :: rowTail x entry above ys row
  | _, _ => []

/-- The row after one more item `x` of the first list. -/
def nextRow (target : List α) (row : List Nat) (x : α) : List Nat :=
  match row with
  | [] => []
  | first :: rest => (first + 1) :: rowTail x (first + 1) first target rest

def editDistance (source target : List α) : Nat :=
  (source.foldl (nextRow target) (List.range (target.length + 1))).getLastD 0

end

def textDistance (a b : String) : Nat := editDistance (Utf8.encode a) (Utf8.encode b)

/-- The first item of least cost. -/
def cheapest? {α : Type} (cost : α → Nat) : List α → Option α
  | [] => none
  | a :: rest =>
    match cheapest? cost rest with
    | none => some a
    | some b => if cost b < cost a then some b else some a

/-- The number of edits up to which a word counts as a slip for another. -/
def defaultLimit : Nat := 2

/-- The candidate nearest to `word`, if it is at most `limit` edits away. -/
def closest? (word : String) (candidates : List String) (limit : Nat) :
    Option String :=
  (cheapest? (textDistance word) candidates).filter (textDistance word · ≤ limit)

end WasmBuild.Suggestion
