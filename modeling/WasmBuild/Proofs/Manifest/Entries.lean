import WasmBuild.Manifest.Shape
import WasmBuild.Proofs.Toml.Keyed

/-!
# Reading the entries of a table

A table is read entry by entry. What each entry keeps, the whole table keeps; what each entry adds
to the unknown keys, the table adds in the order of its entries; and where keys are distinct, a part
of the value that one key fills is what looking that key up gives.
-/
namespace WasmBuild.Manifest

open Toml

variable {α β : Type}

namespace Noted

variable {noted result : Noted α} {change : α → β → α}

theorem set_eq_ok_iff {read : Except Fault β} :
    noted.set change read = .ok result ↔
      ∃ b, read = .ok b ∧ result = ⟨change noted.value b, noted.unknown⟩ := by
  cases read <;> simp [set, eq_comm]

theorem merge_eq_ok_iff {read : Except Fault (Noted β)} :
    noted.merge change read = .ok result ↔
      ∃ inner, read = .ok inner ∧
        result = ⟨change noted.value inner.value, noted.unknown ++ inner.unknown⟩ := by
  cases read <;> simp [merge, eq_comm]

end Noted

section Entries

variable {read : Key → Node → Noted α → Except Fault (Noted α)} {entry : Key × Node}
  {entries : Entries} {noted result : Noted α}

theorem readEntries_cons_eq_ok_iff :
    readEntries read (entry :: entries) noted = .ok result ↔
      ∃ next, read entry.1 entry.2 noted = .ok next ∧
        readEntries read entries next = .ok result := by
  rw [readEntries]
  cases step : read entry.1 entry.2 noted <;> simp [placedAt]

/-- What every entry of a table keeps, reading the whole table keeps. -/
theorem readEntries_keeps (keeps : α → Prop)
    (step : ∀ key node noted result, keeps noted.value → read key node noted = .ok result →
      keeps result.value)
    (start : keeps noted.value) (reads : readEntries read entries noted = .ok result) :
    keeps result.value := by
  induction entries generalizing noted with
  | nil => exact Except.ok.inj reads ▸ start
  | cons entry rest ih =>
      obtain ⟨next, first, others⟩ := readEntries_cons_eq_ok_iff.1 reads
      exact ih (step _ _ _ _ start first) others

/-- What each entry of a table adds to the unknown keys, the table adds entry by entry. -/
theorem unknown_of_readEntries (adds : Key × Node → List UnknownKey)
    (step : ∀ key node noted result, read key node noted = .ok result →
      result.unknown = noted.unknown ++ adds (key, node))
    (reads : readEntries read entries noted = .ok result) :
    result.unknown = noted.unknown ++ entries.flatMap adds := by
  induction entries generalizing noted with
  | nil =>
      obtain rfl := Except.ok.inj reads
      simp
  | cons entry rest ih =>
      obtain ⟨next, first, others⟩ := readEntries_cons_eq_ok_iff.1 reads
      rw [ih others, step _ _ _ _ first, List.flatMap_cons, List.append_assoc]

/-- A table is read if each of its entries is, whatever was read before it. -/
theorem exists_readEntries
    (accepts : ∀ entry ∈ entries, ∀ noted, ∃ next, read entry.1 entry.2 noted = .ok next)
    (noted : Noted α) : ∃ result, readEntries read entries noted = .ok result := by
  induction entries generalizing noted with
  | nil => exact ⟨noted, rfl⟩
  | cons entry rest ih =>
      obtain ⟨next, first⟩ := accepts entry List.mem_cons_self noted
      obtain ⟨result, others⟩ := ih (fun e member => accepts e (List.mem_cons_of_mem _ member)) next
      exact ⟨result, readEntries_cons_eq_ok_iff.2 ⟨next, first, others⟩⟩

/-- What a key says in a table: its value as read, or a default where the key is missing. -/
def lookedUp (entries : Entries) (name : String) (default : β) (field : Node → Option β) :
    Option β :=
  match entries.find? name with
  | none => some default
  | some node => field node

/-- A part of a value is filled by the key of one name, and by no other key. -/
structure Fills (read : Key → Node → Noted α → Except Fault (Noted α)) (name : String)
    (part : α → β) (field : Node → Option β) : Prop where
  own : ∀ key node noted result, key.name = name → read key node noted = .ok result →
    field node = some (part result.value)
  other : ∀ key node noted result, key.name ≠ name → read key node noted = .ok result →
    part result.value = part noted.value

/-- Among distinct keys, a part that is filled by one name is what looking up that name gives. -/
theorem Fills.lookedUp {name : String} {part : α → β} {field : Node → Option β}
    (fills : Fills read name part field) (distinct : entries.names.Nodup)
    (reads : readEntries read entries noted = .ok result) :
    lookedUp entries name (part noted.value) field = some (part result.value) := by
  induction entries generalizing noted with
  | nil => exact Except.ok.inj reads ▸ rfl
  | cons entry rest ih =>
      obtain ⟨next, first, others⟩ := readEntries_cons_eq_ok_iff.1 reads
      obtain ⟨fresh, distinct⟩ := List.nodup_cons.1 distinct
      have later := ih distinct others
      rw [Manifest.lookedUp, Entries.find?_cons]
      by_cases own : entry.1.name = name
      · have absent : Entries.find? rest name = none := Entries.find?_eq_none_iff.2 (own ▸ fresh)
        rw [Manifest.lookedUp, absent] at later
        rw [if_pos own, ← later]
        exact fills.own _ _ _ _ own first
      · rw [if_neg own, ← fills.other _ _ _ _ own first]
        exact later

end Entries
end WasmBuild.Manifest
