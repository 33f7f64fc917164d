import Mathlib.Data.List.Forall2
import WasmBuild.Proofs.Toml.Keyed

/-!
# Values that are the same

Two values of documents are the same if they differ only in where and how they are written: in their
places, in the form of their tables and lists, and in the order of the keys of a table. A table is
compared by what looking up each name gives.
-/
namespace WasmBuild.Toml

/-- The items of a value that is a list. -/
def Node.items? : Node → Option (List Node)
  | array _ items | tables items => some items
  | _ => none

/-- Two values are the same but for places, forms, and the order of keys. Of a date or time nothing
but its place is known, so all of them count as the same. -/
inductive Node.SameValue : Node → Node → Prop
  | string (span span' : Span) (text : String) : SameValue (.string span text) (.string span' text)
  | integer (span span' : Span) (value : Int) :
      SameValue (.integer span value) (.integer span' value)
  | float (span span' : Span) (value : Decimal.Binary64) :
      SameValue (.float span value) (.float span' value)
  | boolean (span span' : Span) (value : Bool) :
      SameValue (.boolean span value) (.boolean span' value)
  | dateTime (span span' : Span) : SameValue (.dateTime span) (.dateTime span')
  | list {node node' : Node} {items items' : List Node} (isList : node.items? = some items)
      (isList' : node'.items? = some items') (each : List.Forall₂ SameValue items items') :
      SameValue node node'
  | table (span? span?' : Option Span) (form form' : TableForm) {entries entries' : Entries}
      (each : ∀ name, Option.Rel SameValue (entries.find? name) (entries'.find? name)) :
      SameValue (.table span? form entries) (.table span?' form' entries')

theorem Node.items?_eq_some_iff {node : Node} {items : List Node} :
    node.items? = some items ↔ (∃ span, node = .array span items) ∨ node = .tables items := by
  cases node <;> simp [items?, eq_comm]

theorem Node.Keyed.of_items? {kind : Key → Prop} {node : Node} (keyed : node.Keyed kind)
    {items : List Node} (isList : node.items? = some items) : ∀ item ∈ items, item.Keyed kind := by
  obtain ⟨_, rfl⟩ | rfl := items?_eq_some_iff.1 isList
  · cases keyed with
    | array inside => exact inside
  · exact keyed_tables_iff.1 keyed

namespace Entries

/-- Two tables have the same values, or both none, at some names. -/
def SameAt (names : List String) (entries entries' : Entries) : Prop :=
  ∀ name ∈ names, Option.Rel Node.SameValue (entries.find? name) (entries'.find? name)

variable {entries entries' : Entries}

/-- Tables that are the same have the same names, in some order. -/
theorem names_perm (distinct : entries.names.Nodup) (distinct' : entries'.names.Nodup)
    (same : ∀ name, Option.Rel Node.SameValue (entries.find? name) (entries'.find? name)) :
    entries.names.Perm entries'.names := by
  refine (List.perm_ext_iff_of_nodup distinct distinct').2 fun name => not_iff_not.1 ?_
  rw [← find?_eq_none_iff, ← find?_eq_none_iff]
  have both := same name
  generalize entries.find? name = found at both
  generalize entries'.find? name = found' at both
  cases both <;> simp

theorem length_eq_of_perm (names : entries.names.Perm entries'.names) :
    entries.length = entries'.length := by
  simpa [Entries.names] using names.length_eq

end Entries

/-- Two values are tables with the same values, or both none, at some names. -/
inductive Node.SameTable (names : List String) : Node → Node → Prop
  | intro (span? span?' : Option Span) (form form' : TableForm) {entries entries' : Entries}
      (each : entries.SameAt names entries') :
      SameTable names (.table span? form entries) (.table span?' form' entries')

end WasmBuild.Toml
