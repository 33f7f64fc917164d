import Mathlib.Data.List.Nodup
import WasmBuild.Toml.Growth

/-!
# Tables with distinct keys

On every level of a document the keys of a table are distinct, and each is the key that was written.
Both facts are kept by everything that makes a document grow: adding a value or a table at the end
of a path, and taking a table out again that a header writes out.
-/
namespace WasmBuild.Toml

variable {kind : Key → Prop} {entries : Entries} {key : Key} {node : Node} {name : String}

namespace Entries

/-- The names of the keys. -/
def names (entries : Entries) : List String := entries.map fun e => e.1.name

theorem find?_eq_none_iff : entries.find? name = none ↔ name ∉ entries.names := by
  simp [Entries.find?, names]

theorem find?_cons (entry : Key × Node) (rest : Entries) (name : String) :
    Entries.find? (entry :: rest) name =
      if entry.1.name = name then some entry.2 else Entries.find? rest name := by
  by_cases same : entry.1.name = name
  · simp [Entries.find?, same]
  · simp [Entries.find?, same]

/-- Among distinct keys, looking up the key of an entry gives its value. -/
theorem find?_of_mem (distinct : entries.names.Nodup) (member : (key, node) ∈ entries) :
    entries.find? key.name = some node := by
  induction entries with
  | nil => contradiction
  | cons entry rest ih =>
      obtain ⟨fresh, distinct⟩ := List.nodup_cons.1 distinct
      rw [find?_cons]
      rcases List.mem_cons.1 member with rfl | member
      · rw [if_pos rfl]
      · have different : entry.1.name ≠ key.name := by
          intro same
          exact fresh (List.mem_map.2 ⟨_, member, same.symm⟩)
        rw [if_neg different, ih distinct member]

theorem mem_of_find? (found : entries.find? name = some node) :
    ∃ key, key.name = name ∧ (key, node) ∈ entries := by
  obtain ⟨⟨key, value⟩, held, rfl⟩ := Option.map_eq_some_iff.1 found
  exact ⟨key, by simpa using List.find?_some held, List.mem_of_find?_eq_some held⟩

@[simp] theorem names_append (others : Entries) :
    (entries ++ others : Entries).names = entries.names ++ others.names := List.map_append

@[simp] theorem names_replace : (entries.replace name node).names = entries.names := by
  simp only [names, Entries.replace, List.map_map]
  refine List.map_congr_left fun e _ => ?_
  simp only [Function.comp_apply]
  split <;> rfl

end Entries

/-- On every level of a value, the keys of a table are distinct and of some kind. -/
inductive Node.Keyed (kind : Key → Prop) : Node → Prop
  | string (span : Span) (text : String) : Keyed kind (.string span text)
  | integer (span : Span) (value : Int) : Keyed kind (.integer span value)
  | float (span : Span) (value : Decimal.Binary64) : Keyed kind (.float span value)
  | boolean (span : Span) (value : Bool) : Keyed kind (.boolean span value)
  | dateTime (span : Span) : Keyed kind (.dateTime span)
  | array {span : Span} {items : List Node} (inside : ∀ item ∈ items, Keyed kind item) :
      Keyed kind (.array span items)
  | table {span? : Option Span} {form : TableForm} {entries : Entries}
      (kinds : ∀ e ∈ entries, kind e.1) (inside : ∀ e ∈ entries, Keyed kind e.2)
      (distinct : entries.names.Nodup) : Keyed kind (.table span? form entries)
  | tables {items : List Node} (inside : ∀ item ∈ items, Keyed kind item) :
      Keyed kind (.tables items)

/-- The keys of a table are distinct and of some kind, and so on in its values. -/
structure Entries.Keyed (kind : Key → Prop) (entries : Entries) : Prop where
  kinds : ∀ e ∈ entries, kind e.1
  inside : ∀ e ∈ entries, e.2.Keyed kind
  distinct : entries.names.Nodup

theorem Node.keyed_table_iff {span? : Option Span} {form : TableForm} :
    (Node.table span? form entries).Keyed kind ↔ entries.Keyed kind := by
  constructor
  · rintro ⟨⟩
    exact ⟨‹_›, ‹_›, ‹_›⟩
  · rintro ⟨kinds, inside, distinct⟩
    exact .table kinds inside distinct

theorem Node.keyed_tables_iff {items : List Node} :
    (Node.tables items).Keyed kind ↔ ∀ item ∈ items, item.Keyed kind := by
  constructor
  · rintro ⟨⟩
    assumption
  · exact .tables

namespace Entries.Keyed

theorem nil : Entries.Keyed kind [] := ⟨nofun, nofun, .nil⟩

theorem find? (keyed : entries.Keyed kind) (found : entries.find? name = some node) :
    node.Keyed kind := by
  obtain ⟨key, -, member⟩ := mem_of_find? found
  exact keyed.inside _ member

theorem append (keyed : entries.Keyed kind) (fits : kind key) (value : node.Keyed kind)
    (fresh : entries.find? key.name = none) : Entries.Keyed kind (entries ++ [(key, node)]) := by
  refine ⟨?_, ?_, ?_⟩
  · simpa [or_imp, forall_and] using ⟨fun k v => keyed.kinds (k, v), fits⟩
  · simpa [or_imp, forall_and] using ⟨fun k v => keyed.inside (k, v), value⟩
  · rw [names_append]
    exact keyed.distinct.append (List.nodup_singleton _)
      (List.disjoint_singleton.2 (find?_eq_none_iff.1 fresh))

theorem replace (keyed : entries.Keyed kind) (value : node.Keyed kind) :
    (entries.replace name node).Keyed kind := by
  refine ⟨fun e member => ?_, fun e member => ?_, ?_⟩
  · obtain ⟨e, held, rfl⟩ := List.mem_map.1 member
    split
    · exact keyed.kinds e held
    · exact keyed.kinds e held
  · obtain ⟨e, held, rfl⟩ := List.mem_map.1 member
    split
    · exact value
    · exact keyed.inside e held
  · rw [names_replace]
    exact keyed.distinct

theorem erase (keyed : entries.Keyed kind) : (entries.erase name).Keyed kind where
  kinds e member := keyed.kinds e (List.mem_of_mem_filter member)
  inside e member := keyed.inside e (List.mem_of_mem_filter member)
  distinct := keyed.distinct.sublist (List.filter_sublist.map _)

end Entries.Keyed

/-- A change keeps keys distinct and of some kind, and hands back something good. -/
def Change.Keeps {α : Type} (kind : Key → Prop) (good : α → Prop) (change : Change α) : Prop :=
  ∀ node a after, node.Keyed kind → change node = some (a, after) → good a ∧ after.Keyed kind

section Changes

variable {α : Type} {good : α → Prop} {change : Change α}

/-- A change at the end of a path keeps what the change itself keeps. -/
theorem changeAt_keeps (isDotted : Bool) (keeps : change.Keeps kind good) {path : List Key}
    (fits : ∀ key ∈ path, kind key) : Change.Keeps kind good (changeAt isDotted change path) := by
  induction path with
  | nil => exact keeps
  | cons key path ih =>
      have below := ih fun k member => fits k (List.mem_cons_of_mem _ member)
      intro node a after keyed changed
      unfold changeAt at changed
      split at changed
      · next same => simp at same
      · next key' path' span? form entries same =>
          obtain ⟨rfl, rfl⟩ := List.cons.inj same
          have table := Node.keyed_table_iff.1 keyed
          -- The path goes through a new table, an old one, or the last of an array of tables.
          split at changed
          · next fresh =>
              obtain ⟨⟨b, child⟩, inner, rfl, rfl⟩ := Option.map_eq_some_iff.1 changed
              obtain ⟨isGood, value⟩ := below _ _ _ (Node.keyed_table_iff.2 .nil) inner
              exact ⟨isGood, Node.keyed_table_iff.2
                (table.append (fits key List.mem_cons_self) value fresh)⟩
          · next found =>
              split at changed
              · contradiction
              · obtain ⟨⟨b, child⟩, inner, rfl, rfl⟩ := Option.map_eq_some_iff.1 changed
                obtain ⟨isGood, value⟩ := below _ _ _ (table.find? found) inner
                exact ⟨isGood, Node.keyed_table_iff.2 (table.replace value)⟩
          · next items found =>
              split at changed
              · contradiction
              · next last ends =>
                  have inside := Node.keyed_tables_iff.1 (table.find? found)
                  obtain ⟨⟨b, child⟩, inner, rfl, rfl⟩ := Option.map_eq_some_iff.1 changed
                  obtain ⟨isGood, value⟩ := below _ _ _ (inside _ (List.mem_of_getLast? ends)) inner
                  refine ⟨isGood, Node.keyed_table_iff.2 (table.replace ?_)⟩
                  refine Node.keyed_tables_iff.2 fun item member => ?_
                  rcases List.mem_append.1 member with member | member
                  · exact inside item (List.dropLast_subset _ member)
                  · rwa [List.mem_singleton.1 member]
          · contradiction
      · contradiction

theorem addEntry_keeps (fits : kind key) (value : node.Keyed kind) :
    (addEntry key node).Keeps kind fun _ => True := by
  intro table a after keyed changed
  unfold addEntry at changed
  split at changed
  · split at changed
    · next fresh =>
        obtain ⟨-, rfl⟩ := Prod.mk.inj (Option.some.inj changed)
        exact ⟨trivial, Node.keyed_table_iff.2
          ((Node.keyed_table_iff.1 keyed).append fits value fresh)⟩
    · contradiction
  · contradiction

theorem addDottedEntry_keeps (fits : kind key) (value : node.Keyed kind) :
    (addDottedEntry key node).Keeps kind fun _ => True := by
  intro table a after keyed changed
  unfold addDottedEntry at changed
  split at changed
  · exact addEntry_keeps fits value _ _ _ keyed changed
  · contradiction

/-- Adding a value under a dotted key keeps the keys of a table distinct and of some kind. -/
theorem keyed_of_insertAt {path : List Key} {table after : Node} (keyed : table.Keyed kind)
    (path_fits : ∀ k ∈ path, kind k) (fits : kind key) (value : node.Keyed kind)
    (added : insertAt path key node table = some after) : after.Keyed kind := by
  obtain ⟨⟨u, grown⟩, changed, rfl⟩ := Option.map_eq_some_iff.1 added
  have keeps : Change.Keeps kind (fun _ => True)
      (if path.isEmpty then addEntry key node else addDottedEntry key node) := by
    split
    · exact addEntry_keeps fits value
    · exact addDottedEntry_keeps fits value
  exact (changeAt_keeps true keeps path_fits _ _ _ keyed changed).2

theorem takeImplied_keeps (key : Key) : (takeImplied key).Keeps kind (Entries.Keyed kind) := by
  intro table a after keyed changed
  unfold takeImplied at changed
  split at changed
  · have table := Node.keyed_table_iff.1 keyed
    split at changed
    · obtain ⟨rfl, rfl⟩ := Prod.mk.inj (Option.some.inj changed)
      exact ⟨.nil, keyed⟩
    · next found =>
        obtain ⟨rfl, rfl⟩ := Prod.mk.inj (Option.some.inj changed)
        exact ⟨Node.keyed_table_iff.1 (table.find? found), Node.keyed_table_iff.2 table.erase⟩
    · contradiction
  · contradiction

theorem openTables_keeps (fits : kind key) : (openTables key).Keeps kind fun _ => True := by
  intro table a after keyed changed
  unfold openTables at changed
  split at changed
  · have table := Node.keyed_table_iff.1 keyed
    split at changed
    · next fresh =>
        obtain ⟨-, rfl⟩ := Prod.mk.inj (Option.some.inj changed)
        exact ⟨trivial, Node.keyed_table_iff.2 (table.append fits (.tables nofun) fresh)⟩
    · next found =>
        obtain ⟨-, rfl⟩ := Prod.mk.inj (Option.some.inj changed)
        exact ⟨trivial, Node.keyed_table_iff.2 (table.replace (table.find? found))⟩
    · contradiction
  · contradiction

theorem pushTable_keeps (key : Key) (value : node.Keyed kind) :
    (pushTable key node).Keeps kind fun _ => True := by
  intro table a after keyed changed
  unfold pushTable at changed
  split at changed
  · have table := Node.keyed_table_iff.1 keyed
    split at changed
    · next items found =>
        obtain ⟨-, rfl⟩ := Prod.mk.inj (Option.some.inj changed)
        refine ⟨trivial, Node.keyed_table_iff.2 (table.replace (Node.keyed_tables_iff.2 ?_))⟩
        simpa [or_imp, forall_and] using
          ⟨Node.keyed_tables_iff.1 (table.find? found), value⟩
    · contradiction
  · contradiction

end Changes

theorem Node.Keyed.reaching (keyed : node.Keyed kind) (value : Node) :
    (node.reaching value).Keyed kind := by
  unfold Node.reaching
  split
  · exact Node.keyed_table_iff.2 (Node.keyed_table_iff.1 keyed)
  · exact keyed

namespace Reading

/-- The keys of what was read are distinct and of some kind, and those of the open header too. -/
def Keyed (kind : Key → Prop) : Reading → Prop
  | root table => table.Keyed kind
  | inside draft =>
    draft.root.Keyed kind ∧ (∀ key ∈ draft.path, kind key) ∧ kind draft.key ∧
      draft.current.Keyed kind

variable {reading : Reading} {path : List Key}

theorem keyed_start : start.Keyed kind := Node.keyed_table_iff.2 .nil

theorem Keyed.insert {next : Reading} (keyed : reading.Keyed kind) (path_fits : ∀ k ∈ path, kind k)
    (fits : kind key) (value : node.Keyed kind)
    (read : reading.insert path key node = some next) : next.Keyed kind := by
  cases reading with
  | root table =>
      obtain ⟨grown, added, rfl⟩ := Option.map_eq_some_iff.1 read
      exact keyed_of_insertAt keyed path_fits fits value added
  | inside draft =>
      obtain ⟨root, outer, own, current⟩ := keyed
      obtain ⟨grown, added, rfl⟩ := Option.map_eq_some_iff.1 read
      exact ⟨root, outer, own, (keyed_of_insertAt current path_fits fits value added).reaching _⟩

theorem Keyed.close {table : Node} (keyed : reading.Keyed kind)
    (closed : reading.close = some table) :
    table.Keyed kind := by
  cases reading with
  | root root =>
      obtain rfl := Option.some.inj closed
      exact keyed
  | inside draft =>
      obtain ⟨root, outer, own, current⟩ := keyed
      obtain ⟨⟨u, grown⟩, changed, rfl⟩ := Option.map_eq_some_iff.1 closed
      have keeps : Change.Keeps kind (fun _ => True)
          (if draft.isItem then pushTable draft.key draft.current
            else addEntry draft.key draft.current) := by
        split
        · exact pushTable_keeps _ current
        · exact addEntry_keeps own current
      exact (changeAt_keeps false keeps outer _ _ _ root changed).2

theorem Keyed.openTable {next : Reading} {span : Span} (keyed : reading.Keyed kind)
    (path_fits : ∀ k ∈ path, kind k) (fits : kind key)
    (read : reading.openTable path key span = some next) : next.Keyed kind := by
  obtain ⟨root, closed, read⟩ := Option.bind_eq_some_iff.1 read
  obtain ⟨⟨entries, rest⟩, changed, rfl⟩ := Option.map_eq_some_iff.1 read
  obtain ⟨inner, outer⟩ :=
    changeAt_keeps false (takeImplied_keeps key) path_fits _ _ _ (keyed.close closed) changed
  exact ⟨outer, path_fits, fits, Node.keyed_table_iff.2 inner⟩

theorem Keyed.openItem {next : Reading} {span : Span} (keyed : reading.Keyed kind)
    (path_fits : ∀ k ∈ path, kind k) (fits : kind key)
    (read : reading.openItem path key span = some next) : next.Keyed kind := by
  obtain ⟨root, closed, read⟩ := Option.bind_eq_some_iff.1 read
  obtain ⟨⟨u, rest⟩, changed, rfl⟩ := Option.map_eq_some_iff.1 read
  obtain ⟨-, outer⟩ :=
    changeAt_keeps false (openTables_keeps fits) path_fits _ _ _ (keyed.close closed) changed
  exact ⟨outer, path_fits, fits, Node.keyed_table_iff.2 .nil⟩

end Reading
end WasmBuild.Toml
