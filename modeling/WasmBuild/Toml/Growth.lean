import WasmBuild.Toml.Node

/-!
# How tables grow

A dotted key or a header leads through tables to the one that it adds to. Tables on the way that
are missing are made. A dotted key may only pass through tables that were mentioned and never
written out, and it may only add to tables that dotted keys made.
-/
namespace WasmBuild.Toml

/-- What a change of a table hands back, with the changed table. -/
abbrev Change (α : Type) := Node → Option (α × Node)

/-- Changes the table at the end of a path, making the tables that are missing on the way. A path
passes through the last table of an array of tables. -/
def changeAt {α : Type} (isDotted : Bool) (change : Change α) : List Key → Change α
  | [], node => change node
  | key :: path, .table span? form entries =>
    match Entries.find? entries key.name with
    | none =>
      let fresh := Node.table none (if isDotted then .dotted else .implied) []
      (changeAt isDotted change path fresh).map fun (a, child) =>
        (a, .table span? form (entries ++ [(key, child)]))
    | some (.table inner? innerForm innerEntries) =>
      if innerForm = .braces ∨ (isDotted ∧ !innerForm.isImplicit) then none
      else (changeAt isDotted change path (.table inner? innerForm innerEntries)).map
        fun (a, child) => (a, .table span? form (Entries.replace entries key.name child))
    | some (.tables items) =>
      match items.getLast? with
      | none => none
      | some last => (changeAt isDotted change path last).map fun (a, child) =>
        (a, .table span? form
          (Entries.replace entries key.name (.tables (items.dropLast ++ [child]))))
    | some _ => none
  | _ :: _, _ => none

/-- Adds a value under a new key at the end of a table. -/
def addEntry (key : Key) (value : Node) : Change Unit
  | .table span? form entries =>
    match Entries.find? entries key.name with
    | none => some ((), .table span? form (entries ++ [(key, value)]))
    | some _ => none
  | _ => none

/-- Adds a value under a new key to a table that a dotted key leads to. -/
def addDottedEntry (key : Key) (value : Node) : Change Unit
  | .table span? .dotted entries => addEntry key value (.table span? .dotted entries)
  | _ => none

/-- Adds a value under a dotted key to a table. -/
def insertAt (path : List Key) (key : Key) (value : Node) (table : Node) : Option Node :=
  let change := if path.isEmpty then addEntry key value else addDottedEntry key value
  (changeAt true change path table).map Prod.snd

/-- Takes out the table that a header writes out: it may have been implied by an earlier header,
and then its entries are kept. -/
def takeImplied (key : Key) : Change Entries
  | .table span? form entries =>
    match Entries.find? entries key.name with
    | none => some ([], .table span? form entries)
    | some (.table _ .implied inner) =>
      some (inner, .table span? form (Entries.erase entries key.name))
    | some _ => none
  | _ => none

/-- Makes sure that a key holds an array of tables. -/
def openTables (key : Key) : Change Unit
  | .table span? form entries =>
    match Entries.find? entries key.name with
    | none => some ((), .table span? form (entries ++ [(key, .tables [])]))
    | some (.tables items) =>
      some ((), .table span? form (Entries.replace entries key.name (.tables items)))
    | some _ => none
  | _ => none

/-- Adds a table to the end of an array of tables. -/
def pushTable (key : Key) (table : Node) : Change Unit
  | .table span? form entries =>
    match Entries.find? entries key.name with
    | some (.tables items) =>
      some ((), .table span? form (Entries.replace entries key.name (.tables (items ++ [table]))))
    | _ => none
  | _ => none

/-- A document while it is read: the tables that are closed, and the one that is open with the path
under which it will be put away. -/
structure Draft where
  root : Node
  path : List Key
  key : Key
  isItem : Bool
  current : Node

/-- The draft of a document. The root table is open until the first header. -/
inductive Reading where
  | root (table : Node)
  | inside (draft : Draft)

namespace Reading

/-- Nothing read. -/
def start : Reading := .root (.table none .header [])

/-- Adds a value under a dotted key to the open table. A table with a header reaches from there to
the end of the value that was added last. -/
def insert (reading : Reading) (path : List Key) (key : Key) (value : Node) : Option Reading :=
  match reading with
  | root table => (insertAt path key value table).map .root
  | inside draft => (insertAt path key value draft.current).map fun table =>
      .inside { draft with current := table.reaching value }

def close : Reading → Option Node
  | root table => some table
  | inside draft =>
    let change := if draft.isItem then pushTable draft.key draft.current
      else addEntry draft.key draft.current
    (changeAt false change draft.path draft.root).map Prod.snd

/-- Opens the table that a header names. -/
def openTable (reading : Reading) (path : List Key) (key : Key) (span : Span) :
    Option Reading :=
  reading.close.bind fun root =>
    (changeAt false (takeImplied key) path root).map fun (entries, root) =>
      .inside ⟨root, path, key, false, .table (some span) .header entries⟩

/-- Opens a new table at the end of the array of tables that a header names. -/
def openItem (reading : Reading) (path : List Key) (key : Key) (span : Span) :
    Option Reading :=
  reading.close.bind fun root =>
    (changeAt false (openTables key) path root).map fun (_, root) =>
      .inside ⟨root, path, key, true, .table (some span) .header []⟩

end Reading
end WasmBuild.Toml
