import WasmBuild.Decimal

/-!
# Documents as trees

A document is a table; tables keep the order of their keys. Keys and values remember where they
were written, and tables remember how they came about, which decides whether they may still grow.
-/
namespace WasmBuild.Toml

/-- A stretch of the text, from one character position up to another. -/
structure Span where
  start : Nat
  stop : Nat
  deriving Repr, DecidableEq, Inhabited

/-- A key and the place where it was first written. -/
structure Key where
  name : String
  span : Span
  deriving Repr, DecidableEq, Inhabited

/-- How a table came about: it was written in braces, by a header, implied by the header of a table
inside it, or by a dotted key. -/
inductive TableForm where
  | braces
  | header
  | implied
  | dotted
  deriving Repr, DecidableEq, Inhabited

/-- Whether a table was only mentioned on the way to something inside it. -/
def TableForm.isImplicit : TableForm → Bool
  | implied | dotted => true
  | braces | header => false

/-- A value of a document. An array of tables is the kind that grows by headers. -/
inductive Node where
  | string (span : Span) (text : String)
  | integer (span : Span) (value : Int)
  | float (span : Span) (value : Decimal.Binary64)
  | boolean (span : Span) (value : Bool)
  | dateTime (span : Span)
  | array (span : Span) (items : List Node)
  | table (span? : Option Span) (form : TableForm) (entries : List (Key × Node))
  | tables (items : List Node)
  deriving Repr, Inhabited

/-- The keys of a table with their values, in the order in which they were first mentioned. -/
abbrev Entries := List (Key × Node)

namespace Node

/-- The place of a value that is no array of tables. -/
def ownSpan? : Node → Option Span
  | string span _ | integer span _ | float span _ | boolean span _ | dateTime span
  | array span _ => some span
  | table span? _ _ => span?
  | tables _ => none

/-- The place of a value. An array of tables reaches from its first table to its last. A table that
was only mentioned has no place of its own. -/
def span? : Node → Option Span
  | tables items =>
    match items.head?.bind ownSpan?, items.getLast?.bind ownSpan? with
    | some first, some last => some ⟨first.start, last.stop⟩
    | _, _ => none
  | node => node.ownSpan?

/-- A table whose place is extended to the end of a value, where both have a place. -/
def reaching (node value : Node) : Node :=
  match node, value.span? with
  | table (some span) form entries, some last => table (some ⟨span.start, last.stop⟩) form entries
  | _, _ => node

end Node

def Entries.find? (entries : Entries) (name : String) : Option Node :=
  (List.find? (fun e => e.1.name == name) entries).map Prod.snd

def Entries.replace (entries : Entries) (name : String) (node : Node) : Entries :=
  entries.map fun e => if e.1.name == name then (e.1, node) else e

def Entries.erase (entries : Entries) (name : String) : Entries :=
  entries.filter fun e => e.1.name != name

end WasmBuild.Toml
