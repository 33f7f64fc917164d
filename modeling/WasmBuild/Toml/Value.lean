import WasmBuild.Toml.DateTime
import WasmBuild.Toml.Growth
import WasmBuild.Toml.Quoted

/-!
# Keys and values

Readers of dotted keys and of values, with the places where they stand. A place is found from the
length of the whole text and of what remains of it. Values may be nested up to a fixed depth.
-/
namespace WasmBuild.Toml

/-- The stretch between two remainders of a text of some length. -/
def spanBetween (total : Nat) (before after : List Char) : Span :=
  ⟨total - before.length, total - after.length⟩

def isBareKeyChar (c : Char) : Bool := c.isAlphanum || c == '_' || c == '-'

/-- One part of a key: bare, or a string on one line. -/
def keyPart (total : Nat) : Reader Key := fun text =>
  match text with
  | [] => none
  | c :: _ =>
    if c = '"' ∨ c = '\'' then
      (lineString text).map fun (name, rest) =>
        (⟨String.ofList name, spanBetween total text rest⟩, rest)
    else if isBareKeyChar c then
      let rest := text.dropWhile isBareKeyChar
      some (⟨String.ofList (text.takeWhile isBareKeyChar), spanBetween total text rest⟩, rest)
    else none

/-- The number of parts that a key may have, and of values that may be nested, plus one. -/
def depthLimit : Nat := 80

/-- The parts of a dotted key, with blanks around the dots and at its ends; at most as many as the
first argument says. -/
def keyParts (total : Nat) : Nat → Reader (List Key)
  | 0, _ => none
  | count + 1, text =>
    (keyPart total (skipGap text)).bind fun (part, rest) =>
      match skipGap rest with
      | '.' :: rest =>
        (keyParts total count rest).map fun (parts, rest) => (part :: parts, rest)
      | rest => some ([part], rest)

/-- A dotted key, as the path to its last part and that part. -/
structure DottedKey where
  path : List Key
  key : Key
  deriving Repr, DecidableEq

def dottedKey (total : Nat) : Reader DottedKey := fun text =>
  (keyParts total (depthLimit - 1) text).bind fun (parts, rest) =>
    parts.getLast?.map fun last => (⟨parts.dropLast, last⟩, rest)

/-- The items of an array and its closing bracket. The first argument bounds their number. -/
def arrayItems (item : Reader Node) : Nat → Reader (List Node)
  | 0, _ => none
  | count + 1, text =>
    (skipLines? false text).bind fun text =>
      match text with
      | ']' :: rest => some ([], rest)
      | text =>
        (item text).bind fun (node, rest) =>
          (skipLines? false rest).bind fun rest =>
            match rest with
            | ']' :: rest => some ([node], rest)
            | ',' :: rest =>
              (arrayItems item count rest).map fun (nodes, rest) => (node :: nodes, rest)
            | _ => none

def keyValue (total : Nat) (item : Reader Node) : Reader (DottedKey × Node) := fun text =>
  (dottedKey total text).bind fun (key, rest) =>
    match rest with
    | '=' :: rest =>
      (item (skipGap rest)).map fun (node, rest) => ((key, node), skipGap rest)
    | _ => none

/-- The entries of a table in braces and its closing brace, added to a table. The first argument
bounds their number. -/
def braceEntries (total : Nat) (item : Reader Node) : Nat → Node → Reader Node
  | 0, _, _ => none
  | count + 1, table, text =>
    (keyValue total item text).bind fun ((key, node), rest) =>
      (insertAt key.path key.key node table).bind fun table =>
        match rest with
        | '\x7d' :: rest => some (table, rest)
        | ',' :: rest => braceEntries total item count table rest
        | _ => none

/-- A table in braces, after its opening brace. -/
def braceTable (total : Nat) (item : Reader Node) : Reader Node := fun text =>
  let empty := Node.table none .braces []
  match skipGap text with
  | '\x7d' :: rest => some (empty, rest)
  | text => braceEntries total item (text.length + 1) empty text

def Number.toNode (span : Span) : Number → Node
  | integer value => .integer span value
  | float value => .float span value

/-- A table with its place. -/
def Node.placed (span : Span) : Node → Node
  | table _ form entries => table (some span) form entries
  | node => node

/-- A value that holds no other values. -/
def plainValue (total : Nat) : Reader Node := fun text =>
  match text with
  | 't' :: 'r' :: 'u' :: 'e' :: rest => some (.boolean (spanBetween total text rest) true, rest)
  | 'f' :: 'a' :: 'l' :: 's' :: 'e' :: rest =>
    some (.boolean (spanBetween total text rest) false, rest)
  | c :: _ =>
    if c = '"' ∨ c = '\'' then
      (anyString text).map fun (s, rest) =>
        (.string (spanBetween total text rest) (String.ofList s), rest)
    else match dateTime? text with
      | some rest => some (.dateTime (spanBetween total text rest), rest)
      | none => (number text).map fun (n, rest) => (n.toNode (spanBetween total text rest), rest)
  | [] => none

/-- A value in which values may be nested to a depth. -/
def value (total : Nat) : Nat → Reader Node
  | 0, text =>
    match text with
    | '[' :: _ => none
    | '\x7b' :: _ => none
    | text => plainValue total text
  | depth + 1, text =>
    match text with
    | '[' :: rest =>
      (arrayItems (value total depth) (rest.length + 1) rest).map fun (items, after) =>
        (.array (spanBetween total text after) items, after)
    | '\x7b' :: rest =>
      (braceTable total (value total depth) rest).map fun (table, after) =>
        (table.placed (spanBetween total text after), after)
    | text => plainValue total text

end WasmBuild.Toml
