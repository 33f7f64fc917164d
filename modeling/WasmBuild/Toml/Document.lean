import WasmBuild.Toml.Value

/-!
# Documents

A document is read line by line: key-value pairs go to the open table, and headers open another
one. A mark of the byte order at the very start is skipped.
-/
namespace WasmBuild.Toml

/-- A header, after its opening brackets: the key it names, up to its closing brackets. -/
def header (total : Nat) (isItem : Bool) : Reader DottedKey := fun text =>
  (dottedKey total text).bind fun (key, rest) =>
    match isItem, rest with
    | true, ']' :: ']' :: rest => some (key, rest)
    | false, ']' :: rest => some (key, rest)
    | _, _ => none

def readHeader (total : Nat) (reading : Reading) (text : List Char) :
    Option (Reading × List Char) :=
  match text with
  | '[' :: '[' :: rest =>
    (header total true rest).bind fun (key, after) =>
      (finishLine? after).bind fun next =>
        (reading.openItem key.path key.key (spanBetween total text after)).map (·, next)
  | '[' :: rest =>
    (header total false rest).bind fun (key, after) =>
      (finishLine? after).bind fun next =>
        (reading.openTable key.path key.key (spanBetween total text after)).map (·, next)
  | _ => none

def readPair (total : Nat) (reading : Reading) (text : List Char) :
    Option (Reading × List Char) :=
  (keyValue total (value total (depthLimit - 1)) text).bind fun ((key, node), rest) =>
    (finishLine? rest).bind fun rest =>
      (reading.insert key.path key.key node).map (·, rest)

def readLine (total : Nat) (reading : Reading) (text : List Char) :
    Option (Reading × List Char) :=
  match skipGap text with
  | [] => some (reading, [])
  | c :: rest =>
    if c = '#' ∨ c = '\n' ∨ c = '\r' then (finishLine? (c :: rest)).map (reading, ·)
    else if c = '[' then readHeader total reading (c :: rest)
    else readPair total reading (c :: rest)

/-- Reads lines to the end of the text; the first argument bounds their number. -/
def readLines (total : Nat) : Nat → Reading → List Char → Option Reading
  | _, reading, [] => some reading
  | 0, _, _ :: _ => none
  | count + 1, reading, text =>
    (readLine total reading text).bind fun (reading, rest) => readLines total count reading rest

/-- A text without a mark of the byte order in front. -/
def skipMark : List Char → List Char
  | '\ufeff' :: rest => rest
  | text => text

/-- The entries of a document, or nothing if it is not well formed. Every line has at least one
character, so the length of the text bounds their number. -/
def parse? (text : List Char) : Option Entries :=
  match (readLines text.length text.length .start (skipMark text)).bind Reading.close with
  | some (.table _ _ entries) => some entries
  | _ => none

end WasmBuild.Toml
