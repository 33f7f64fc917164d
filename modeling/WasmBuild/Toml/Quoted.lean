import WasmBuild.Toml.Lexeme

/-!
# Strings

The four ways to write a string: basic ones with escapes and literal ones without, each on one line
or over several. Over several lines a line end counts as one newline however it is written, the
first one right after the opening quotes is dropped, and one or two quotes may stand before the
closing ones.
-/
namespace WasmBuild.Toml

def withChar (c : Char) (read : Option (List Char × List Char)) : Option (List Char × List Char) :=
  read.map fun (text, rest) => (c :: text, rest)

def isTextChar (c : Char) : Bool := isCommentChar c

/-- The character that a one-letter escape stands for. -/
def escapedChar? (c : Char) : Option Char :=
  if c = 'b' then some '\x08'
  else if c = 't' then some '\t'
  else if c = 'n' then some '\n'
  else if c = 'f' then some '\x0c'
  else if c = 'r' then some '\r'
  else if c = '"' then some '"'
  else if c = '\\' then some '\\'
  else none

/-- The number of hexadecimal digits that an escape by number has. -/
def escapeDigits? (c : Char) : Option Nat :=
  if c = 'u' then some 4 else if c = 'U' then some 8 else none

/-- The character of a code point, unless it is a surrogate or too great. -/
def scalar? (point : Nat) : Option Char :=
  if point.isValidChar then some (Char.ofNat point) else none

/-- Where a reader of a basic string stands: between characters, after a backslash, or inside an
escape by number. -/
inductive BasicState where
  | plain
  | escape
  | code (due value : Nat)
  deriving Repr, DecidableEq

/-- The text of a basic string, after its opening quote. -/
def basicText : BasicState → Reader (List Char)
  | _, [] => none
  | .plain, c :: rest =>
    if c = '"' then some ([], rest)
    else if c = '\\' then basicText .escape rest
    else if isTextChar c then withChar c (basicText .plain rest)
    else none
  | .escape, c :: rest =>
    match escapeDigits? c, escapedChar? c with
    | some due, _ => basicText (.code due 0) rest
    | none, some e => withChar e (basicText .plain rest)
    | none, none => none
  | .code due value, c :: rest =>
    match hexValue? c with
    | none => none
    | some digit =>
      let value := value * 16 + digit
      if due ≤ 1 then
        match scalar? value with
        | some e => withChar e (basicText .plain rest)
        | none => none
      else basicText (.code (due - 1) value) rest

/-- The text of a literal string, after its opening quote. -/
def literalText : Reader (List Char)
  | [] => none
  | c :: rest =>
    if c = '\'' then some ([], rest)
    else if isTextChar c then withChar c (literalText rest)
    else none

/-- Where a reader of a string over several lines stands: after some quotes in a row, possibly
skipping blanks after a line that ended in a backslash; after a backslash; after a backslash and
blanks; inside an escape by number; or after a carriage return, with what was to follow it. -/
inductive BlockState where
  | plain (quotes : Nat) (skipping : Bool)
  | escape
  | gap
  | code (due value : Nat)
  | carriage (skipping : Bool)
  deriving Repr, DecidableEq

def withQuotes (quote : Char) (count : Nat) (read : Option (List Char × List Char)) :
    Option (List Char × List Char) :=
  read.map fun (text, rest) => (List.replicate count quote ++ text, rest)

/-- The text of a basic string over several lines, after its opening quotes. -/
def basicBlock : BlockState → Reader (List Char)
  | .plain quotes _, [] => if 3 ≤ quotes then some (List.replicate (quotes - 3) '"', []) else none
  | _, [] => none
  | .plain quotes skipping, c :: rest =>
    if c = '"' then
      if quotes = 4 then some (['"', '"'], rest) else basicBlock (.plain (quotes + 1) false) rest
    else if 3 ≤ quotes then some (List.replicate (quotes - 3) '"', c :: rest)
    else if skipping ∧ (isGap c ∨ c = '\n') then basicBlock (.plain 0 true) rest
    else withQuotes '"' quotes <|
      if c = '\r' then basicBlock (.carriage skipping) rest
      else if c = '\\' then basicBlock .escape rest
      else if c = '\n' ∨ isTextChar c then withChar c (basicBlock (.plain 0 false) rest)
      else none
  | .carriage skipping, c :: rest =>
    if c = '\n' then
      if skipping then basicBlock (.plain 0 true) rest
      else withChar '\n' (basicBlock (.plain 0 false) rest)
    else none
  | .escape, c :: rest =>
    if c = '\n' then basicBlock (.plain 0 true) rest
    else if c = '\r' then basicBlock (.carriage true) rest
    else if isGap c then basicBlock .gap rest
    else match escapeDigits? c, escapedChar? c with
      | some due, _ => basicBlock (.code due 0) rest
      | none, some e => withChar e (basicBlock (.plain 0 false) rest)
      | none, none => none
  | .gap, c :: rest =>
    if c = '\n' then basicBlock (.plain 0 true) rest
    else if c = '\r' then basicBlock (.carriage true) rest
    else if isGap c then basicBlock .gap rest
    else none
  | .code due value, c :: rest =>
    match hexValue? c with
    | none => none
    | some digit =>
      let value := value * 16 + digit
      if due ≤ 1 then
        match scalar? value with
        | some e => withChar e (basicBlock (.plain 0 false) rest)
        | none => none
      else basicBlock (.code (due - 1) value) rest

/-- The text of a literal string over several lines, after its opening quotes and some quotes in a
row. -/
def literalBlock : (quotes : Nat) → Reader (List Char)
  | quotes, [] => if 3 ≤ quotes then some (List.replicate (quotes - 3) '\'', []) else none
  | quotes, '\r' :: '\n' :: rest =>
    if 3 ≤ quotes then some (List.replicate (quotes - 3) '\'', '\r' :: '\n' :: rest)
    else withQuotes '\'' quotes (withChar '\n' (literalBlock 0 rest))
  | quotes, c :: rest =>
    if c = '\'' then
      if quotes = 4 then some (['\'', '\''], rest) else literalBlock (quotes + 1) rest
    else if 3 ≤ quotes then some (List.replicate (quotes - 3) '\'', c :: rest)
    else withQuotes '\'' quotes <|
      if c = '\n' ∨ isTextChar c then withChar c (literalBlock 0 rest) else none

/-- What follows the line end right after opening quotes. -/
def skipFirstLineEnd : List Char → List Char
  | '\n' :: rest => rest
  | '\r' :: '\n' :: rest => rest
  | text => text

def lineString : Reader (List Char)
  | '"' :: rest => basicText .plain rest
  | '\'' :: rest => literalText rest
  | _ => none

def anyString : Reader (List Char)
  | '"' :: '"' :: '"' :: rest => basicBlock (.plain 0 false) (skipFirstLineEnd rest)
  | '\'' :: '\'' :: '\'' :: rest => literalBlock 0 (skipFirstLineEnd rest)
  | text => lineString text

end WasmBuild.Toml
