/-!
# Blanks, comments and line ends

The characters that may stand between the words of a document. Readers here take the rest of the
text and give back what follows; `none` means that the text is not well formed.
-/
namespace WasmBuild.Toml

/-- A reader of something at the start of a text. -/
abbrev Reader (α : Type) := List Char → Option (α × List Char)

def isGap (c : Char) : Bool := c == ' ' || c == '\t'

def isCommentChar (c : Char) : Bool :=
  c == '\t' || (0x20 ≤ c.toNat && c.toNat ≠ 0x7F)

/-- What follows the blanks at the start of a text. -/
def skipGap (text : List Char) : List Char := text.dropWhile isGap

/-- What follows a line end; the end of the text counts as one. -/
def lineEnd? : List Char → Option (List Char)
  | [] => some []
  | '\n' :: rest => some rest
  | '\r' :: '\n' :: rest => some rest
  | _ => none

/-- What follows the comment at the start of a text, if there is one. -/
def skipComment : List Char → List Char
  | '#' :: rest => rest.dropWhile isCommentChar
  | text => text

/-- What follows the remainder of a line on which nothing but a comment may stand. -/
def finishLine? (text : List Char) : Option (List Char) := lineEnd? (skipComment (skipGap text))

/-- What follows blanks, line ends and comments that each end with their line. -/
def skipLines? : (inComment : Bool) → List Char → Option (List Char)
  | false, '\r' :: '\n' :: rest => skipLines? false rest
  | true, '\r' :: '\n' :: rest => skipLines? false rest
  | false, [] => some []
  | true, [] => none
  | true, c :: rest =>
    if c = '\n' then skipLines? false rest
    else if isCommentChar c then skipLines? true rest
    else none
  | false, c :: rest =>
    if c = '#' then skipLines? true rest
    else if c = '\n' ∨ isGap c then skipLines? false rest
    else some (c :: rest)

def hexValue? (c : Char) : Option Nat :=
  if c.isDigit then some (c.toNat - '0'.toNat)
  else if 'a' ≤ c ∧ c ≤ 'f' then some (c.toNat - 'a'.toNat + 10)
  else if 'A' ≤ c ∧ c ≤ 'F' then some (c.toNat - 'A'.toNat + 10)
  else none

end WasmBuild.Toml
