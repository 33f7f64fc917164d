/-!
# Flat records in JSON

A record is an ordered list of named texts, numbers and flags, written as one JSON object without
spaces. Only quotes, backslashes and control characters are escaped.
-/
namespace WasmBuild.Json

inductive Scalar where
  | text (value : String)
  | number (value : Nat)
  | flag (value : Bool)
  deriving Repr, DecidableEq

/-- The fields of an object, in the order in which they are written. -/
abbrev Record := List (String × Scalar)

def hexDigit (n : Nat) : Char := Nat.digitChar n

/-- A character inside quotes. Control characters without a letter of their own are written by
their number. -/
def escapeChar (c : Char) : List Char :=
  if c = '"' then ['\\', '"']
  else if c = '\\' then ['\\', '\\']
  else if c = '\x08' then ['\\', 'b']
  else if c = '\x0c' then ['\\', 'f']
  else if c = '\n' then ['\\', 'n']
  else if c = '\r' then ['\\', 'r']
  else if c = '\t' then ['\\', 't']
  else if c.toNat < 0x20 then
    ['\\', 'u', '0', '0', hexDigit (c.toNat / 16), hexDigit (c.toNat % 16)]
  else [c]

def quote (text : String) : List Char := '"' :: text.toList.flatMap escapeChar ++ ['"']

def Scalar.chars : Scalar → List Char
  | text value => quote value
  | number value => Nat.toDigits 10 value
  | flag true => ['t', 'r', 'u', 'e']
  | flag false => ['f', 'a', 'l', 's', 'e']

/-- The characters of a field. -/
def fieldChars (field : String × Scalar) : List Char := quote field.1 ++ ':' :: field.2.chars

def Record.chars (record : Record) : List Char :=
  '\x7b' :: List.intercalate [','] (record.map fieldChars) ++ ['\x7d']

def Record.line (record : Record) : String := String.ofList (record.chars ++ ['\n'])

end WasmBuild.Json
