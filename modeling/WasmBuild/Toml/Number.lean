import WasmBuild.Decimal
import WasmBuild.Toml.Lexeme

/-!
# Numbers

Whole numbers in four bases, within 64 signed bits, and floating-point numbers. An underscore may
stand between two digits. A positive floating-point number that is too great is refused.
-/
namespace WasmBuild.Toml

/-- Digits of some class at the start of a text, without the underscores between them. -/
def moreDigits (isDigit : Char → Bool) : Reader (List Char)
  | [] => some ([], [])
  | '_' :: d :: rest =>
    if isDigit d then (moreDigits isDigit rest).map fun (ds, rest) => (d :: ds, rest) else none
  | c :: rest =>
    if isDigit c then (moreDigits isDigit rest).map fun (ds, rest) => (c :: ds, rest)
    else if c = '_' then none
    else some ([], c :: rest)

/-- One or more digits of some class. -/
def someDigits (isDigit : Char → Bool) : Reader (List Char)
  | [] => none
  | c :: rest =>
    if isDigit c then (moreDigits isDigit rest).map fun (ds, rest) => (c :: ds, rest) else none

/-- The digits of a decimal whole number, which does not start with a zero unless it is one. -/
def wholeDigits : Reader (List Char)
  | '0' :: rest => some (['0'], rest)
  | text => someDigits Char.isDigit text

/-- The number that digits stand for in a base. -/
def digitsValue (base : Nat) (digits : List Char) : Nat :=
  digits.foldl (fun n d => n * base + (hexValue? d).getD 0) 0

/-- A sign at the start of a text: whether it is a minus, and what follows. -/
def sign : List Char → Bool × List Char
  | '-' :: rest => (true, rest)
  | '+' :: rest => (false, rest)
  | text => (false, text)

/-- A number of either kind. -/
inductive Number where
  | integer (value : Int)
  | float (value : Decimal.Binary64)
  deriving Repr, DecidableEq

/-- A whole number, unless it needs more than 64 signed bits. -/
def boundedInteger? (value : Int) : Option Number :=
  if -Int.pow 2 63 ≤ value ∧ value < Int.pow 2 63 then some (.integer value) else none

/-- A whole number in a base other than ten, after its mark. -/
def basedInteger (base : Nat) (isDigit : Char → Bool) : Reader Number := fun text =>
  (someDigits isDigit text).bind fun (digits, rest) =>
    (boundedInteger? (digitsValue base digits)).map (·, rest)

/-- The exponent of a floating-point number, after its letter. -/
def exponent : Reader Int := fun text =>
  let (negative, text) := sign text
  (someDigits Char.isDigit text).map fun (digits, rest) =>
    let value : Int := digitsValue 10 digits
    (if negative then -value else value, rest)

def isExponentLetter (c : Char) : Bool := c == 'e' || c == 'E'

def optionalExponent : Reader Int
  | c :: rest => if isExponentLetter c then exponent rest else some (0, c :: rest)
  | [] => some (0, [])

/-- A floating-point number from its parts, unless it is positive and too great. -/
def float? (negative : Bool) (whole fraction : List Char) (exponent : Int) : Option Number :=
  match Decimal.Binary64.ofDecimal negative (digitsValue 10 (whole ++ fraction))
      (exponent - fraction.length) with
  | .infinite false => none
  | value => some (.float value)

/-- What follows the whole digits of a decimal number: a fraction, an exponent, both, or neither. -/
def afterWhole (negative : Bool) (whole : List Char) : Reader Number
  | '.' :: rest =>
    (someDigits Char.isDigit rest).bind fun (fraction, rest) =>
      (optionalExponent rest).bind fun (e, rest) =>
        (float? negative whole fraction e).map (·, rest)
  | c :: rest =>
    if isExponentLetter c then
      (exponent rest).bind fun (e, rest) => (float? negative whole [] e).map (·, rest)
    else
      let value : Int := digitsValue 10 whole
      (boundedInteger? (if negative then -value else value)).map (·, c :: rest)
  | [] =>
    let value : Int := digitsValue 10 whole
    (boundedInteger? (if negative then -value else value)).map (·, [])

/-- A decimal number or a word for one, after its sign. -/
def signedNumber (negative : Bool) : Reader Number
  | 'i' :: 'n' :: 'f' :: rest => some (.float (.infinite negative), rest)
  | 'n' :: 'a' :: 'n' :: rest => some (.float .nan, rest)
  | text => (wholeDigits text).bind fun (whole, rest) => afterWhole negative whole rest

/-- A number of any kind. Marks of other bases do not take a sign. -/
def number : Reader Number
  | '0' :: 'x' :: rest => basedInteger 16 (fun c => (hexValue? c).isSome) rest
  | '0' :: 'o' :: rest => basedInteger 8 (fun c => '0' ≤ c && c ≤ '7') rest
  | '0' :: 'b' :: rest => basedInteger 2 (fun c => c == '0' || c == '1') rest
  | text => signedNumber (sign text).1 (sign text).2

end WasmBuild.Toml
