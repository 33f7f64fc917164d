/-!
# Decimal numbers

A value of the 64-bit binary format is kept exactly, as a whole number of at most 53 bits times a
power of two. A decimal is turned into the nearest such value, and a tie goes to the even neighbour.
The shortest decimal text of a value has the fewest digits that read back as the same value, and of
those the nearest, a tie going away from zero. It is always positional and has a point with at least
one digit on either side.
-/
namespace WasmBuild.Decimal

/-- A value of the format. A finite one is `significand * 2 ^ exponent`. -/
inductive Binary64 where
  | nan
  | infinite (negative : Bool)
  | finite (negative : Bool) (significand : Nat) (exponent : Int)
  deriving Repr, DecidableEq

/-- The quotient of two numbers, rounded to nearest, with ties to even. -/
def roundDiv (num den : Nat) : Nat :=
  let quotient := num / den
  let rest := num % den
  if 2 * rest < den then quotient
  else if 2 * rest > den then quotient + 1
  else if quotient % 2 = 0 then quotient else quotient + 1

def minExponent : Int := -1074

def maxExponent : Int := 971

/-- The quotient `num / den * 2 ^ (-exponent)`, rounded. -/
def scaledQuotient (num den : Nat) (exponent : Int) : Nat :=
  if 0 ≤ exponent then roundDiv num (den * Nat.pow 2 exponent.toNat)
  else roundDiv (num * Nat.pow 2 (-exponent).toNat) den

/-- The nearest value to a positive fraction. -/
def Binary64.ofFraction (negative : Bool) (num den : Nat) : Binary64 :=
  let guess := max minExponent ((Nat.log2 num : Int) - (Nat.log2 den : Int) - 53)
  let exponent := if scaledQuotient num den guess < Nat.pow 2 53 then guess else guess + 1
  let significand := scaledQuotient num den exponent
  let (significand, exponent) :=
    if significand = Nat.pow 2 53 then (Nat.pow 2 52, exponent + 1) else (significand, exponent)
  if maxExponent < exponent then .infinite negative else .finite negative significand exponent

/-- The number of decimal digits of a number. -/
def digitCount (n : Nat) : Nat := (Nat.toDigits 10 n).length

/-- The nearest value to `digits * 10 ^ scale`. Magnitudes far outside the format are decided by
their size alone. -/
def Binary64.ofDecimal (negative : Bool) (digits : Nat) (scale : Int) : Binary64 :=
  let magnitude := (digitCount digits : Int) + scale
  if digits = 0 ∨ magnitude < -330 then .finite negative 0 minExponent
  else if 310 < magnitude then .infinite negative
  else if 0 ≤ scale then .ofFraction negative (digits * Nat.pow 10 scale.toNat) 1
  else .ofFraction negative digits (Nat.pow 10 (-scale).toNat)

/-- Digits and the place of the point: the value is `0.d₁d₂… * 10 ^ point`. -/
structure DigitRow where
  digits : List Char
  point : Int
  deriving Repr, DecidableEq

/-- A positive value and the ends of the interval of reals that round to it, over one denominator.
The ends belong to the interval when the significand is even. -/
structure RoundingInterval where
  low : Nat
  value : Nat
  high : Nat
  den : Nat
  closed : Bool
  deriving Repr, DecidableEq

/-- The interval of a positive significand and an exponent. Below a power of two the neighbour is
only half as far away. -/
def RoundingInterval.of (significand : Nat) (exponent : Int) : RoundingInterval :=
  let below := if significand = Nat.pow 2 52 ∧ exponent ≠ minExponent then 1 else 2
  let up := Nat.pow 2 (exponent - 2).toNat
  { low := (4 * significand - below) * up
    value := 4 * significand * up
    high := (4 * significand + 2) * up
    den := Nat.pow 2 (2 - exponent).toNat
    closed := significand % 2 = 0 }

def RoundingInterval.contains (i : RoundingInterval) (num den : Nat) : Bool :=
  if i.closed then i.low * den ≤ num * i.den && num * i.den ≤ i.high * den
  else i.low * den < num * i.den && num * i.den < i.high * den

/-- The place of the point of a positive fraction: the least `p` with `num / den < 10 ^ p`. -/
def pointOf (num den : Nat) : Int :=
  if den ≤ num then digitCount (num / den)
  else match (List.range 400).find? fun t => den ≤ num * Nat.pow 10 (t + 1) with
    | some t => -(t : Int)
    | none => 0

/-- The value's neighbours on the grid of steps `10 ^ (point - count)`, as multiples of the step
with the size of the step as a fraction; the nearer one that lies in the interval. A tie goes to the
upper one. -/
def onGrid? (i : RoundingInterval) (point : Int) (count : Nat) : Option Nat :=
  let up := Nat.pow 10 (point - count).toNat
  let down := Nat.pow 10 ((count : Int) - point).toNat
  let lower := i.value * down / (i.den * up)
  let upper := lower + 1
  let lowerHits := i.contains (lower * up) down
  let upperHits := i.contains (upper * up) down
  let twice := 2 * i.value * down
  let middle := (lower + upper) * up * i.den
  if lowerHits && (!upperHits || twice < middle) then
    some lower
  else if upperHits then some upper
  else none

def dropTrailingZeros (digits : List Char) : List Char :=
  (digits.reverse.dropWhile (· == '0')).reverse

/-- The shortest digits of a positive value. Seventeen digits always suffice. -/
def shortestRow (significand : Nat) (exponent : Int) : DigitRow :=
  let i := RoundingInterval.of significand exponent
  let point := pointOf i.value i.den
  match (List.range 17).findSome? fun n => (onGrid? i point (n + 1)).map fun d => (n + 1, d) with
  | some (count, d) =>
    let digits := Nat.toDigits 10 d
    ⟨dropTrailingZeros digits, point + (digits.length : Int) - (count : Int)⟩
  | none => ⟨['0'], 0⟩

/-- Digits with the point in its place. -/
def DigitRow.text (row : DigitRow) : List Char :=
  let count := row.digits.length
  if row.point ≤ 0 then
    ['0', '.'] ++ List.replicate (-row.point).toNat '0' ++ row.digits
  else if (count : Int) ≤ row.point then
    row.digits ++ List.replicate (row.point - count).toNat '0' ++ ['.', '0']
  else row.digits.take row.point.toNat ++ '.' :: row.digits.drop row.point.toNat

def Binary64.text : Binary64 → String
  | nan => "NaN"
  | infinite negative => if negative then "-inf" else "inf"
  | finite negative significand exponent =>
    let unsigned := if significand = 0 then ['0', '.', '0']
      else (shortestRow significand exponent).text
    String.ofList (if negative then '-' :: unsigned else unsigned)

end WasmBuild.Decimal
