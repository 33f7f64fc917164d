/-!
# Byte strings and UTF-8

File names, paths and file contents are byte strings. The decoder is an automaton that reads one
byte at a time and reports a sequence of marks: a character for each well-formed sequence, and a
gap for each maximal ill-formed one. Strict decoding wants no gap; the lossy text shows each gap
as the replacement character.
-/
namespace WasmBuild

/-- A file name, a path or the content of a file. -/
abbrev Bytes := List UInt8

namespace Utf8

/-- The bytes of a text. -/
def encode (text : String) : Bytes := text.toList.flatMap String.utf8EncodeChar

@[simp] theorem encode_append (s t : String) : encode (s ++ t) = encode s ++ encode t := by
  simp [encode]

/-- A sequence whose lead byte was read: the bits so far, the range in which the next byte must
lie, and how many bytes are still due. -/
structure Pending where
  bits : Nat
  low : UInt8
  high : UInt8
  due : Nat
  deriving Repr, DecidableEq

/-- What a lead byte of a longer sequence opens. The second byte is restricted after `E0`, `ED`,
`F0` and `F4`, so that no overlong form, surrogate or value above `10FFFF` is accepted. -/
def Pending.ofLead? (b : UInt8) : Option Pending :=
  if 0xC2 ≤ b ∧ b ≤ 0xDF then some ⟨b.toNat - 0xC0, 0x80, 0xBF, 1⟩
  else if b = 0xE0 then some ⟨0, 0xA0, 0xBF, 2⟩
  else if b = 0xED then some ⟨0xD, 0x80, 0x9F, 2⟩
  else if 0xE1 ≤ b ∧ b ≤ 0xEF then some ⟨b.toNat - 0xE0, 0x80, 0xBF, 2⟩
  else if b = 0xF0 then some ⟨0, 0x90, 0xBF, 3⟩
  else if 0xF1 ≤ b ∧ b ≤ 0xF3 then some ⟨b.toNat - 0xF0, 0x80, 0xBF, 3⟩
  else if b = 0xF4 then some ⟨4, 0x80, 0x8F, 3⟩
  else none

/-- The result of reading one byte: the marks it completes and the sequence it leaves open. -/
structure Step where
  marks : List (Option Char)
  pending : Option Pending
  deriving Repr, DecidableEq

/-- Reading a byte between sequences. -/
def begin (b : UInt8) : Step :=
  if b < 0x80 then ⟨[some (Char.ofNat b.toNat)], none⟩
  else match Pending.ofLead? b with
    | some p => ⟨[], some p⟩
    | none => ⟨[none], none⟩

/-- Reading a byte. One that cannot continue the open sequence closes it with a gap and is then
read between sequences. -/
def step (pending : Option Pending) (b : UInt8) : Step :=
  match pending with
  | none => begin b
  | some p =>
    if p.low ≤ b ∧ b ≤ p.high then
      let bits := p.bits * 64 + (b.toNat - 0x80)
      if p.due ≤ 1 then ⟨[some (Char.ofNat bits)], none⟩
      else ⟨[], some ⟨bits, 0x80, 0xBF, p.due - 1⟩⟩
    else ⟨none :: (begin b).marks, (begin b).pending⟩

/-- The marks of a byte string read after an open sequence. -/
def marksFrom : Option Pending → Bytes → List (Option Char)
  | none, [] => []
  | some _, [] => [none]
  | pending, b :: rest => (step pending b).marks ++ marksFrom (step pending b).pending rest

/-- The marks of a byte string: its characters in order, with `none` for each maximal ill-formed
sequence. -/
def marks (bytes : Bytes) : List (Option Char) := marksFrom none bytes

/-- The characters of marks without a gap. -/
def chars? : List (Option Char) → Option (List Char)
  | [] => some []
  | none :: _ => none
  | some c :: rest => (chars? rest).map (c :: ·)

/-- The text of a well-formed byte string. -/
def decode? (bytes : Bytes) : Option String := (chars? (marks bytes)).map String.ofList

/-- The text of any byte string, with the replacement character in each gap. -/
def lossy (bytes : Bytes) : String :=
  String.ofList ((marks bytes).map (·.getD '\ufffd'))

end Utf8
end WasmBuild
