import Mathlib.Tactic.IntervalCases
import WasmBuild.Json.Record
import WasmBuild.Proofs.Text.Utf8

/-!
# Reading flat records

A reader of JSON objects whose values are strings, whole numbers and flags. It allows blanks
between tokens and every escape of the format, surrogate pairs included, and is written without
regard to the printer. Reading what was printed gives the record back.
-/
namespace WasmBuild.Json

def isGap (c : Char) : Bool := c == ' ' || c == '\t' || c == '\n' || c == '\r'

/-- A text without the gap at its start. -/
def skipGap (chars : List Char) : List Char := chars.dropWhile isGap

def hexValue? (c : Char) : Option Nat :=
  if '0' ≤ c ∧ c ≤ '9' then some (c.toNat - '0'.toNat)
  else if 'a' ≤ c ∧ c ≤ 'f' then some (c.toNat - 'a'.toNat + 10)
  else if 'A' ≤ c ∧ c ≤ 'F' then some (c.toNat - 'A'.toNat + 10)
  else none

/-- The character that a letter stands for after a backslash. -/
def letter? (c : Char) : Option Char :=
  if c = '"' ∨ c = '\\' ∨ c = '/' then some c
  else if c = 'b' then some '\x08'
  else if c = 'f' then some '\x0c'
  else if c = 'n' then some '\n'
  else if c = 'r' then some '\r'
  else if c = 't' then some '\t'
  else none

/-- What a code unit does to the surrogate that is waiting for its second half: it completes a
character or waits itself. -/
def joinUnit? (waiting : Option Nat) (value : Nat) : Option (Option Char × Option Nat) :=
  match waiting with
  | some high =>
    if 0xDC00 ≤ value ∧ value ≤ 0xDFFF then
      some (some (Char.ofNat (0x10000 + (high - 0xD800) * 0x400 + (value - 0xDC00))), none)
    else none
  | none =>
    if 0xD800 ≤ value ∧ value ≤ 0xDBFF then some (none, some value)
    else if 0xDC00 ≤ value ∧ value ≤ 0xDFFF then none
    else some (some (Char.ofNat value), none)

/-- Where the reader stands in a string: at a character of its own, after a backslash, or before
the last `due` digits of a code unit. -/
inductive Place where
  | plain
  | escape
  | digits (due value : Nat)
  deriving DecidableEq

/-- The result of reading one character of a string. The number held is the surrogate that waits
for its second half. -/
inductive TextStep where
  | refuse
  | close
  | next (char : Option Char) (waiting : Option Nat) (place : Place)

/-- Reading one character of a string. -/
def textStep (waiting : Option Nat) (place : Place) (c : Char) : TextStep :=
  match place with
  | .plain =>
    if c = '\\' then .next none waiting .escape
    else if waiting.isSome || c.toNat < 0x20 then .refuse
    else if c = '"' then .close
    else .next (some c) none .plain
  | .escape =>
    if c = 'u' then .next none waiting (.digits 4 0)
    else match waiting, letter? c with
      | none, some char => .next (some char) none .plain
      | _, _ => .refuse
  | .digits due value =>
    match hexValue? c with
    | none => .refuse
    | some digit =>
      if 1 < due then .next none waiting (.digits (due - 1) (value * 16 + digit))
      else match joinUnit? waiting (value * 16 + digit) with
        | some (char, waiting) => .next char waiting .plain
        | none => .refuse

/-- Puts a character, if there is one, before the text that was read after it. -/
def push (c : Option Char) (rest : List Char × List Char) : List Char × List Char :=
  (c.toList ++ rest.1, rest.2)

/-- The characters of a string up to its closing quote, and what follows the quote. -/
def readText (waiting : Option Nat) (place : Place) : List Char → Option (List Char × List Char)
  | [] => none
  | c :: rest =>
    match textStep waiting place c with
    | .refuse => none
    | .close => some ([], rest)
    | .next char waiting place => (readText waiting place rest).map (push char)

def readNumber (chars : List Char) : Option (Nat × List Char) :=
  let digits := chars.takeWhile Char.isDigit
  if digits = [] ∨ (digits.head? = some '0' ∧ digits ≠ ['0']) then none
  else some (Nat.ofDigitChars 10 digits 0, chars.dropWhile Char.isDigit)

def readScalar : List Char → Option (Scalar × List Char)
  | '"' :: rest => (readText none .plain rest).map fun r => (.text (String.ofList r.1), r.2)
  | 't' :: 'r' :: 'u' :: 'e' :: rest => some (.flag true, rest)
  | 'f' :: 'a' :: 'l' :: 's' :: 'e' :: rest => some (.flag false, rest)
  | chars => (readNumber chars).map fun r => (.number r.1, r.2)

/-- A name with its value, and what follows them. -/
def readField (chars : List Char) : Option ((String × Scalar) × List Char) :=
  match skipGap chars with
  | '"' :: rest =>
    match readText none .plain rest with
    | some (name, rest) =>
      match skipGap rest with
      | ':' :: rest =>
        (readScalar (skipGap rest)).map fun r => ((String.ofList name, r.1), r.2)
      | _ => none
    | none => none
  | _ => none

/-- The fields up to the closing brace, and what follows it. At most `fuel` fields are read. -/
def readFields : (fuel : Nat) → List Char → Option (Record × List Char)
  | 0, _ => none
  | fuel + 1, chars =>
    match readField chars with
    | some (field, rest) =>
      match skipGap rest with
      | '\x7d' :: rest => some ([field], rest)
      | ',' :: rest => (readFields fuel rest).map fun r => (field :: r.1, r.2)
      | _ => none
    | none => none

/-- The fields after an opening brace, and what follows the closing one. -/
def readBody (chars : List Char) : Option (Record × List Char) :=
  match skipGap chars with
  | '\x7d' :: rest => some ([], rest)
  | _ => readFields chars.length chars

/-- The record that a text spells: one object with nothing but gaps around it. -/
def Record.read? (text : String) : Option Record :=
  match skipGap text.toList with
  | '\x7b' :: rest =>
    match readBody rest with
    | some (record, after) => if skipGap after = [] then some record else none
    | none => none
  | _ => none

example : Record.read? " \x7b \"a\\ud83d\\ude00\" : \"\\u0041\\/\" , \"n\":10 \x7d\n" =
    some [("a😀", .text "A/"), ("n", .number 10)] := by decide +kernel

example : Record.read? "\x7b\"n\":010\x7d" = none := by decide +kernel

def Scalar.asText : Scalar → Option String
  | text value => some value
  | _ => none

def Scalar.asNumber : Scalar → Option Nat
  | number value => some value
  | _ => none

def Scalar.asFlag : Scalar → Option Bool
  | flag value => some value
  | _ => none

def Record.text? (record : Record) (name : String) : Option String :=
  (record.lookup name).bind Scalar.asText

def Record.number? (record : Record) (name : String) : Option Nat :=
  (record.lookup name).bind Scalar.asNumber

def Record.flag? (record : Record) (name : String) : Option Bool :=
  (record.lookup name).bind Scalar.asFlag

theorem skipGap_cons {c : Char} {rest : List Char} (solid : isGap c = false) :
    skipGap (c :: rest) = c :: rest := by
  simp [skipGap, solid]

theorem hexValue?_hexDigit {n : Nat} (small : n < 16) : hexValue? (hexDigit n) = some n := by
  interval_cases n <;> rfl

@[simp] theorem push_none : push none = id := rfl

theorem readText_letter {letter c : Char} (stands : letter? letter = some c) (short : letter ≠ 'u')
    (rest : List Char) :
    readText none .plain ('\\' :: letter :: rest) =
      (readText none .plain rest).map (push (some c)) := by
  simp [readText, textStep, stands, short]

/-- An escaped character is read as itself. -/
theorem readText_escapeChar (c : Char) (rest : List Char) :
    readText none .plain (escapeChar c ++ rest) =
      (readText none .plain rest).map (push (some c)) := by
  unfold escapeChar
  split_ifs with quote backslash backspace feed newline carriage tab control
  · subst quote
    exact readText_letter rfl (by decide) rest
  · subst backslash
    exact readText_letter rfl (by decide) rest
  · subst backspace
    exact readText_letter rfl (by decide) rest
  · subst feed
    exact readText_letter rfl (by decide) rest
  · subst newline
    exact readText_letter rfl (by decide) rest
  · subst carriage
    exact readText_letter rfl (by decide) rest
  · subst tab
    exact readText_letter rfl (by decide) rest
  · have high : hexValue? (hexDigit (c.toNat / 16)) = some (c.toNat / 16) :=
      hexValue?_hexDigit (by omega)
    have low : hexValue? (hexDigit (c.toNat % 16)) = some (c.toNat % 16) :=
      hexValue?_hexDigit (by omega)
    have zero : hexValue? '0' = some 0 := rfl
    have value : c.toNat / 16 * 16 + c.toNat % 16 = c.toNat := by omega
    have whole : joinUnit? none c.toNat = some (some c, none) := by
      rw [joinUnit?, if_neg (by omega), if_neg (by omega), Char.ofNat_toNat]
    simp [readText, textStep, high, low, zero, value, whole]
  · simp [readText, textStep, quote, backslash, control]

theorem readText_quote (chars rest : List Char) :
    readText none .plain (chars.flatMap escapeChar ++ '"' :: rest) = some (chars, rest) := by
  induction chars with
  | nil => rfl
  | cons c chars ih =>
      rw [List.flatMap_cons, List.append_assoc, readText_escapeChar, ih]
      rfl

/-- Only zero is written with a leading zero. -/
theorem head?_toDigits {n : Nat} (leading : (Nat.toDigits 10 n).head? = some '0') :
    Nat.toDigits 10 n = ['0'] := by
  induction n using Nat.strongRecOn with
  | ind n ih =>
      by_cases small : n < 10
      · rw [Nat.toDigits_of_lt_base small] at leading ⊢
        simpa using leading
      · rw [Nat.toDigits_of_base_le (by decide) (by omega)] at leading
        have first : (Nat.toDigits 10 (n / 10)).head? = some '0' := by
          cases written : Nat.toDigits 10 (n / 10) with
          | nil => exact absurd written Nat.toDigits_ne_nil
          | cons d ds => rwa [written] at leading
        have zero := congrArg (Nat.ofDigitChars 10 · 0) (ih (n / 10) (by omega) first)
        rw [Nat.ofDigitChars_ten_toDigits] at zero
        change n / 10 = 0 at zero
        omega

theorem exists_toDigits (n : Nat) :
    ∃ d ds, Nat.toDigits 10 n = d :: ds ∧ d.isDigit = true := by
  cases written : Nat.toDigits 10 n with
  | nil => exact absurd written Nat.toDigits_ne_nil
  | cons d ds =>
      have member : d ∈ Nat.toDigits 10 n := written ▸ List.mem_cons_self
      exact ⟨d, ds, rfl, Nat.isDigit_of_mem_toDigits (by decide) (by decide) member⟩

theorem isGap_of_isDigit {c : Char} (digit : c.isDigit = true) : isGap c = false := by
  by_contra gap
  simp only [isGap, Bool.not_eq_false, Bool.or_eq_true, beq_iff_eq] at gap
  rcases gap with ((rfl | rfl) | rfl) | rfl <;> exact absurd digit (by decide)

theorem skipGap_chars (value : Scalar) (rest : List Char) :
    skipGap (value.chars ++ rest) = value.chars ++ rest := by
  cases value with
  | text value => exact skipGap_cons rfl
  | number n =>
      obtain ⟨d, ds, written, digit⟩ := exists_toDigits n
      rw [Scalar.chars, written]
      exact skipGap_cons (isGap_of_isDigit digit)
  | flag value =>
      cases value with
      | true => rfl
      | false => rfl

section
variable {c : Char} (ends : c.isDigit = false) (rest : List Char)
include ends

theorem readNumber_toDigits (n : Nat) :
    readNumber (Nat.toDigits 10 n ++ c :: rest) = some (n, c :: rest) := by
  have digits : ∀ d ∈ Nat.toDigits 10 n, d.isDigit = true := fun d member =>
    Nat.isDigit_of_mem_toDigits (by decide) (by decide) member
  have stops : ¬ c.isDigit = true := by simp [ends]
  have taken : (Nat.toDigits 10 n ++ c :: rest).takeWhile Char.isDigit = Nat.toDigits 10 n := by
    rw [List.takeWhile_append_of_pos digits, List.takeWhile_cons_of_neg stops, List.append_nil]
  have left : (Nat.toDigits 10 n ++ c :: rest).dropWhile Char.isDigit = c :: rest := by
    rw [List.dropWhile_append_of_pos digits, List.dropWhile_cons_of_neg stops]
  have proper : ¬ (Nat.toDigits 10 n = [] ∨
      (Nat.toDigits 10 n).head? = some '0' ∧ Nat.toDigits 10 n ≠ ['0']) := by
    rintro (none | ⟨leading, other⟩)
    · exact Nat.toDigits_ne_nil none
    · exact other (head?_toDigits leading)
  simp only [readNumber, taken, left, if_neg proper, Nat.ofDigitChars_ten_toDigits]

/-- A value is read up to the character that ends it. -/
theorem readScalar_chars (value : Scalar) :
    readScalar (value.chars ++ c :: rest) = some (value, c :: rest) := by
  cases value with
  | text value =>
      have body := readText_quote value.toList (c :: rest)
      simp [Scalar.chars, quote, readScalar, body]
  | number n =>
      obtain ⟨d, ds, written, digit⟩ := exists_toDigits n
      have read := readNumber_toDigits ends rest n
      rw [Scalar.chars, written]
      rw [written] at read
      unfold readScalar
      split
      · next same =>
          obtain ⟨rfl, -⟩ := List.cons.inj same
          exact absurd digit (by decide)
      · next same =>
          obtain ⟨rfl, -⟩ := List.cons.inj same
          exact absurd digit (by decide)
      · next same =>
          obtain ⟨rfl, -⟩ := List.cons.inj same
          exact absurd digit (by decide)
      · rw [read]
        rfl
  | flag value =>
      cases value with
      | true => rfl
      | false => rfl

theorem readField_fieldChars (field : String × Scalar) :
    readField (fieldChars field ++ c :: rest) = some (field, c :: rest) := by
  obtain ⟨name, value⟩ := field
  have body := readText_quote name.toList (':' :: (value.chars ++ c :: rest))
  have gap := skipGap_chars value (c :: rest)
  have read := readScalar_chars ends rest value
  simp [readField, fieldChars, quote, skipGap_cons, body, isGap, gap, read]

end

/-- The fields of a record are read up to the closing brace. -/
theorem readFields_intercalate (field : String × Scalar) (more : Record) (fuel : Nat)
    (rest : List Char) (enough : more.length < fuel) :
    readFields fuel (List.intercalate [','] ((field :: more).map fieldChars) ++ '\x7d' :: rest) =
      some (field :: more, rest) := by
  induction more generalizing field fuel with
  | nil =>
      obtain ⟨fuel, rfl⟩ : ∃ k, fuel = k + 1 := ⟨fuel - 1, by omega⟩
      have read := readField_fieldChars (c := '\x7d') rfl rest field
      simp [readFields, List.intercalate, read, skipGap_cons, isGap]
  | cons next more ih =>
      obtain ⟨fuel, rfl⟩ : ∃ k, fuel = k + 1 := ⟨fuel - 1, by omega⟩
      rw [List.length_cons] at enough
      have tail := ih next fuel (by omega)
      have read := readField_fieldChars (c := ',') rfl
        (List.intercalate [','] ((next :: more).map fieldChars) ++ '\x7d' :: rest) field
      simp only [List.map_cons, List.intercalate_cons_cons, List.append_assoc, List.cons_append,
        List.nil_append] at tail read ⊢
      simp [readFields, read, skipGap_cons, isGap, tail]

theorem length_lt_intercalate (field : String × Scalar) (more : Record) :
    more.length < (List.intercalate [','] ((field :: more).map fieldChars)).length := by
  induction more generalizing field with
  | nil => simp [List.intercalate, fieldChars, quote]
  | cons next more ih =>
      have shorter := ih next
      simp only [List.map_cons, List.intercalate_cons_cons, List.length_append,
        List.length_cons] at shorter ⊢
      omega

theorem readBody_intercalate (record : Record) (rest : List Char) :
    readBody (List.intercalate [','] (record.map fieldChars) ++ '\x7d' :: rest) =
      some (record, rest) := by
  cases record with
  | nil => rfl
  | cons field more =>
      have enough := length_lt_intercalate field more
      obtain ⟨after, first⟩ : ∃ after,
          List.intercalate [','] ((field :: more).map fieldChars) ++ '\x7d' :: rest =
            '"' :: after := by
        cases more with
        | nil => exact ⟨_, rfl⟩
        | cons next more => exact ⟨_, rfl⟩
      have read := readFields_intercalate field more (('"' :: after).length) rest
        (by rw [← first, List.length_append]; omega)
      rw [first] at read ⊢
      rw [readBody, skipGap_cons rfl]
      exact read

/-- The record that was printed is read back. -/
theorem Record.read?_chars (record : Record) :
    Record.read? (String.ofList record.chars) = some record := by
  have body := readBody_intercalate record []
  have empty : skipGap [] = [] := rfl
  simp [Record.read?, Record.chars, skipGap_cons, isGap, body, empty]

/-- A text without control characters. -/
def Visible (chars : List Char) : Prop := chars.all (fun c => decide (0x20 ≤ c.toNat)) = true

theorem visible_iff (chars : List Char) : Visible chars ↔ ∀ c ∈ chars, 0x20 ≤ c.toNat := by
  simp [Visible]

theorem visible_append {first second : List Char} (left : Visible first)
    (right : Visible second) : Visible (first ++ second) := by
  rw [Visible, List.all_append, Bool.and_eq_true]
  exact ⟨left, right⟩

theorem visible_cons {c : Char} {rest : List Char} (first : 0x20 ≤ c.toNat)
    (right : Visible rest) : Visible (c :: rest) := by
  rw [Visible, List.all_cons, Bool.and_eq_true, decide_eq_true_eq]
  exact ⟨first, right⟩

theorem visible_hexDigit {n : Nat} (small : n < 16) : 0x20 ≤ (hexDigit n).toNat := by
  interval_cases n <;> decide

theorem visible_escapeChar (c : Char) : Visible (escapeChar c) := by
  have empty : Visible [] := rfl
  unfold escapeChar
  split_ifs with quote backslash backspace feed newline carriage tab control
  · rfl
  · rfl
  · rfl
  · rfl
  · rfl
  · rfl
  · rfl
  · have high : 0x20 ≤ (hexDigit (c.toNat / 16)).toNat := visible_hexDigit (by omega)
    have low : 0x20 ≤ (hexDigit (c.toNat % 16)).toNat := visible_hexDigit (by omega)
    have start : Visible ['\\', 'u', '0', '0'] := rfl
    exact visible_append start (visible_cons high (visible_cons low empty))
  · exact visible_cons (not_lt.1 control) empty

theorem visible_quote (text : String) : Visible (quote text) := by
  have body : Visible (text.toList.flatMap escapeChar) := by
    rw [visible_iff]
    intro c member
    obtain ⟨d, -, member⟩ := List.mem_flatMap.1 member
    exact (visible_iff _).1 (visible_escapeChar d) c member
  have close : Visible ['"'] := rfl
  exact visible_append (visible_cons (by decide) body) close

theorem visible_chars (value : Scalar) : Visible value.chars := by
  cases value with
  | text value => exact visible_quote value
  | number n =>
      rw [visible_iff]
      intro c member
      have digit : c.isDigit = true := Nat.isDigit_of_mem_toDigits (by decide) (by decide) member
      have bound : '0' ≤ c := by
        simp only [Char.isDigit, Bool.and_eq_true, decide_eq_true_eq] at digit
        exact digit.1
      exact le_trans (by decide) bound
  | flag value =>
      cases value with
      | true => rfl
      | false => rfl

theorem visible_fieldChars (field : String × Scalar) : Visible (fieldChars field) := by
  have value : Visible (':' :: field.2.chars) := visible_cons (by decide) (visible_chars field.2)
  exact visible_append (visible_quote field.1) value

theorem visible_intercalate (record : Record) :
    Visible (List.intercalate [','] (record.map fieldChars)) := by
  induction record with
  | nil => rfl
  | cons field more ih =>
      cases more with
      | nil => exact visible_append (visible_fieldChars field) rfl
      | cons next more =>
          have separator : Visible [','] := rfl
          simp only [List.map_cons, List.intercalate_cons_cons] at ih ⊢
          exact visible_append (visible_append (visible_fieldChars field) separator) ih

/-- No character of a printed record is a control character. -/
theorem Record.visible (record : Record) : Visible record.chars := by
  have opening : Visible ('\x7b' :: List.intercalate [','] (record.map fieldChars)) :=
    visible_cons (by decide) (visible_intercalate record)
  have close : Visible ['\x7d'] := rfl
  exact visible_append opening close

end WasmBuild.Json
