import Mathlib.Tactic.MkIffOfInductiveProp
import Mathlib.Tactic.IntervalCases
import Mathlib.Tactic.NormNum
import WasmBuild.Text.Utf8

/-!
# Decoding inverts encoding

The strict decoder accepts a byte string exactly when it is the encoding of a text, and then gives
that text back. The bytes due after a lead byte are described by the code point they complete.
-/
namespace WasmBuild.Utf8

/-- The last `due` bytes in the sequence of a code point. -/
def tail (point : Nat) : Nat → Bytes
  | 0 => []
  | due + 1 => UInt8.ofNat (point / 64 ^ due % 64 + 0x80) :: tail point due

/-- An open sequence can be completed to a code point: the bits read so far are its leading bits,
and the next byte lies in the range that is open. -/
@[mk_iff opens_iff_fields]
structure Pending.Opens (p : Pending) (point : Nat) : Prop where
  bits : point / 64 ^ p.due = p.bits
  low : p.low.toNat ≤ point / 64 ^ (p.due - 1) % 64 + 0x80
  high : point / 64 ^ (p.due - 1) % 64 + 0x80 ≤ p.high.toNat

theorem toNat_continuation (n : Nat) : (UInt8.ofNat (n % 64 + 0x80)).toNat = n % 64 + 0x80 := by
  rw [UInt8.toNat_ofNat']
  omega

theorem marksFrom_open_cons (p : Pending) (b : UInt8) (rest : Bytes) (low : p.low ≤ b)
    (high : b ≤ p.high) :
    marksFrom (some p) (b :: rest) =
      if p.due ≤ 1 then some (Char.ofNat (p.bits * 64 + (b.toNat - 0x80))) :: marksFrom none rest
      else marksFrom (some ⟨p.bits * 64 + (b.toNat - 0x80), 0x80, 0xBF, p.due - 1⟩) rest := by
  by_cases due : p.due ≤ 1
  · simp [marksFrom, step, low, high, due]
  · simp [marksFrom, step, low, high, due]

/-- The bytes due for a code point complete it. -/
theorem marksFrom_tail (due : Nat) (p : Pending) (point : Nat) (rest : Bytes)
    (owes : p.due = due + 1) (opens : p.Opens point) :
    marksFrom (some p) (tail point (due + 1) ++ rest) =
      some (Char.ofNat point) :: marksFrom none rest := by
  induction due generalizing p with
  | zero =>
      obtain ⟨bits, low, high⟩ := opens
      simp only [owes, Nat.zero_add, pow_one, Nat.sub_self, pow_zero, Nat.div_one] at bits low high
      simp only [tail, pow_zero, Nat.div_one, List.cons_append, List.nil_append]
      rw [marksFrom_open_cons, toNat_continuation, if_pos (by omega), ← bits]
      · have value : point / 64 * 64 + (point % 64 + 0x80 - 0x80) = point := by omega
        rw [value]
      · rw [UInt8.le_iff_toNat_le, toNat_continuation]
        exact low
      · rw [UInt8.le_iff_toNat_le, toNat_continuation]
        exact high
  | succ due ih =>
      obtain ⟨bits, low, high⟩ := opens
      simp only [owes, Nat.add_sub_cancel] at bits low high
      rw [tail, List.cons_append, marksFrom_open_cons, toNat_continuation, if_neg (by omega)]
      · have split : point / 64 ^ (due + 1 + 1) = point / 64 ^ (due + 1) / 64 := by
          rw [pow_succ 64 (due + 1), Nat.div_div_eq_div_mul]
        apply ih _ (by simp [owes])
        constructor
        · simp only [owes, Nat.add_sub_cancel]
          omega
        · show 0x80 ≤ _
          omega
        · show _ ≤ 0xBF
          omega
      · rw [UInt8.le_iff_toNat_le, toNat_continuation]
        exact low
      · rw [UInt8.le_iff_toNat_le, toNat_continuation]
        exact high

/-- Bytes that are read without a gap after an open sequence complete a code point first. -/
theorem tail_of_chars (due : Nat) (p : Pending) (bytes : Bytes) (chars : List Char)
    (owes : p.due = due + 1) (low : 0x80 ≤ p.low) (high : p.high ≤ 0xBF)
    (read : chars? (marksFrom (some p) bytes) = some chars) :
    ∃ point rest tailChars, p.Opens point ∧ bytes = tail point (due + 1) ++ rest ∧
      chars = Char.ofNat point :: tailChars ∧ chars? (marksFrom none rest) = some tailChars := by
  induction due generalizing p bytes with
  | zero =>
      cases bytes with
      | nil => simp [marksFrom, chars?] at read
      | cons b rest =>
          by_cases inside : p.low ≤ b ∧ b ≤ p.high
          · rw [marksFrom_open_cons p b rest inside.1 inside.2, if_pos (by omega)] at read
            obtain ⟨tailChars, readRest, rfl⟩ := Option.map_eq_some_iff.1 read
            simp only [UInt8.le_iff_toNat_le] at low high inside
            have low' : 0x80 ≤ p.low.toNat := low
            have high' : p.high.toNat ≤ 0xBF := high
            have last : (p.bits * 64 + (b.toNat - 0x80)) % 64 + 0x80 = b.toNat := by omega
            refine ⟨p.bits * 64 + (b.toNat - 0x80), rest, tailChars, ⟨?_, ?_, ?_⟩, ?_, rfl,
              readRest⟩
            · simp only [owes, Nat.zero_add, pow_one]
              omega
            · simp only [owes, Nat.add_sub_cancel, pow_zero, Nat.div_one, last]
              exact inside.1
            · simp only [owes, Nat.add_sub_cancel, pow_zero, Nat.div_one, last]
              exact inside.2
            · rw [tail, pow_zero, Nat.div_one, last]
              simp [tail]
          · simp [marksFrom, step, inside, chars?] at read
  | succ due ih =>
      cases bytes with
      | nil => simp [marksFrom, chars?] at read
      | cons b rest =>
          by_cases inside : p.low ≤ b ∧ b ≤ p.high
          · rw [marksFrom_open_cons p b rest inside.1 inside.2, if_neg (by omega)] at read
            obtain ⟨point, after, tailChars, opens, rfl, chars', readAfter⟩ :=
              ih _ rest (by simp [owes]) (UInt8.le_refl _) (UInt8.le_refl _) read
            have bits := opens.bits
            simp only [UInt8.le_iff_toNat_le] at low high inside
            have low' : 0x80 ≤ p.low.toNat := low
            have high' : p.high.toNat ≤ 0xBF := high
            simp only [owes, Nat.add_sub_cancel] at bits
            have next : point / 64 ^ (due + 1) % 64 + 0x80 = b.toNat := by omega
            have split : point / 64 ^ (due + 1 + 1) = point / 64 ^ (due + 1) / 64 := by
              rw [pow_succ 64 (due + 1), Nat.div_div_eq_div_mul]
            refine ⟨point, after, tailChars, ⟨?_, ?_, ?_⟩, ?_, chars', readAfter⟩
            · simp only [owes]
              omega
            · simp only [owes, Nat.add_sub_cancel, next]
              exact inside.1
            · simp only [owes, Nat.add_sub_cancel, next]
              exact inside.2
            · rw [tail.eq_2 point (due + 1), next]
              simp
          · simp [marksFrom, step, inside, chars?] at read

/-- What each lead byte opens, by its number. -/
theorem Pending.ofLead?_eq (lead : UInt8) :
    ofLead? lead =
      if 0xC2 ≤ lead.toNat ∧ lead.toNat ≤ 0xDF then some ⟨lead.toNat - 0xC0, 0x80, 0xBF, 1⟩
      else if lead.toNat = 0xE0 then some ⟨0, 0xA0, 0xBF, 2⟩
      else if lead.toNat = 0xED then some ⟨0xD, 0x80, 0x9F, 2⟩
      else if 0xE1 ≤ lead.toNat ∧ lead.toNat ≤ 0xEF then
        some ⟨lead.toNat - 0xE0, 0x80, 0xBF, 2⟩
      else if lead.toNat = 0xF0 then some ⟨0, 0x90, 0xBF, 3⟩
      else if 0xF1 ≤ lead.toNat ∧ lead.toNat ≤ 0xF3 then
        some ⟨lead.toNat - 0xF0, 0x80, 0xBF, 3⟩
      else if lead.toNat = 0xF4 then some ⟨4, 0x80, 0x8F, 3⟩
      else none := by
  simp only [ofLead?, UInt8.le_iff_toNat_le, ← UInt8.toNat_inj]
  rfl

/-- The least code point with so many bytes due after the first. -/
def least : Nat → Nat
  | 0 => 0
  | 1 => 0x80
  | 2 => 0x800
  | 3 => 0x10000
  | _ => 0x110000

/-- The bits that mark a lead byte with so many bytes due. -/
def mark : Nat → Nat
  | 1 => 0xC0
  | 2 => 0xE0
  | _ => 0xF0

/-- The lead byte of a longer sequence, by its number. -/
theorem Pending.exists_ofLead? (lead : UInt8) (low : 0xC2 ≤ lead.toNat)
    (high : lead.toNat ≤ 0xF4) :
    ∃ p, ofLead? lead = some p ∧
      p.due = if lead.toNat ≤ 0xDF then 1 else if lead.toNat ≤ 0xEF then 2 else 3 := by
  rw [ofLead?_eq]
  split_ifs <;> first | omega | exact ⟨_, rfl, rfl⟩

/-- The restricted ranges admit the code points of their length and no others. -/
theorem Pending.opens_iff {lead : UInt8} {p : Pending} (point : Nat)
    (opened : ofLead? lead = some p) :
    p.Opens point ↔ point.isValidChar ∧ least p.due ≤ point ∧ point < least (p.due + 1) ∧
      lead.toNat = mark p.due + point / 64 ^ p.due := by
  rw [ofLead?_eq] at opened
  rw [opens_iff_fields, Nat.isValidChar]
  split_ifs at opened
  all_goals
    obtain rfl := Option.some.inj opened
    simp only [least, mark, UInt8.reduceToNat, Nat.add_one_sub_one, Nat.reducePow, Nat.reduceAdd,
      pow_zero, pow_one, Nat.div_one]
    omega

theorem Pending.ofLead?_bounds {lead : UInt8} {p : Pending} (opened : ofLead? lead = some p) :
    ∃ due, p.due = due + 1 ∧ 0x80 ≤ p.low ∧ p.high ≤ 0xBF := by
  rw [ofLead?_eq] at opened
  split_ifs at opened
  all_goals
    obtain rfl := Option.some.inj opened
    exact ⟨_, rfl, by simp, by simp⟩

theorem leadNumber_bounds {point due : Nat} (pos : 0 < due) (few : due < 4)
    (low : least due ≤ point) (high : point < least (due + 1)) :
    0xC2 ≤ mark due + point / 64 ^ due ∧ mark due + point / 64 ^ due ≤ 0xF4 ∧
      (if mark due + point / 64 ^ due ≤ 0xDF then 1
        else if mark due + point / 64 ^ due ≤ 0xEF then 2 else 3) = due := by
  interval_cases due
  all_goals
    simp only [least, mark, Nat.reducePow] at low high ⊢
    split_ifs <;> omega

/-- The lead byte of a code point opens a sequence for it. -/
theorem Pending.exists_opens {lead : UInt8} {point due : Nat} (valid : point.isValidChar)
    (pos : 0 < due) (few : due < 4) (low : least due ≤ point) (high : point < least (due + 1))
    (number : lead.toNat = mark due + point / 64 ^ due) :
    ∃ p, ofLead? lead = some p ∧ p.due = due ∧ p.Opens point := by
  obtain ⟨above, below, length⟩ := leadNumber_bounds pos few low high
  rw [← number] at above below length
  obtain ⟨p, opened, owes⟩ := exists_ofLead? lead above below
  rw [length] at owes
  refine ⟨p, opened, owes, (opens_iff point opened).2 ?_⟩
  rw [owes]
  exact ⟨valid, low, high, number⟩

theorem utf8EncodeChar_short {c : Char} (short : c.toNat < 0x80) :
    String.utf8EncodeChar c = [UInt8.ofNat c.toNat] := by
  have bound : c.val.toNat ≤ 0x7F := Nat.le_of_lt_succ short
  rw [String.utf8EncodeChar]
  simp only [bound, if_true]
  rfl

theorem utf8EncodeChar_long {c : Char} {due : Nat} (pos : 0 < due) (low : least due ≤ c.toNat)
    (high : c.toNat < least (due + 1)) :
    String.utf8EncodeChar c =
      UInt8.ofNat (mark due + c.toNat / 64 ^ due) :: tail c.toNat due := by
  change least due ≤ c.val.toNat at low
  change c.val.toNat < least (due + 1) at high
  simp only [String.utf8EncodeChar, Char.toNat]
  match due, pos with
  | 1, _ =>
      change 0x80 ≤ _ at low
      change _ < 0x800 at high
      have lead : c.val.toNat / 64 % 0x20 = c.val.toNat / 64 := Nat.mod_eq_of_lt (by omega)
      rw [if_neg (by omega), if_pos (by omega), lead, Nat.add_comm _ 0xC0]
      simp only [tail, mark, Nat.reducePow, Nat.div_one]
  | 2, _ =>
      change 0x800 ≤ _ at low
      change _ < 0x10000 at high
      have lead : c.val.toNat / 4096 % 0x10 = c.val.toNat / 4096 := Nat.mod_eq_of_lt (by omega)
      rw [if_neg (by omega), if_neg (by omega), if_pos (by omega), lead, Nat.add_comm _ 0xE0]
      simp only [tail, mark, Nat.reducePow, Nat.div_one]
  | 3, _ =>
      change 0x10000 ≤ _ at low
      change _ < 0x110000 at high
      have lead : c.val.toNat / 262144 % 8 = c.val.toNat / 262144 := Nat.mod_eq_of_lt (by omega)
      rw [if_neg (by omega), if_neg (by omega), if_neg (by omega), lead, Nat.add_comm _ 0xF0]
      simp only [tail, mark, Nat.reducePow, Nat.div_one]
  | due + 4, _ =>
      simp only [least] at low high
      omega

theorem toNat_ofNat {point : Nat} (valid : point.isValidChar) :
    (Char.ofNat point).toNat = point := by
  rw [Char.ofNat, dif_pos valid]
  rfl

/-- A code point for which a lead byte opens a sequence has this lead byte. -/
theorem utf8EncodeChar_ofNat {lead : UInt8} {p : Pending} (point : Nat)
    (opened : Pending.ofLead? lead = some p) (opens : p.Opens point) :
    String.utf8EncodeChar (Char.ofNat point) = lead :: tail point p.due := by
  obtain ⟨valid, low, high, number⟩ := (Pending.opens_iff point opened).1 opens
  obtain ⟨due, owes, -, -⟩ := Pending.ofLead?_bounds opened
  have pos : 0 < p.due := by omega
  have back := toNat_ofNat valid
  rw [utf8EncodeChar_long pos (by rwa [back]) (by rwa [back]), back, ← number, UInt8.ofNat_toNat]

/-- A character outside of ASCII has some bytes due. -/
theorem exists_due {c : Char} (long : 0x80 ≤ c.toNat) :
    ∃ due, 0 < due ∧ due < 4 ∧ least due ≤ c.toNat ∧ c.toNat < least (due + 1) := by
  have valid : c.toNat < 0xD800 ∨ 0xDFFF < c.toNat ∧ c.toNat < 0x110000 := c.valid
  by_cases two : c.toNat < 0x800
  · exact ⟨1, by decide, by decide, long, two⟩
  by_cases three : c.toNat < 0x10000
  · exact ⟨2, by decide, by decide, not_lt.1 two, three⟩
  · exact ⟨3, by decide, by decide, not_lt.1 three, by simp only [least]; omega⟩

theorem marksFrom_none_short {b : UInt8} (rest : Bytes) (short : b < 0x80) :
    marksFrom none (b :: rest) = some (Char.ofNat b.toNat) :: marksFrom none rest := by
  simp [marksFrom, step, begin, short]

theorem marksFrom_none_lead {b : UInt8} {p : Pending} (rest : Bytes) (long : ¬ b < 0x80)
    (opened : Pending.ofLead? b = some p) :
    marksFrom none (b :: rest) = marksFrom (some p) rest := by
  simp [marksFrom, step, begin, long, opened]

/-- The bytes of a character are read as this character. -/
theorem marksFrom_utf8EncodeChar (c : Char) (rest : Bytes) :
    marksFrom none (String.utf8EncodeChar c ++ rest) = some c :: marksFrom none rest := by
  by_cases short : c.toNat < 0x80
  · have number : (UInt8.ofNat c.toNat).toNat = c.toNat := by
      rw [UInt8.toNat_ofNat']
      omega
    have small : UInt8.ofNat c.toNat < 0x80 := by
      rw [UInt8.lt_iff_toNat_lt, number]
      exact short
    rw [utf8EncodeChar_short short, List.cons_append, List.nil_append,
      marksFrom_none_short rest small, number, Char.ofNat_toNat]
  · obtain ⟨due, pos, few, low, high⟩ := exists_due (not_lt.1 short)
    obtain ⟨above, below, -⟩ := leadNumber_bounds pos few low high
    have number : (UInt8.ofNat (mark due + c.toNat / 64 ^ due)).toNat =
        mark due + c.toNat / 64 ^ due := by
      rw [UInt8.toNat_ofNat']
      omega
    obtain ⟨p, opened, owes, opens⟩ := Pending.exists_opens c.valid pos few low high number
    have long : ¬ UInt8.ofNat (mark due + c.toNat / 64 ^ due) < 0x80 := by
      rw [UInt8.lt_iff_toNat_lt, number]
      show ¬ _ < 0x80
      omega
    obtain ⟨more, rfl⟩ : ∃ k, due = k + 1 := ⟨due - 1, by omega⟩
    rw [utf8EncodeChar_long pos low high, List.cons_append, marksFrom_none_lead _ long opened,
      marksFrom_tail _ p c.toNat rest owes opens, Char.ofNat_toNat]

theorem marksFrom_flatMap (chars : List Char) :
    marksFrom none (chars.flatMap String.utf8EncodeChar) = chars.map some := by
  induction chars with
  | nil => rfl
  | cons c chars ih =>
      rw [List.flatMap_cons, marksFrom_utf8EncodeChar, ih, List.map_cons]

theorem chars?_map_some (chars : List Char) : chars? (chars.map some) = some chars := by
  induction chars with
  | nil => rfl
  | cons c chars ih => simp [chars?, ih]

/-- The encoding of a text decodes to this text. -/
theorem decode?_encode (text : String) : decode? (encode text) = some text := by
  rw [decode?, marks, encode, marksFrom_flatMap, chars?_map_some, Option.map_some,
    String.ofList_toList]

theorem encode_injective : Function.Injective encode := by
  intro s t same
  have decoded := congrArg decode? same
  simpa only [decode?_encode, Option.some.injEq] using decoded

/-- Bytes that are read without a gap are the encoding of the characters read. -/
theorem eq_flatMap_of_chars (size : Nat) (bytes : Bytes) (chars : List Char)
    (small : bytes.length ≤ size) (read : chars? (marksFrom none bytes) = some chars) :
    bytes = chars.flatMap String.utf8EncodeChar := by
  induction size generalizing bytes chars with
  | zero =>
      obtain rfl := List.length_eq_zero_iff.1 (Nat.le_zero.1 small)
      obtain rfl : [] = chars := Option.some.inj read
      rfl
  | succ size ih =>
      cases bytes with
      | nil =>
          obtain rfl : [] = chars := Option.some.inj read
          rfl
      | cons b rest =>
          rw [List.length_cons] at small
          by_cases short : b < 0x80
          · rw [marksFrom_none_short rest short] at read
            obtain ⟨after, readRest, rfl⟩ := Option.map_eq_some_iff.1 read
            have number : (Char.ofNat b.toNat).toNat = b.toNat := by
              rw [toNat_ofNat]
              exact Or.inl (b.toNat_lt.trans (by decide))
            rw [List.flatMap_cons, ← ih rest after (by omega) readRest, utf8EncodeChar_short,
              number, UInt8.ofNat_toNat]
            · rfl
            · rw [number]
              exact UInt8.lt_iff_toNat_lt.1 short
          · cases opened : Pending.ofLead? b with
            | none => simp [marksFrom, step, begin, short, opened, chars?] at read
            | some p =>
                obtain ⟨due, owes, low, high⟩ := Pending.ofLead?_bounds opened
                rw [marksFrom_none_lead rest short opened] at read
                obtain ⟨point, after, chars, opens, rfl, rfl, readAfter⟩ :=
                  tail_of_chars due p rest _ owes low high read
                have lengths : after.length ≤ size := by
                  rw [List.length_append] at small
                  omega
                rw [List.flatMap_cons, ← ih after chars lengths readAfter,
                  utf8EncodeChar_ofNat point opened opens, owes, List.cons_append]

theorem decode?_eq_some_iff (bytes : Bytes) (text : String) :
    decode? bytes = some text ↔ bytes = encode text := by
  constructor
  · intro read
    obtain ⟨chars, readChars, rfl⟩ := Option.map_eq_some_iff.1 read
    rw [encode, String.toList_ofList]
    exact eq_flatMap_of_chars bytes.length bytes chars (le_refl _) readChars
  · rintro rfl
    exact decode?_encode text

theorem le_of_mem_tail {point due : Nat} {b : UInt8} (member : b ∈ tail point due) : 0x80 ≤ b := by
  induction due with
  | zero => simp [tail] at member
  | succ due ih =>
      rcases List.mem_cons.1 member with rfl | member
      · rw [UInt8.le_iff_toNat_le, toNat_continuation]
        show 0x80 ≤ _
        omega
      · exact ih member

/-- A byte of a character is its ASCII code or lies outside of ASCII. -/
theorem mem_utf8EncodeChar {c : Char} {b : UInt8} (member : b ∈ String.utf8EncodeChar c) :
    String.utf8EncodeChar c = [b] ∧ b.toNat = c.toNat ∨ 0x80 ≤ b := by
  by_cases short : c.toNat < 0x80
  · rw [utf8EncodeChar_short short, List.mem_singleton] at member
    left
    rw [utf8EncodeChar_short short, member, UInt8.toNat_ofNat']
    exact ⟨rfl, by omega⟩
  · right
    obtain ⟨due, pos, few, low, high⟩ := exists_due (not_lt.1 short)
    obtain ⟨above, below, -⟩ := leadNumber_bounds pos few low high
    rw [utf8EncodeChar_long pos low high] at member
    rcases List.mem_cons.1 member with rfl | member
    · rw [UInt8.le_iff_toNat_le, UInt8.toNat_ofNat']
      show 0x80 ≤ _
      omega
    · exact le_of_mem_tail member

/-- Bytes cut at an ASCII byte are texts on both sides if they are a text together. -/
theorem exists_encode_of_cut {before after : Bytes} {b : UInt8} {chars : List Char}
    (small : b < 0x80) (whole : before ++ b :: after = chars.flatMap String.utf8EncodeChar) :
    (∃ text, before = encode text) ∧ ∃ text, after = encode text := by
  induction chars generalizing before with
  | nil => simp at whole
  | cons c chars ih =>
      rw [List.flatMap_cons] at whole
      rcases List.append_eq_append_iff.1 whole with ⟨inner, encoded, rest⟩ | ⟨inner, rfl, rest⟩
      · cases inner with
        | nil =>
            have rest' : [] ++ b :: after = chars.flatMap String.utf8EncodeChar := rest
            obtain ⟨-, tailText⟩ := ih rest'
            rw [List.append_nil] at encoded
            refine ⟨⟨String.ofList [c], ?_⟩, tailText⟩
            simp [encode, encoded]
        | cons x inner =>
            obtain ⟨rfl, rfl⟩ := List.cons.inj rest
            have member : b ∈ String.utf8EncodeChar c := by
              rw [encoded]
              simp
            rcases mem_utf8EncodeChar member with ⟨single, -⟩ | large
            · rw [single] at encoded
              obtain ⟨rfl, same⟩ :=
                (List.append_eq_cons_iff.1 encoded.symm).resolve_right (by simp)
              obtain ⟨-, rfl⟩ := List.cons.inj same
              exact ⟨⟨"", rfl⟩, String.ofList chars, by simp [encode]⟩
            · exact absurd small (UInt8.not_lt.2 large)
      · obtain ⟨⟨text, rfl⟩, tailText⟩ := ih rest.symm
        refine ⟨⟨String.ofList (c :: text.toList), ?_⟩, tailText⟩
        simp [encode]

end WasmBuild.Utf8
