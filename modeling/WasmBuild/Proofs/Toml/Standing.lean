import WasmBuild.Proofs.Toml.Ends
import WasmBuild.Proofs.Toml.Keyed
import WasmBuild.Toml.Document

/-!
# Where the keys of a document stand

Every key of a document that is read stands in its text: at the place that the key remembers,
reading a key gives this key. The readers of keys, values and lines are followed once, together with
the fact that they go on at an end of the text.
-/
namespace WasmBuild.Toml

/-- A key stands in a text: reading a key at some end of the text gives it. -/
def Key.StandsIn (text : List Char) (key : Key) : Prop :=
  ∃ here after, here <:+ text ∧ keyPart text.length here = some (key, after)

theorem Node.Keyed.placed {kind : Key → Prop} {node : Node} (keyed : node.Keyed kind)
    (span : Span) :
    (node.placed span).Keyed kind := by
  cases keyed with
  | table kinds inside distinct => exact .table kinds inside distinct
  | string | integer | float | boolean | dateTime => constructor
  | array inside => exact .array inside
  | tables inside => exact .tables inside

/-- What is read somewhere in a text is good, and an end of the text is left. -/
def Yields {α : Type} (text : List Char) (good : α → Prop) (read : Option (α × List Char)) : Prop :=
  ∀ a rest, read = some (a, rest) → good a ∧ rest <:+ text

namespace Yields

variable {α β : Type} {text : List Char} {good : α → Prop} {fine : β → Prop}
  {read : Option (α × List Char)}

theorem none (good : α → Prop) : Yields text good none := nofun

theorem some {a : α} {rest : List Char} (isGood : good a) (inside : rest <:+ text) :
    Yields text good (some (a, rest)) := by
  rintro _ _ ⟨⟩
  exact ⟨isGood, inside⟩

theorem bind {next : α × List Char → Option (β × List Char)} (first : Yields text good read)
    (others : ∀ a rest, good a → rest <:+ text → Yields text fine (next (a, rest))) :
    Yields text fine (read.bind next) := by
  intro b after found
  obtain ⟨⟨a, rest⟩, found, next⟩ := Option.bind_eq_some_iff.1 found
  obtain ⟨isGood, inside⟩ := first a rest found
  exact others a rest isGood inside b after next

theorem bindOption {γ : Type} {o : Option γ} {next : γ → Option (β × List Char)}
    (others : ∀ c, o = Option.some c → Yields text fine (next c)) :
    Yields text fine (o.bind next) := by
  cases o with
  | none => exact none fine
  | some c => exact others c rfl

theorem bindEnds {here : List Char} {remains : Option (List Char)}
    {next : List Char → Option (β × List Char)} (inside : here <:+ text)
    (first : Ends here remains) (others : ∀ rest, rest <:+ text → Yields text fine (next rest)) :
    Yields text fine (remains.bind next) := by
  intro b after found
  obtain ⟨rest, found, next⟩ := Option.bind_eq_some_iff.1 found
  exact others rest ((first rest found).trans inside) b after next

theorem map {f : α × List Char → β × List Char} (same : ∀ p, (f p).2 = p.2)
    (first : Yields text good read) (isFine : ∀ p, good p.1 → fine (f p).1) :
    Yields text fine (read.map f) := by
  intro b after found
  obtain ⟨⟨a, rest⟩, found, changed⟩ := Option.map_eq_some_iff.1 found
  obtain ⟨isGood, inside⟩ := first a rest found
  have whole := isFine (a, rest) isGood
  have left : after = rest := (congrArg Prod.snd changed).symm.trans (same (a, rest))
  rw [changed] at whole
  rw [left]
  exact ⟨whole, inside⟩

theorem ofOption {γ : Type} {o : Option γ} {f : γ → α × List Char}
    (each : ∀ c, o = Option.some c → good (f c).1 ∧ (f c).2 <:+ text) :
    Yields text good (o.map f) := by
  intro a rest found
  obtain ⟨c, held, made⟩ := Option.map_eq_some_iff.1 found
  have whole := each c held
  rwa [made] at whole

theorem ofEnds {here : List Char} (inside : here <:+ text) (left : Ends here (left read)) :
    Yields text (fun _ : α => True) read := by
  intro a rest found
  exact ⟨trivial, (left rest (by rw [found, left_some])).trans inside⟩

end Yields

variable {text here : List Char}

theorem keyPart_yields (inside : here <:+ text) :
    Yields text (Key.StandsIn text) (keyPart text.length here) := by
  intro key rest found
  have left := ends_keyPart here text.length rest (by rw [found, left_some])
  exact ⟨⟨here, rest, inside, found⟩, left.trans inside⟩

theorem keyParts_yields (count : Nat) (inside : here <:+ text) :
    Yields text (fun keys => ∀ key ∈ keys, key.StandsIn text)
      (keyParts text.length count here) := by
  induction count generalizing here with
  | zero => exact .none _
  | succ count ih =>
      have first := keyPart_yields ((skipGap_suffix here).trans inside)
      refine first.bind fun key rest stands left => ?_
      have next : skipGap rest <:+ text := (skipGap_suffix rest).trans left
      dsimp only
      split
      · next after same =>
          have beyond : after <:+ text := (List.suffix_cons '.' after).trans (same ▸ next)
          refine .map (fun _ => rfl) (ih beyond) fun p others => ?_
          exact List.forall_mem_cons.2 ⟨stands, others⟩
      · exact .some (List.forall_mem_singleton.2 stands) next

/-- Every part of a dotted key stands in a text. -/
def DottedKey.StandsIn (text : List Char) (key : DottedKey) : Prop :=
  (∀ part ∈ key.path, part.StandsIn text) ∧ key.key.StandsIn text

theorem dottedKey_yields (inside : here <:+ text) :
    Yields text (DottedKey.StandsIn text) (dottedKey text.length here) := by
  refine .bind (keyParts_yields _ inside) fun parts rest stand left => ?_
  refine .ofOption fun last ends => ⟨⟨fun part member => ?_, ?_⟩, left⟩
  · exact stand part (List.dropLast_subset _ member)
  · exact stand last (List.mem_of_getLast? ends)

/-- The keys in a value stand in a text and are distinct in every table. -/
abbrev Node.StandsIn (text : List Char) (node : Node) : Prop := node.Keyed (Key.StandsIn text)

/-- A reader of values whose keys stand in a text, wherever in that text it begins. -/
def ReadsStanding (text : List Char) (item : Reader Node) : Prop :=
  ∀ ⦃here⦄, here <:+ text → Yields text (Node.StandsIn text) (item here)

section Values

variable {item : Reader Node}

theorem arrayItems_yields (inner : ReadsStanding text item) (count : Nat)
    (inside : here <:+ text) :
    Yields text (fun nodes => ∀ node ∈ nodes, node.StandsIn text) (arrayItems item count here) := by
  induction count generalizing here with
  | zero => exact .none _
  | succ count ih =>
      refine .bindEnds inside (ends_skipLines? here false) fun rest left => ?_
      dsimp only
      split
      · exact .some (by simp) ((List.suffix_cons _ _).trans left)
      · refine .bind (inner left) fun node rest stands left => ?_
        refine .bindEnds left (ends_skipLines? rest false) fun rest left => ?_
        dsimp only
        split
        · exact .some (List.forall_mem_singleton.2 stands) ((List.suffix_cons _ _).trans left)
        · refine .map (fun _ => rfl) (ih ((List.suffix_cons _ _).trans left)) fun p others => ?_
          exact List.forall_mem_cons.2 ⟨stands, others⟩
        · exact .none _

theorem keyValue_yields (inner : ReadsStanding text item) (inside : here <:+ text) :
    Yields text (fun pair => pair.1.StandsIn text ∧ pair.2.StandsIn text)
      (keyValue text.length item here) := by
  refine .bind (dottedKey_yields inside) fun key rest stands left => ?_
  dsimp only
  split
  · next after =>
      have beyond := (skipGap_suffix after).trans ((List.suffix_cons _ _).trans left)
      refine .ofOption fun ⟨node, rest⟩ read => ?_
      obtain ⟨value, left⟩ := inner beyond node rest read
      exact ⟨⟨stands, value⟩, (skipGap_suffix rest).trans left⟩
  · exact .none _

theorem braceEntries_yields (inner : ReadsStanding text item) (count : Nat) {table : Node}
    (stands : table.StandsIn text) (inside : here <:+ text) :
    Yields text (Node.StandsIn text) (braceEntries text.length item count table here) := by
  induction count generalizing here table with
  | zero => exact .none _
  | succ count ih =>
      refine .bind (keyValue_yields inner inside) fun pair rest good left => ?_
      obtain ⟨⟨path, key⟩, value⟩ := good
      refine .bindOption fun grown added => ?_
      have wider := keyed_of_insertAt stands path key value added
      split
      · exact .some wider ((List.suffix_cons _ _).trans left)
      · exact ih wider ((List.suffix_cons _ _).trans left)
      · exact .none _

theorem braceTable_yields (inner : ReadsStanding text item) (inside : here <:+ text) :
    Yields text (Node.StandsIn text) (braceTable text.length item here) := by
  have start := (skipGap_suffix here).trans inside
  have empty : (Node.table none .braces []).StandsIn text := Node.keyed_table_iff.2 .nil
  unfold braceTable
  dsimp only
  split
  · next rest same => exact .some empty ((List.suffix_cons _ _).trans (same ▸ start))
  · exact braceEntries_yields inner _ empty start

end Values

theorem Number.toNode_standsIn (span : Span) (n : Number) : (n.toNode span).StandsIn text := by
  cases n with
  | integer value => exact .integer span value
  | float value => exact .float span value

theorem plainValue_yields (inside : here <:+ text) :
    Yields text (Node.StandsIn text) (plainValue text.length here) := by
  unfold plainValue
  split
  · next rest =>
      exact .some (.boolean _ _) ((List.suffix_append ['t', 'r', 'u', 'e'] rest).trans inside)
  · next rest =>
      exact .some (.boolean _ _) ((List.suffix_append ['f', 'a', 'l', 's', 'e'] rest).trans inside)
  · split
    · exact .map (fun _ => rfl) (.ofEnds inside (ends_anyString _)) fun _ _ => .string _ _
    · split
      · next rest read => exact .some (.dateTime _) ((ends_dateTime? _ rest read).trans inside)
      · refine .map (fun _ => rfl) (.ofEnds inside (ends_number _)) fun p _ => ?_
        exact Number.toNode_standsIn _ p.1
  · exact .none _

/-- The keys in a value of any depth stand in the text that it is read from. -/
theorem value_yields (depth : Nat) (inside : here <:+ text) :
    Yields text (Node.StandsIn text) (value text.length depth here) := by
  induction depth generalizing here with
  | zero =>
      unfold value
      split
      · exact .none _
      · exact .none _
      · exact plainValue_yields inside
  | succ depth ih =>
      unfold value
      split
      · next rest =>
          have beyond : rest <:+ text := (List.suffix_cons _ _).trans inside
          refine .map (fun _ => rfl) (arrayItems_yields (fun _ => ih) _ beyond) fun p stand => ?_
          exact .array stand
      · next rest =>
          have beyond : rest <:+ text := (List.suffix_cons _ _).trans inside
          refine .map (fun _ => rfl) (braceTable_yields (fun _ => ih) beyond) fun p stands => ?_
          exact Node.Keyed.placed stands _
      · exact plainValue_yields inside

/-! ### Lines -/

theorem header_yields (isItem : Bool) (inside : here <:+ text) :
    Yields text (DottedKey.StandsIn text) (header text.length isItem here) := by
  refine .bind (dottedKey_yields inside) fun key rest stands left => ?_
  dsimp only
  split
  · next after => exact .some stands ((List.suffix_append [']', ']'] after).trans left)
  · exact .some stands ((List.suffix_cons _ _).trans left)
  · exact .none _

/-- The keys of what was read, and those of the open header, stand in a text. -/
abbrev Reading.StandsIn (text : List Char) (reading : Reading) : Prop :=
  reading.Keyed (Key.StandsIn text)

variable {reading : Reading}

theorem readHeader_yields (stands : reading.StandsIn text) (inside : here <:+ text) :
    Yields text (Reading.StandsIn text) (readHeader text.length reading here) := by
  unfold readHeader
  split
  · next rest =>
      have beyond := (List.suffix_append ['[', '['] rest).trans inside
      refine .bind (header_yields true beyond) fun key after named left => ?_
      refine .bindEnds left (ends_finishLine? after) fun next left => ?_
      exact .ofOption fun _ read => ⟨stands.openItem named.1 named.2 read, left⟩
  · next rest _ =>
      have beyond := (List.suffix_cons '[' rest).trans inside
      refine .bind (header_yields false beyond) fun key after named left => ?_
      refine .bindEnds left (ends_finishLine? after) fun next left => ?_
      exact .ofOption fun _ read => ⟨stands.openTable named.1 named.2 read, left⟩
  · exact .none _

theorem readPair_yields (stands : reading.StandsIn text) (inside : here <:+ text) :
    Yields text (Reading.StandsIn text) (readPair text.length reading here) := by
  refine .bind (keyValue_yields (fun _ => value_yields _) inside) fun pair rest good left => ?_
  refine .bindEnds left (ends_finishLine? rest) fun next left => ?_
  exact .ofOption fun _ read => ⟨stands.insert good.1.1 good.1.2 good.2 read, left⟩

theorem readLine_yields (stands : reading.StandsIn text) (inside : here <:+ text) :
    Yields text (Reading.StandsIn text) (readLine text.length reading here) := by
  have start := (skipGap_suffix here).trans inside
  unfold readLine
  split
  · exact .some stands List.nil_suffix
  · next c rest same =>
      rw [same] at start
      split
      · exact .ofOption fun after finished =>
          ⟨stands, (ends_finishLine? _ after finished).trans start⟩
      · split
        · exact readHeader_yields stands start
        · exact readPair_yields stands start

/-- Reading lines to the end of a text, all keys stand in it. -/
theorem readLines_standsIn (count : Nat) {result : Reading} (stands : reading.StandsIn text)
    (inside : here <:+ text) (read : readLines text.length count reading here = some result) :
    result.StandsIn text := by
  induction count generalizing here reading with
  | zero =>
      cases here with
      | nil => exact Option.some.inj read ▸ stands
      | cons c rest => contradiction
  | succ count ih =>
      cases here with
      | nil => exact Option.some.inj read ▸ stands
      | cons c rest =>
          obtain ⟨⟨next, after⟩, line, read⟩ := Option.bind_eq_some_iff.1 read
          obtain ⟨stands, left⟩ := readLine_yields stands inside next after line
          exact ih stands left read

theorem skipMark_suffix (text : List Char) : skipMark text <:+ text := by
  unfold skipMark
  split
  · exact List.suffix_cons _ _
  · exact List.suffix_refl _

/-- The keys of a document are distinct in every table and stand in its text. -/
theorem parse?_keyed {entries : Entries} (read : parse? text = some entries) :
    entries.Keyed (Key.StandsIn text) := by
  unfold parse? at read
  split at read
  · next span? form entries' closed =>
      obtain rfl := Option.some.inj read
      obtain ⟨reading, lines, closed⟩ := Option.bind_eq_some_iff.1 closed
      have stands := readLines_standsIn _ Reading.keyed_start (skipMark_suffix text) lines
      exact Node.keyed_table_iff.1 (stands.close closed)
  · contradiction

/-! ### Keys without quotes -/

/-- The characters at a place in a text. -/
def Span.slice (span : Span) (text : List Char) : List Char :=
  (text.drop span.start).take (span.stop - span.start)

/-- Whether what stands at a place is a key without quotes. -/
def Span.IsBare (span : Span) (text : List Char) : Prop :=
  span.slice text ≠ [] ∧ ∀ c ∈ span.slice text, isBareKeyChar c = true

instance (span : Span) (text : List Char) : Decidable (span.IsBare text) :=
  @instDecidableAnd _ _ inferInstance (List.decidableBAll _ _)

theorem slice_spanBetween {before rest : List Char} (text : List Char)
    (inside : rest <:+ before) (whole : before <:+ text) :
    (spanBetween text.length before rest).slice text =
      before.take (before.length - rest.length) := by
  obtain ⟨front, rfl⟩ := whole
  have small := inside.length_le
  simp only [Span.slice, spanBetween, List.length_append]
  rw [show front.length + before.length - before.length = front.length by omega,
    show front.length + before.length - rest.length - front.length =
      before.length - rest.length by omega, List.drop_left]

/-- A part of a key is quoted, or its name is what stands there up to the first character that is no
part of it. -/
theorem keyPart_eq_some {total : Nat} {key : Key} {after : List Char}
    (read : keyPart total here = some (key, after)) :
    key.span = spanBetween total here after ∧
      ((∃ quote rest, here = quote :: rest ∧ isBareKeyChar quote = false) ∨
        key.name.toList = here.takeWhile isBareKeyChar ∧
          after = here.dropWhile isBareKeyChar) := by
  unfold keyPart at read
  split at read
  · contradiction
  · next c rest =>
      split at read
      · next quote =>
          obtain ⟨⟨name, left⟩, -, made⟩ := Option.map_eq_some_iff.1 read
          obtain ⟨rfl, rfl⟩ := Prod.mk.inj made
          refine ⟨rfl, .inl ⟨c, rest, rfl, ?_⟩⟩
          rcases quote with rfl | rfl <;> decide
      · split at read
        · obtain ⟨rfl, rfl⟩ := Prod.mk.inj (Option.some.inj read)
          exact ⟨rfl, .inr ⟨String.toList_ofList, rfl⟩⟩
        · contradiction

/-- Where a key is written without quotes, its name is what stands there. -/
theorem Key.StandsIn.slice_eq {key : Key} (stands : key.StandsIn text)
    (bare : key.span.IsBare text) : key.span.slice text = key.name.toList := by
  obtain ⟨here, after, whole, read⟩ := stands
  have inside := ends_keyPart here text.length after (by rw [read, left_some])
  obtain ⟨notEmpty, bare⟩ := bare
  obtain ⟨place, quoted | ⟨name, rest⟩⟩ := keyPart_eq_some read
  -- A quoted part begins with its quote, which no key without quotes holds.
  · obtain ⟨quote, rest, rfl, notBare⟩ := quoted
    rw [place, slice_spanBetween text inside whole] at notEmpty bare
    obtain ⟨c, more, taken⟩ := List.exists_cons_of_ne_nil notEmpty
    have first : c = quote := by
      have head := congrArg List.head? taken
      rw [List.head?_take] at head
      split at head
      · simp at head
      · simpa using head.symm
    have bareQuote := bare c (taken ▸ List.mem_cons_self)
    rw [first, notBare] at bareQuote
    contradiction
  · rw [place, slice_spanBetween text inside whole, name, rest]
    have split := List.takeWhile_append_dropWhile (p := isBareKeyChar) (l := here)
    have length := congrArg List.length split
    rw [List.length_append] at length
    rw [show here.length - (here.dropWhile isBareKeyChar).length =
      (here.takeWhile isBareKeyChar).length by omega]
    exact List.prefix_iff_eq_take.1 (List.takeWhile_prefix _) |>.symm

end WasmBuild.Toml
