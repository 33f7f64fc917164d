import Mathlib.Data.List.DropRight
import WasmBuild.Proofs.Manifest.UnknownKeys
import WasmBuild.Proofs.Text.Lines
import WasmBuild.Proofs.Toml.Standing

/-!
# The lines that warnings name

A warning names the first line on which the text of its key occurs anywhere: in a longer word, in a
value or in a comment just as well as in a key. So for a key that is written without quotes there
always is such a line, it is never below the one on which the key stands, and it is that line
exactly if the text of the key occurs on no line above.
-/
namespace WasmBuild.Manifest

theorem occursIn_iff {word line : List Char} : occursIn word line = true ↔ word <:+: line := by
  induction line with
  | nil => simp [occursIn]
  | cons c rest ih =>
      rw [occursIn, Bool.or_eq_true, List.isPrefixOf_iff_prefix, ih, List.infix_cons_iff]

/-- Whether a word occurs on the line of a number. -/
def OccursOn (text : List Char) (word : String) (number : Nat) : Prop :=
  ∃ line, (Text.lines text)[number - 1]? = some line ∧ word.toList <:+: line

/-- Whether a word occurs above the line of a number. -/
def OccursAbove (text : List Char) (word : String) (number : Nat) : Prop :=
  ∃ line ∈ (Text.lines text).take (number - 1), word.toList <:+: line

instance (text : List Char) (word : String) (number : Nat) :
    Decidable (OccursAbove text word number) :=
  inferInstanceAs (Decidable (∃ line ∈ _, _))

section Lines

variable {text : List Char} {word : String} {n : Nat}

/-- The line that is found for a word is the first one on which it occurs. -/
theorem lineOf?_eq_some_iff :
    lineOf? text word = some (n + 1) ↔
      OccursOn text word (n + 1) ∧ ¬ OccursAbove text word (n + 1) := by
  simp only [lineOf?, Option.map_eq_some_iff, Nat.add_right_cancel_iff, exists_eq_right,
    List.findIdx?_eq_some_iff_getElem, occursIn_iff, OccursOn, OccursAbove, not_exists, not_and,
    Nat.add_sub_cancel]
  constructor
  · rintro ⟨small, held, before⟩
    refine ⟨⟨_, List.getElem?_eq_getElem small, held⟩, fun earlier member inside => ?_⟩
    obtain ⟨i, less, rfl⟩ := List.mem_take_iff_getElem.1 member
    exact before i (by omega) inside
  · rintro ⟨⟨line, found, held⟩, before⟩
    obtain ⟨small, rfl⟩ := List.getElem?_eq_some_iff.1 found
    refine ⟨small, held, fun i less inside => ?_⟩
    exact before _ (List.mem_take_iff_getElem.2 ⟨i, by omega, rfl⟩) inside

/-- A word that occurs on a line is found, on that line or above it. -/
theorem exists_lineOf? (occurs : OccursOn text word (n + 1)) :
    ∃ first ≤ n, lineOf? text word = some (first + 1) := by
  obtain ⟨line, found, inside⟩ := occurs
  obtain ⟨small, rfl⟩ := List.getElem?_eq_some_iff.1 found
  have someLine : (lineOf? text word).isSome = true := by
    rw [lineOf?, Option.isSome_map, List.findIdx?_isSome, List.any_eq_true]
    exact ⟨_, List.mem_of_getElem? found, occursIn_iff.2 inside⟩
  obtain ⟨number, found⟩ := Option.isSome_iff_exists.1 someLine
  obtain ⟨first, -, rfl⟩ := Option.map_eq_some_iff.1 found
  refine ⟨first, ?_, found⟩
  by_contra below
  refine (lineOf?_eq_some_iff.1 found).2 ⟨_, ?_, inside⟩
  exact List.mem_take_iff_getElem.2 ⟨n, by omega, rfl⟩

end Lines

/-- The number of the line on which something at an index of a text stands. -/
def lineAt (text : List Char) (index : Nat) : Nat := (positionOf text index).line + 1

/-- What stands at a place without line ends occurs on the line of the place. -/
theorem occursOn_lineAt {text : List Char} {span : Toml.Span} {word : String}
    (slice : span.slice text = word.toList) (notEmpty : word.toList ≠ [])
    (single : '\n' ∉ word.toList) (noReturn : '\r' ∉ word.toList) :
    OccursOn text word (lineAt text span.start) := by
  have split : text.take span.start ++
      (word.toList ++ (text.drop span.start).drop (span.stop - span.start)) = text := by
    rw [← slice, Toml.Span.slice, List.take_append_drop, List.take_append_drop]
  obtain ⟨line, found, inside⟩ := Text.exists_line_of_word (text.take span.start) notEmpty single
    noReturn ((text.drop span.start).drop (span.stop - span.start))
  rw [split] at found
  exact ⟨line, found, inside⟩

theorem afterLastDot_eq_self {name : String} (noDot : '.' ∉ name.toList) :
    afterLastDot name = name := by
  have all : name.toList.rtakeWhile (· ≠ '.') = name.toList := by
    refine List.rtakeWhile_eq_self_iff.2 fun c member => ?_
    simpa using ne_of_mem_of_not_mem member noDot
  rw [afterLastDot, ← List.rtakeWhile, all, String.ofList_toList]

/-- The warnings of a text that loads are those about its unknown keys, in their order. If such a
key is written without quotes, its warning bears the whole name of the key, the name is written at
the place of the key, and the warning names the first line on which the name occurs. This line is
never below the one of the key, and it is the one of the key exactly if the name does not occur
above. -/
theorem warning_line_iff {file : Path} {text : String} {loaded : Loaded}
    (loads : ofText file text = .ok loaded) :
    ∃ entries, Toml.parse? text.toList = some entries ∧
      loaded.warnings = (unknownKeys entries).map (warningOf file text.toList) ∧
      ∀ unknown ∈ unknownKeys entries, ∀ span, unknown.span? = some span →
        span.IsBare text.toList →
        let warning := warningOf file text.toList unknown
        let line := lineAt text.toList span.start
        warning.key = unknown.name ∧ span.slice text.toList = unknown.name.toList ∧
        (∃ first ≤ line, warning.line = some first ∧ OccursOn text.toList unknown.name first ∧
          ¬ OccursAbove text.toList unknown.name first) ∧
        (warning.line = some line ↔ ¬ OccursAbove text.toList unknown.name line) := by
  obtain ⟨entries, document, warnings⟩ := warnings_of_ofText loads
  refine ⟨entries, document, warnings, fun unknown member span place bare => ?_⟩
  intro warning line
  obtain ⟨key, stands, rfl⟩ :=
    isOf_of_mem_unknownKeys (Toml.parse?_keyed document) member span place
  obtain rfl : key.span = span := Option.some.inj place
  have slice : key.span.slice text.toList = key.name.toList := stands.slice_eq bare
  obtain ⟨notEmpty, bare⟩ := bare
  rw [slice] at notEmpty bare
  -- Without a dot the warning keeps the whole name; without a line end the name lies on one line.
  have without (c : Char) (other : Toml.isBareKeyChar c = false) : c ∉ key.name.toList := by
    intro member
    rw [bare c member] at other
    contradiction
  have named : warning.key = key.name := afterLastDot_eq_self (without '.' (by decide))
  have found : warning.line = lineOf? text.toList key.name := congrArg (lineOf? text.toList) named
  have occurs : OccursOn text.toList key.name line :=
    occursOn_lineAt slice notEmpty (without '\n' (by decide)) (without '\r' (by decide))
  obtain ⟨first, above, isFirst⟩ := exists_lineOf? occurs
  rw [found]
  refine ⟨named, slice, ⟨first + 1, Nat.succ_le_succ above, isFirst, ?_⟩, ?_⟩
  · exact lineOf?_eq_some_iff.1 isFirst
  · exact lineOf?_eq_some_iff.trans (and_iff_right occurs)

/-- A manifest whose two projects misspell the same key. -/
def twiceMisspelled : String :=
  "[[project]]\nname = \"t\"\nsubdir = \"c\"\n\n[[project]]\nname = \"u\"\nsubdir = \"c\"\n"

def firstMisspelled : UnknownKey := ⟨"subdir", some ⟨23, 29⟩⟩

def secondMisspelled : UnknownKey := ⟨"subdir", some ⟨60, 66⟩⟩

def loadedMisspelled : Loaded where
  manifest := { blank with projects := [⟨"t", ⟨[]⟩, none⟩, ⟨"u", ⟨[]⟩, none⟩] }
  warnings := List.replicate 2 ⟨"subdir", defaultPath, some 3, some "sub_dir"⟩

theorem ofText_twiceMisspelled : ofText defaultPath twiceMisspelled = .ok loadedMisspelled := by
  rfl

theorem unknownKeys_twiceMisspelled :
    (Toml.parse? twiceMisspelled.toList).map unknownKeys =
      some [firstMisspelled, secondMisspelled] := by
  decide +kernel

theorem warning_line_iff_first_misspelled :
    ofText defaultPath twiceMisspelled = .ok loadedMisspelled ∧
      (warningOf defaultPath twiceMisspelled.toList firstMisspelled).line =
        some (lineAt twiceMisspelled.toList 23) := by
  refine ⟨ofText_twiceMisspelled, ?_⟩
  obtain ⟨entries, document, -, each⟩ := warning_line_iff ofText_twiceMisspelled
  have unknown := unknownKeys_twiceMisspelled
  rw [document, Option.map_some, Option.some.injEq] at unknown
  have member : firstMisspelled ∈ unknownKeys entries := unknown ▸ List.mem_cons_self
  have bare : Toml.Span.IsBare ⟨23, 29⟩ twiceMisspelled.toList := by decide +kernel
  obtain ⟨-, -, -, onItsLine⟩ := each firstMisspelled member ⟨23, 29⟩ rfl bare
  exact onItsLine.2 (by decide +kernel)

/-- The two keys stand on lines 3 and 7, but both warnings name line 3. -/
theorem second_misspelled_warned_on_first_line :
    ofText defaultPath twiceMisspelled = .ok loadedMisspelled ∧
    loadedMisspelled.warnings.map Warning.line = [some 3, some 3] ∧
    (Toml.parse? twiceMisspelled.toList).map unknownKeys =
      some [firstMisspelled, secondMisspelled] ∧
    Toml.Span.IsBare ⟨60, 66⟩ twiceMisspelled.toList ∧
    [23, 60].map (lineAt twiceMisspelled.toList) = [3, 7] := by
  refine ⟨ofText_twiceMisspelled, rfl, unknownKeys_twiceMisspelled, ?_, ?_⟩ <;> decide +kernel

end WasmBuild.Manifest
