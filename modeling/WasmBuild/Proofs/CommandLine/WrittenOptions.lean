import WasmBuild.CommandLine.Parser

/-!
# Options as they are written

Every way in which an option can stand on a command line, complete with its value, and the things it
says. Reading an option and then settling comes to settling first and then taking in what the option
says, so a line of options, a command and more options makes the request that the two groups of
options make together.
-/
namespace WasmBuild.CommandLine

def Setting.longName : Setting → String
  | manifest => "manifest"
  | project => "project"

def Setting.letter : Setting → UInt8
  | manifest => 0x6D
  | project => 0x70

def verboseLetter : UInt8 := 0x76

/-- Whether an argument does not look like an option. A lone hyphen does not. -/
def IsPlain (arg : Bytes) : Prop := arg.head? = some hyphen → arg = [hyphen]

instance (arg : Bytes) : Decidable (IsPlain arg) := inferInstanceAs (Decidable (_ → _))

/-- An option with its value, in each of its forms: `--json`, `--verbose`, `-vv`, `--project=name`,
`--project name`, `-vpname` (an equals sign before the name is skipped) and `-vp name`. The letter
of an option with a value may stand behind letters `v`. -/
inductive WrittenOption where
  | json
  | verbose
  | letters (more : Nat)
  | attached (setting : Setting) (value : Bytes)
  | separate (setting : Setting) (value : Bytes) (plain : IsPlain value)
  | lettersAttached (verboses : Nat) (setting : Setting) (first : UInt8) (rest : Bytes)
  | lettersSeparate (verboses : Nat) (setting : Setting) (value : Bytes) (plain : IsPlain value)
  deriving DecidableEq

/-- One thing that an option says. -/
inductive Saying where
  | json
  | verbose
  | value (setting : Setting) (value : Bytes)
  deriving Repr, DecidableEq

namespace WrittenOption

/-- The arguments of an option. -/
def args : WrittenOption → List Bytes
  | json => [Utf8.encode "--json"]
  | verbose => [Utf8.encode "--verbose"]
  | letters more => [hyphen :: List.replicate (more + 1) verboseLetter]
  | attached setting value => [Utf8.encode ("--" ++ setting.longName ++ "=") ++ value]
  | separate setting value _ => [Utf8.encode ("--" ++ setting.longName), value]
  | lettersAttached verboses setting first rest =>
    [hyphen :: (List.replicate verboses verboseLetter ++ setting.letter :: first :: rest)]
  | lettersSeparate verboses setting value _ =>
    [hyphen :: (List.replicate verboses verboseLetter ++ [setting.letter]), value]

def sayings : WrittenOption → List Saying
  | json => [.json]
  | verbose => [.verbose]
  | letters more => List.replicate (more + 1) .verbose
  | attached setting value | separate setting value _ => [.value setting value]
  | lettersAttached verboses setting first rest =>
    List.replicate verboses .verbose ++
      [.value setting (if first = equalsSign then rest else first :: rest)]
  | lettersSeparate verboses setting value _ =>
    List.replicate verboses .verbose ++ [.value setting value]

end WrittenOption

/-- The arguments of options, one after the other. -/
def argsOf (options : List WrittenOption) : List Bytes := options.flatMap WrittenOption.args

/-- What options say, one after the other. -/
def sayingsOf (options : List WrittenOption) : List Saying := options.flatMap WrittenOption.sayings

def Command.arg (command : Command) : Bytes := Utf8.encode command.name

def Given.say (given : Given) : Saying → Except Stop Given
  | .json => given.addFlag .before .json
  | .verbose => given.addFlag .before .verbose
  | .value setting value => given.addSetting setting value

/-- Taking in sayings one after the other. -/
def Given.sayAll (given : Given) (sayings : List Saying) : Except Stop Given :=
  sayings.foldlM Given.say given

@[simp] theorem Given.sayAll_singleton (given : Given) (saying : Saying) :
    given.sayAll [saying] = given.say saying := by
  rw [sayAll, List.foldlM_cons]
  exact bind_pure _

theorem Given.sayAll_append (given : Given) (sayings more : List Saying) :
    given.sayAll (sayings ++ more) = given.sayAll sayings >>= fun next => next.sayAll more :=
  List.foldlM_append

/-- Reads the letter `v` a number of times. -/
def Level.readVerboses (level : Level) : Nat → Except Stop Level
  | 0 => .ok level
  | n + 1 => level.readFlag .before .verbose >>= fun next => next.readVerboses n

def WrittenOption.read (level : Level) : WrittenOption → Except Stop Level
  | json => level.readFlag .before .json
  | verbose => level.readFlag .before .verbose
  | letters more => level.readVerboses (more + 1)
  | attached setting value => level.readSetting setting (some value)
  | separate setting value _ => (level.readSetting setting none).map (·.supply value)
  | lettersAttached verboses setting first rest =>
    level.readVerboses verboses >>= fun next =>
      next.readSetting setting (some (if first = equalsSign then rest else first :: rest))
  | lettersSeparate verboses setting value _ =>
    level.readVerboses verboses >>= fun next =>
      (next.readSetting setting none).map (·.supply value)

section Settling

variable (level : Level)

theorem readFlag_settle (flag : Flag) :
    (level.readFlag .before flag >>= Level.settle) =
      level.settle >>= fun given => given.addFlag .before flag := by
  unfold Level.readFlag
  cases level.settle with
  | error stop => rfl
  | ok given =>
      cases added : given.addFlag .before flag <;> simp [added, bind, Except.bind, Level.settle]

theorem readSetting_settle (setting : Setting) (value : Bytes) :
    (level.readSetting setting (some value) >>= Level.settle) =
      level.settle >>= fun given => given.addSetting setting value := by
  unfold Level.readSetting
  cases level.settle with
  | error stop => rfl
  | ok given =>
      cases added : given.addSetting setting value <;>
        simp [added, bind, Except.bind, Level.settle]

/-- A value in an argument of its own is settled like an attached one. -/
theorem readSetting_supply_settle (setting : Setting) (value : Bytes) :
    ((level.readSetting setting none).map (·.supply value) >>= Level.settle) =
      level.settle >>= fun given => given.addSetting setting value := by
  unfold Level.readSetting
  cases level.settle with
  | error stop => rfl
  | ok given => rfl

theorem readVerboses_settle (count : Nat) :
    (level.readVerboses count >>= Level.settle) =
      level.settle >>= fun given => given.sayAll (List.replicate count .verbose) := by
  induction count generalizing level with
  | zero => exact (bind_pure _).symm
  | succ count ih =>
      have first (given : Given) : given.sayAll (List.replicate (count + 1) .verbose) =
          given.addFlag .before .verbose >>= fun next =>
            next.sayAll (List.replicate count .verbose) :=
        List.foldlM_cons
      simp only [Level.readVerboses, bind_assoc, ih, first]
      rw [← bind_assoc, readFlag_settle, bind_assoc]

/-- Reading an option and settling comes to settling and taking in what the option says. -/
theorem WrittenOption.read_settle (option : WrittenOption) :
    (option.read level >>= Level.settle) =
      level.settle >>= fun given => given.sayAll option.sayings := by
  have afterVerboses (verboses : Nat) (setting : Setting) (value : Bytes) :
      ((level.readVerboses verboses >>= Level.settle) >>= fun given =>
        given.addSetting setting value) =
      level.settle >>= fun given =>
        given.sayAll (List.replicate verboses .verbose ++ [.value setting value]) := by
    simp only [readVerboses_settle, bind_assoc, Given.sayAll_append, Given.sayAll_singleton,
      Given.say]
  cases option with
  | json => simp only [read, readFlag_settle, sayings, Given.sayAll_singleton, Given.say]
  | verbose => simp only [read, readFlag_settle, sayings, Given.sayAll_singleton, Given.say]
  | letters more => exact readVerboses_settle level (more + 1)
  | attached setting value =>
      simp only [read, readSetting_settle, sayings, Given.sayAll_singleton, Given.say]
  | separate setting value plain =>
      simp only [read, readSetting_supply_settle, sayings, Given.sayAll_singleton, Given.say]
  | lettersAttached verboses setting first rest =>
      rw [sayings, ← afterVerboses]
      simp only [read, bind_assoc, readSetting_settle]
  | lettersSeparate verboses setting value plain =>
      rw [sayings, ← afterVerboses]
      simp only [read, bind_assoc, readSetting_supply_settle]

end Settling

section Arguments

theorem word_of_hyphen (rest : Bytes) : Word.ofBytes? (hyphen :: rest) = none := by
  rfl

theorem ofBytes_long (text : Bytes) (notEmpty : text ≠ []) :
    Argument.ofBytes (hyphen :: hyphen :: text) = .long text := by
  simp [Argument.ofBytes, notEmpty]

theorem ofBytes_letters (letter : UInt8) (text : Bytes) (other : letter ≠ hyphen) :
    Argument.ofBytes (hyphen :: letter :: text) = .letters (letter :: text) := by
  simp [Argument.ofBytes, other]

theorem ofBytes_of_isPlain {arg : Bytes} (plain : IsPlain arg) :
    Argument.ofBytes arg = .plain arg := by
  unfold Argument.ofBytes
  split
  · rfl
  · next first rest =>
      by_cases dash : first = hyphen
      · subst dash
        have alone : rest = [] := by simpa [IsPlain] using plain
        subst alone
        rfl
      · rw [if_pos dash]

theorem readLong_attached (level : Level) (place : Place) (setting : Setting) (value : Bytes) :
    level.readLong place (Utf8.encode (setting.longName ++ "=") ++ value) =
      level.readSetting setting (some value) := by
  cases setting <;> rfl

theorem readLong_open (level : Level) (place : Place) (setting : Setting) :
    level.readLong place (Utf8.encode setting.longName) = level.readSetting setting none := by
  cases setting <;> rfl

theorem readLetters_verboses (level : Level) (place : Place) (count : Nat) (text : Bytes) :
    level.readLetters place (List.replicate count verboseLetter ++ text) =
      level.readVerboses count >>= fun next => next.readLetters place text := by
  induction count generalizing level with
  | zero => rfl
  | succ count ih =>
      have known : Switch.ofShort? place verboseLetter = some (.flag .verbose) := rfl
      have placed : level.readFlag place .verbose = level.readFlag .before .verbose := rfl
      simp only [List.replicate_succ, List.cons_append, Level.readLetters, known, placed,
        Level.readVerboses]
      cases level.readFlag .before .verbose with
      | error stop => rfl
      | ok next => exact ih next

/-- A way of reading a line takes in its options in one place: an option of either kind is read and
the line goes on, and an open option takes a plain argument for its value. -/
structure ReadsOptions {α : Type} (place : Place) (read : Level → List Bytes → Except Stop α) :
    Prop where
  long : ∀ level text rest, text ≠ [] → read level ((hyphen :: hyphen :: text) :: rest) =
    level.readLong place text >>= fun next => read next rest
  letters : ∀ level letter text rest, letter ≠ hyphen →
    read level ((hyphen :: letter :: text) :: rest) =
      level.readLetters place (letter :: text) >>= fun next => read next rest
  plain : ∀ level value rest, level.isWaiting = true → IsPlain value →
    read level (value :: rest) = read (level.supply value) rest

theorem readsOptions_readAfter (command : Command) :
    ReadsOptions (.after command) (readAfter command) where
  long level text rest notEmpty := by
    simp only [readAfter, ofBytes_long text notEmpty]
    cases level.readLong (.after command) text <;> rfl
  letters level letter text rest other := by
    simp only [readAfter, ofBytes_letters letter text other]
    cases level.readLetters (.after command) (letter :: text) <;> rfl
  plain level value rest waiting plain := by
    simp only [readAfter, ofBytes_of_isPlain plain, waiting, if_true]

theorem readsOptions_readBefore : ReadsOptions .before readBefore where
  long level text rest notEmpty := by
    simp only [readBefore, ofBytes_long text notEmpty, word_of_hyphen, ite_self]
    cases level.readLong .before text <;> rfl
  letters level letter text rest other := by
    simp only [readBefore, ofBytes_letters letter text other, word_of_hyphen, ite_self]
    cases level.readLetters .before (letter :: text) <;> rfl
  plain level value rest waiting plain := by
    simp only [readBefore, ofBytes_of_isPlain plain, waiting, if_true]

end Arguments

namespace ReadsOptions

variable {α : Type} {place : Place} {read : Level → List Bytes → Except Stop α}

theorem open_plain (reads : ReadsOptions place read) (level : Level) (setting : Setting)
    {value : Bytes} (plain : IsPlain value) (rest : List Bytes) :
    (level.readSetting setting none >>= fun next => read next (value :: rest)) =
      (level.readSetting setting none).map (·.supply value) >>= fun next => read next rest := by
  unfold Level.readSetting
  cases level.settle with
  | error stop => rfl
  | ok given => exact reads.plain ⟨given, some ⟨setting, none⟩⟩ value rest rfl plain

/-- A complete option is read, and the line goes on behind it. -/
theorem option_append (reads : ReadsOptions place read) (level : Level) (option : WrittenOption)
    (rest : List Bytes) :
    read level (option.args ++ rest) = option.read level >>= fun next => read next rest := by
  have letters (verboses : Nat) (setting : Setting) (text : Bytes) (rest : List Bytes) :
      read level ((hyphen :: (List.replicate verboses verboseLetter ++ setting.letter :: text)) ::
        rest) = level.readVerboses verboses >>= fun next =>
          next.readLetters place (setting.letter :: text) >>= fun next => read next rest := by
    rw [← bind_assoc, ← readLetters_verboses]
    -- The first letter tells that the argument is no long option: a `v`, or the letter itself.
    cases verboses with
    | zero => exact reads.letters level setting.letter text rest (by cases setting <;> decide)
    | succ verboses => exact reads.letters level verboseLetter _ rest (by decide)
  have known (setting : Setting) :
      Switch.ofShort? place setting.letter = some (.setting setting) := by
    cases setting <;> rfl
  cases option with
  | json => exact reads.long level (Utf8.encode "json") rest (by decide)
  | verbose => exact reads.long level (Utf8.encode "verbose") rest (by decide)
  | letters more =>
      have whole := readLetters_verboses level place (more + 1) []
      rw [List.append_nil] at whole
      have ended : level.readVerboses (more + 1) =
          level.readVerboses (more + 1) >>= fun next => next.readLetters place [] :=
        (bind_pure _).symm
      rw [WrittenOption.read, ended, ← whole]
      exact reads.letters level verboseLetter _ rest (by decide)
  | attached setting value =>
      have named : Utf8.encode (setting.longName ++ "=") ≠ [] := by cases setting <;> decide
      have long := reads.long level (Utf8.encode (setting.longName ++ "=") ++ value) rest
        (List.append_ne_nil_of_left_ne_nil named value)
      rw [readLong_attached] at long
      rw [WrittenOption.read, ← long, WrittenOption.args]
      cases setting <;> rfl
  | separate setting value plain =>
      rw [WrittenOption.read, ← reads.open_plain level setting plain, ← readLong_open level place]
      cases setting with
      | manifest => exact reads.long level (Utf8.encode "manifest") (value :: rest) (by decide)
      | project => exact reads.long level (Utf8.encode "project") (value :: rest) (by decide)
  | lettersAttached verboses setting first more =>
      rw [WrittenOption.read, bind_assoc]
      refine (letters verboses setting (first :: more) rest).trans ?_
      simp only [Level.readLetters, known]
  | lettersSeparate verboses setting value plain =>
      rw [WrittenOption.read, bind_assoc]
      refine (letters verboses setting [] (value :: rest)).trans ?_
      simp only [Level.readLetters, known, reads.open_plain _ setting plain]

/-- Complete options are read one after the other. -/
theorem options_append (reads : ReadsOptions place read) (level : Level)
    (options : List WrittenOption) (rest : List Bytes) :
    read level (argsOf options ++ rest) =
      options.foldlM WrittenOption.read level >>= fun next => read next rest := by
  induction options generalizing level with
  | nil => rfl
  | cons option options ih =>
      rw [argsOf, List.flatMap_cons, List.append_assoc, reads.option_append, List.foldlM_cons,
        bind_assoc]
      exact congrArg _ (funext fun next => ih next)

end ReadsOptions

/-- Reading options and settling comes to settling and taking in what they say. -/
theorem readOptions_settle (level : Level) (options : List WrittenOption) :
    (options.foldlM WrittenOption.read level >>= Level.settle) =
      level.settle >>= fun given => given.sayAll (sayingsOf options) := by
  induction options generalizing level with
  | nil => exact (bind_pure _).symm
  | cons option options ih =>
      simp only [List.foldlM_cons, bind_assoc, ih]
      rw [← bind_assoc, option.read_settle, bind_assoc]
      simp only [sayingsOf, List.flatMap_cons, Given.sayAll_append]

theorem bind_eq_ok_iff {ε α β : Type} {first : Except ε α} {next : α → Except ε β} {b : β} :
    (first >>= next) = .ok b ↔ ∃ a, first = .ok a ∧ next a = .ok b := by
  cases first with
  | error e => simp [bind, Except.bind]
  | ok a => simp [bind, Except.bind]

section Waiting

variable {level next : Level}

theorem isWaiting_of_readFlag (flag : Flag) (read : level.readFlag .before flag = .ok next) :
    next.isWaiting = false := by
  unfold Level.readFlag at read
  split at read
  · contradiction
  · split at read
    · contradiction
    · exact Except.ok.inj read ▸ rfl

theorem isWaiting_of_readSetting {setting : Setting} {value : Bytes}
    (read : level.readSetting setting (some value) = .ok next) : next.isWaiting = false := by
  simp only [Level.readSetting] at read
  split at read
  · contradiction
  · split at read
    · contradiction
    · exact Except.ok.inj read ▸ rfl

theorem isWaiting_of_supply {setting : Setting} {value : Bytes}
    (read : (level.readSetting setting none).map (·.supply value) = .ok next) :
    next.isWaiting = false := by
  simp only [Level.readSetting] at read
  split at read
  · contradiction
  · exact Except.ok.inj read ▸ rfl

theorem isWaiting_of_readVerboses {count : Nat} (ready : level.isWaiting = false)
    (read : level.readVerboses count = .ok next) : next.isWaiting = false := by
  induction count generalizing level with
  | zero => exact Except.ok.inj read ▸ ready
  | succ count ih =>
      obtain ⟨middle, first, others⟩ := bind_eq_ok_iff.1 read
      exact ih (isWaiting_of_readFlag .verbose first) others

/-- No option is left waiting for its value behind a complete option. -/
theorem WrittenOption.isWaiting_of_read {option : WrittenOption} (ready : level.isWaiting = false)
    (read : option.read level = .ok next) : next.isWaiting = false := by
  cases option with
  | json => exact isWaiting_of_readFlag .json read
  | verbose => exact isWaiting_of_readFlag .verbose read
  | letters more => exact isWaiting_of_readVerboses ready read
  | attached setting value => exact isWaiting_of_readSetting read
  | separate setting value plain => exact isWaiting_of_supply read
  | lettersAttached verboses setting first rest =>
      obtain ⟨middle, -, last⟩ := bind_eq_ok_iff.1 read
      exact isWaiting_of_readSetting last
  | lettersSeparate verboses setting value plain =>
      obtain ⟨middle, -, last⟩ := bind_eq_ok_iff.1 read
      exact isWaiting_of_supply last

theorem isWaiting_of_readOptions {options : List WrittenOption} (ready : level.isWaiting = false)
    (read : options.foldlM WrittenOption.read level = .ok next) : next.isWaiting = false := by
  induction options generalizing level with
  | nil => exact Except.ok.inj read ▸ ready
  | cons option options ih =>
      rw [List.foldlM_cons] at read
      obtain ⟨middle, first, others⟩ := bind_eq_ok_iff.1 read
      exact ih (option.isWaiting_of_read ready first) others

end Waiting

theorem word_of_command (command : Command) :
    Word.ofBytes? command.arg = some (.command command) := by
  cases command <;> rfl

theorem readBefore_command {level : Level} (ready : level.isWaiting = false) (command : Command)
    (rest : List Bytes) :
    readBefore level (command.arg :: rest) = readAfter command .start rest >>= fun later =>
      level.settle >>= fun earlier => .ok ((earlier.merge later).toRequest command) := by
  simp only [readBefore, ready, Bool.false_eq_true, if_false, word_of_command]
  cases readAfter command .start rest with
  | error stop => rfl
  | ok later => cases level.settle <;> rfl

/-- Options after a command are taken in from nothing. -/
theorem readAfter_argsOf (command : Command) (options : List WrittenOption) :
    readAfter command .start (argsOf options) = Given.nothing.sayAll (sayingsOf options) := by
  have whole := (readsOptions_readAfter command).options_append .start options []
  rw [List.append_nil] at whole
  rw [whole]
  exact readOptions_settle .start options

/-- A line of options, a command and more options makes a request exactly if either group of options
can be taken in from nothing, and the request is what the two say together. -/
theorem parse_argsOf_eq_ok_iff (before after : List WrittenOption) (command : Command)
    {request : Request} :
    parse (argsOf before ++ command.arg :: argsOf after) = .ok request ↔
      ∃ earlier later, Given.nothing.sayAll (sayingsOf before) = .ok earlier ∧
        Given.nothing.sayAll (sayingsOf after) = .ok later ∧
        request = (earlier.merge later).toRequest command := by
  have settled : (before.foldlM WrittenOption.read .start >>= Level.settle) =
      Given.nothing.sayAll (sayingsOf before) := readOptions_settle .start before
  have behind (level : Level) (read : before.foldlM WrittenOption.read .start = .ok level) :=
    readBefore_command (isWaiting_of_readOptions rfl read) command (argsOf after)
  simp only [readAfter_argsOf] at behind
  rw [parse, readsOptions_readBefore.options_append, ← settled]
  constructor
  · intro parsed
    obtain ⟨level, read, others⟩ := bind_eq_ok_iff.1 parsed
    rw [behind level read] at others
    obtain ⟨later, said, others⟩ := bind_eq_ok_iff.1 others
    obtain ⟨earlier, given, made⟩ := bind_eq_ok_iff.1 others
    exact ⟨earlier, later, bind_eq_ok_iff.2 ⟨level, read, given⟩, said, (Except.ok.inj made).symm⟩
  · rintro ⟨earlier, later, first, said, rfl⟩
    obtain ⟨level, read, given⟩ := bind_eq_ok_iff.1 first
    refine bind_eq_ok_iff.2 ⟨level, read, ?_⟩
    rw [behind level read]
    exact bind_eq_ok_iff.2 ⟨later, said, bind_eq_ok_iff.2 ⟨earlier, given, rfl⟩⟩

@[simp] theorem Given.merge_nothing (given : Given) : given.merge .nothing = given := by
  simp [merge, nothing]

@[simp] theorem Given.nothing_merge (given : Given) : Given.nothing.merge given = given := by
  obtain ⟨json, verbose, manifest, projects⟩ := given
  cases projects <;> simp [merge, nothing]

section OneSide

variable {options : List WrittenOption} {command : Command} {request : Request}

/-- Options before the command, and none after it. -/
theorem parse_before_eq_ok_iff :
    parse (argsOf options ++ [command.arg]) = .ok request ↔
      ∃ given, Given.nothing.sayAll (sayingsOf options) = .ok given ∧
        request = given.toRequest command := by
  refine (parse_argsOf_eq_ok_iff options [] command).trans ⟨?_, ?_⟩
  · rintro ⟨given, later, said, silent, rfl⟩
    obtain rfl : Given.nothing = later := Except.ok.inj silent
    exact ⟨given, said, by rw [Given.merge_nothing]⟩
  · rintro ⟨given, said, rfl⟩
    exact ⟨given, .nothing, said, rfl, by rw [Given.merge_nothing]⟩

/-- Options after the command, and none before it. -/
theorem parse_after_eq_ok_iff :
    parse (command.arg :: argsOf options) = .ok request ↔
      ∃ given, Given.nothing.sayAll (sayingsOf options) = .ok given ∧
        request = given.toRequest command := by
  refine (parse_argsOf_eq_ok_iff [] options command).trans ⟨?_, ?_⟩
  · rintro ⟨earlier, given, silent, said, rfl⟩
    obtain rfl : Given.nothing = earlier := Except.ok.inj silent
    exact ⟨given, said, by rw [Given.nothing_merge]⟩
  · rintro ⟨given, said, rfl⟩
    exact ⟨.nothing, given, rfl, said, by rw [Given.nothing_merge]⟩

end OneSide

end WasmBuild.CommandLine
