import WasmBuild.CommandLine.Parser

/-!
# The flag for machine-readable output

Reading a command line looks at this flag only to refuse a second one in the same place. So where a
command line makes a request without it, the same line with the flag in front makes that request for
machine-readable output, and nothing else in it changes.
-/
namespace WasmBuild.CommandLine

def jsonFlag : Bytes := Utf8.encode "--json"

/-- What was said, and the flag. -/
def Given.asJson (given : Given) : Given := { given with json := true }

/-- What was read, after the flag. -/
def Level.asJson (level : Level) : Level := { level with given := level.given.asJson }

def Request.asJson (request : Request) : Request := { request with json := true }

@[simp] theorem Level.isWaiting_asJson (level : Level) :
    level.asJson.isWaiting = level.isWaiting := rfl

@[simp] theorem Level.supply_asJson (level : Level) (value : Bytes) :
    level.asJson.supply value = (level.supply value).asJson := rfl

theorem Given.toRequest_merge_asJson (earlier later : Given) (command : Command) :
    (earlier.asJson.merge later).toRequest command =
      ((earlier.merge later).toRequest command).asJson := by
  simp [toRequest, merge, Request.asJson, asJson]

theorem Given.addSetting_asJson {given next : Given} {setting : Setting} {value : Bytes}
    (added : given.addSetting setting value = .ok next) :
    next.json = given.json ∧ given.asJson.addSetting setting value = .ok next.asJson := by
  cases setting with
  | manifest =>
      simp only [addSetting] at added ⊢
      split at added
      · cases added
      · next unnamed =>
          split at added
          · cases added
          · next filled =>
              cases added
              exact ⟨rfl, by simp_all [asJson]⟩
  | project =>
      simp only [addSetting] at added ⊢
      split at added
      · cases added
        exact ⟨rfl, rfl⟩
      · cases added

theorem Given.addFlag_asJson {given next : Given} {place : Place} {flag : Flag}
    (added : given.addFlag place flag = .ok next) (plain : next.json = false) :
    given.json = false ∧ given.asJson.addFlag place flag = .ok next.asJson := by
  cases flag with
  | json =>
      rw [addFlag] at added
      split at added
      · cases added
      · cases added
        cases plain
  | verbose =>
      cases added
      exact ⟨plain, rfl⟩
  | help => cases added
  | version => cases added

theorem Level.settle_asJson {level : Level} {given : Given} (settled : level.settle = .ok given) :
    given.json = level.given.json ∧ level.asJson.settle = .ok given.asJson := by
  obtain ⟨earlier, opened⟩ := level
  rcases opened with _ | ⟨setting, _ | value⟩
  · cases settled
    exact ⟨rfl, rfl⟩
  · cases settled
  · exact Given.addSetting_asJson settled

/-- A way of reading an argument that goes the same way after the flag, unless it meets the flag. -/
def Unmoved (read : Level → Except Stop Level) : Prop :=
  ∀ level next, read level = .ok next → next.given.json = false →
    level.given.json = false ∧ read level.asJson = .ok next.asJson

theorem unmoved_readFlag (place : Place) (flag : Flag) :
    Unmoved fun level => level.readFlag place flag := by
  intro level next read plain
  simp only [Level.readFlag] at read ⊢
  cases settled : level.settle with
  | error stop => simp [settled] at read
  | ok given =>
      obtain ⟨same, after⟩ := Level.settle_asJson settled
      simp only [settled] at read
      cases added : given.addFlag place flag with
      | error stop => simp [added] at read
      | ok given' =>
          simp only [added, Except.ok.injEq] at read
          subst read
          obtain ⟨before, flagged⟩ := Given.addFlag_asJson added plain
          exact ⟨same ▸ before, by simp only [after, flagged]; rfl⟩

theorem unmoved_readSetting (setting : Setting) (value? : Option Bytes) :
    Unmoved fun level => level.readSetting setting value? := by
  intro level next read plain
  simp only [Level.readSetting] at read ⊢
  cases settled : level.settle with
  | error stop => simp [settled] at read
  | ok given =>
      obtain ⟨same, after⟩ := Level.settle_asJson settled
      simp only [settled] at read
      cases value? with
      | none =>
          simp only [Except.ok.injEq] at read
          subst read
          exact ⟨same ▸ plain, by simp only [after]; rfl⟩
      | some value =>
          cases added : given.addSetting setting value with
          | error stop => simp [added] at read
          | ok given' =>
              simp only [added, Except.ok.injEq] at read
              subst read
              obtain ⟨kept, set⟩ := Given.addSetting_asJson added
              exact ⟨same ▸ kept ▸ plain, by simp only [after, set]; rfl⟩

theorem unmoved_readLong (place : Place) (text : Bytes) :
    Unmoved fun level => level.readLong place text := by
  intro level next read plain
  simp only [Level.readLong] at read ⊢
  generalize Switch.ofLong? place _ = switch? at read ⊢
  generalize List.dropWhile _ text = attached at read ⊢
  rcases switch? with _ | flag | setting
  · cases read
  · cases attached with
    | nil => exact unmoved_readFlag place flag level next read plain
    | cons sign value => cases read
  · exact unmoved_readSetting setting _ level next read plain

theorem unmoved_readLetters (place : Place) (text : Bytes) :
    Unmoved fun level => level.readLetters place text := by
  induction text with
  | nil =>
      intro level next read plain
      cases read
      exact ⟨plain, rfl⟩
  | cons letter rest ih =>
      intro level next read plain
      simp only [Level.readLetters] at read ⊢
      cases known : Switch.ofShort? place letter with
      | none => simp [known] at read
      | some switch =>
          cases switch with
          | flag flag =>
              simp only [known] at read ⊢
              cases first : level.readFlag place flag with
              | error stop => simp [first] at read
              | ok middle =>
                  simp only [first] at read
                  obtain ⟨unasked, others⟩ := ih middle next read plain
                  obtain ⟨before, flagged⟩ := unmoved_readFlag place flag level middle first unasked
                  exact ⟨before, by simp only [flagged, others]⟩
          | setting setting =>
              simp only [known] at read ⊢
              cases rest with
              | nil => exact unmoved_readSetting setting none level next read plain
              | cons first value => exact unmoved_readSetting setting _ level next read plain

theorem readBefore_asJson {level : Level} {args : List Bytes} {request : Request}
    (read : readBefore level args = .ok request) (plain : request.json = false) :
    level.given.json = false ∧ readBefore level.asJson args = .ok request.asJson := by
  induction args generalizing level with
  | nil => cases read
  | cons arg rest ih =>
      have same : (if level.asJson.isWaiting then none else Word.ofBytes? arg) =
          if level.isWaiting then none else Word.ofBytes? arg := rfl
      simp only [readBefore, same] at read ⊢
      generalize (if level.isWaiting then none else Word.ofBytes? arg) = word? at read ⊢
      rcases word? with _ | command | _
      · simp only at read ⊢
        -- an argument that is no command is read in one of the ways above
        have step {reading : Level → Except Stop Level} {next : Level} (unmoved : Unmoved reading)
            (here : reading level = .ok next) (others : readBefore next rest = .ok request) :
            level.given.json = false ∧ reading level.asJson = .ok next.asJson ∧
              readBefore next.asJson rest = .ok request.asJson := by
          obtain ⟨unasked, after⟩ := ih others
          obtain ⟨before, same⟩ := unmoved level next here unasked
          exact ⟨before, same, after⟩
        cases form : Argument.ofBytes arg with
        | endOfOptions =>
            simp only [form] at read
            split at read
            · cases read
            · split at read <;> cases read
        | long text =>
            simp only [form] at read ⊢
            cases here : level.readLong .before text with
            | error stop => simp [here] at read
            | ok next =>
                simp only [here] at read
                obtain ⟨before, same, after⟩ := step (unmoved_readLong .before text) here read
                exact ⟨before, by simp only [same, after]⟩
        | letters text =>
            simp only [form] at read ⊢
            cases here : level.readLetters .before text with
            | error stop => simp [here] at read
            | ok next =>
                simp only [here] at read
                obtain ⟨before, same, after⟩ := step (unmoved_readLetters .before text) here read
                exact ⟨before, by simp only [same, after]⟩
        | plain text =>
            simp only [form] at read ⊢
            split at read
            · next waiting =>
                obtain ⟨before, others⟩ := ih read
                exact ⟨before, by simpa [waiting] using others⟩
            · cases read
      · simp only at read ⊢
        cases after : readAfter command .start rest with
        | error stop => simp [after] at read
        | ok later =>
            simp only [after] at read ⊢
            cases settled : level.settle with
            | error stop => simp [settled] at read
            | ok earlier =>
                obtain ⟨same, flagged⟩ := Level.settle_asJson settled
                simp only [settled, Except.ok.injEq] at read
                subst read
                have unasked : earlier.json = false ∧ later.json = false := by
                  simpa [Given.toRequest, Given.merge] using plain
                exact ⟨same ▸ unasked.1, by simp only [flagged, Given.toRequest_merge_asJson]⟩
      · simp only at read
        split at read <;> cases read

/-- The flag in front of a command line that makes a request without it. -/
theorem parse_jsonFlag {args : List Bytes} {request : Request} (parsed : parse args = .ok request)
    (plain : request.json = false) : parse (jsonFlag :: args) = .ok request.asJson := by
  have flagged : parse (jsonFlag :: args) = readBefore Level.start.asJson args := by rfl
  rw [flagged]
  exact (readBefore_asJson parsed plain).2

end WasmBuild.CommandLine
