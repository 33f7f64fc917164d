import Mathlib.Data.List.Induction
import Mathlib.Tactic.MkIffOfInductiveProp
import WasmBuild.Proofs.CommandLine.WrittenOptions

/-!
# What sayings add up to

Taking in sayings one after the other asks of them only what can be told from the whole list: the
flag for machine-readable output comes at most once, a manifest is named at most once and by some
byte, and project names are texts. What results depends on the number of flags `v` and on the values
of either option in their order.
-/
namespace WasmBuild.CommandLine

/-- The value that a saying gives to an option. -/
def Saying.valueOf? (setting : Setting) : Saying → Option Bytes
  | value own bytes => if own = setting then some bytes else none
  | _ => none

/-- The values that sayings give to an option, in their order. -/
def valuesOf (setting : Setting) (sayings : List Saying) : List Bytes :=
  sayings.filterMap (Saying.valueOf? setting)

@[simp] theorem valuesOf_append (setting : Setting) (sayings more : List Saying) :
    valuesOf setting (sayings ++ more) = valuesOf setting sayings ++ valuesOf setting more :=
  List.filterMap_append

@[simp] theorem valuesOf_json (setting : Setting) : valuesOf setting [.json] = [] := rfl

@[simp] theorem valuesOf_verbose (setting : Setting) : valuesOf setting [.verbose] = [] := rfl

@[simp] theorem valuesOf_value (setting own : Setting) (value : Bytes) :
    valuesOf setting [.value own value] = if own = setting then [value] else [] := by
  cases own <;> cases setting <;> rfl

/-- What can be taken in from nothing. -/
@[mk_iff] structure Sayable (sayings : List Saying) : Prop where
  single : sayings.count .json ≤ 1
  one : (valuesOf .manifest sayings).length ≤ 1
  named : [] ∉ valuesOf .manifest sayings
  texts : ∀ name ∈ valuesOf .project sayings, (Utf8.decode? name).isSome

/-- What sayings add up to. -/
def Given.ofSayings (sayings : List Saying) : Given where
  json := decide (.json ∈ sayings)
  verbose := if sayings.count .verbose = 0 then none
    else some (min (sayings.count .verbose) maxVerbose)
  manifest := (valuesOf .manifest sayings).head?.map Path.mk
  projects := (valuesOf .project sayings).filterMap Utf8.decode?

/-- The flags `v` are counted up to the greatest count. -/
theorem verbose_ofSayings (sayings : List Saying) : (Given.ofSayings sayings).verbose.getD 0 =
    min (sayings.count .verbose) Given.maxVerbose := by
  unfold Given.ofSayings
  by_cases silent : sayings.count .verbose = 0
  · simp [silent]
  · simp [silent]

section Step

variable {sayings : List Saying} {value : Bytes}

theorem sayable_json_iff : Sayable (sayings ++ [.json]) ↔ Sayable sayings ∧ .json ∉ sayings := by
  have single : sayings.count .json + 1 ≤ 1 ↔ sayings.count .json ≤ 1 ∧ .json ∉ sayings := by
    rw [← List.count_eq_zero]
    omega
  simp only [sayable_iff, List.count_append, List.count_singleton_self, valuesOf_append,
    valuesOf_json, List.append_nil, single]
  tauto

theorem sayable_verbose_iff : Sayable (sayings ++ [.verbose]) ↔ Sayable sayings := by
  simp [sayable_iff]

theorem sayable_manifest_iff : Sayable (sayings ++ [.value .manifest value]) ↔
    Sayable sayings ∧ valuesOf .manifest sayings = [] ∧ value ≠ [] := by
  cases held : valuesOf .manifest sayings with
  | nil =>
      have one : valuesOf .manifest (sayings ++ [.value .manifest value]) = [value] := by
        simp [held]
      have names : valuesOf .project (sayings ++ [.value .manifest value]) =
          valuesOf .project sayings := by simp
      have flags : List.count .json (sayings ++ [Saying.value .manifest value]) =
          sayings.count .json := by simp
      have full : [] ∉ [value] ↔ value ≠ [] := by simp [eq_comm]
      simp only [sayable_iff, one, names, flags, full, held, List.length_singleton,
        List.length_nil, List.not_mem_nil, not_false_eq_true, Nat.le_refl, Nat.zero_le, true_and]
      tauto
  | cons first rest => simp [sayable_iff, held]

theorem sayable_project_iff : Sayable (sayings ++ [.value .project value]) ↔
    Sayable sayings ∧ (Utf8.decode? value).isSome := by
  simp [sayable_iff, or_imp, forall_and, and_assoc]

end Step

/-- One more saying can be taken in exactly if all of them together can be. -/
theorem say_ofSayings_iff {sayings : List Saying} {saying : Saying} {given : Given} :
    Sayable sayings ∧ (Given.ofSayings sayings).say saying = .ok given ↔
      Sayable (sayings ++ [saying]) ∧ given = .ofSayings (sayings ++ [saying]) := by
  cases saying with
  | json =>
      rw [sayable_json_iff, and_assoc]
      refine and_congr_right fun _ => ?_
      by_cases held : Saying.json ∈ sayings
      · simp [Given.say, Given.addFlag, Given.ofSayings, held]
      · simp [Given.say, Given.addFlag, Given.ofSayings, held, eq_comm]
  | verbose =>
      have one : min ((Given.ofSayings sayings).verbose.getD 0 + 1) Given.maxVerbose =
          min (sayings.count .verbose + 1) Given.maxVerbose := by
        rw [verbose_ofSayings]
        omega
      rw [sayable_verbose_iff]
      refine and_congr_right fun _ => ?_
      simp only [Given.say, Given.addFlag, one]
      simp [Given.ofSayings, eq_comm]
  | value setting value =>
      cases setting with
      | manifest =>
          rw [sayable_manifest_iff, and_assoc]
          refine and_congr_right fun _ => ?_
          cases held : valuesOf .manifest sayings with
          | cons first rest => simp [Given.say, Given.addSetting, Given.ofSayings, held]
          | nil =>
              cases value with
              | nil => simp [Given.say, Given.addSetting, Given.ofSayings, held]
              | cons byte rest => simp [Given.say, Given.addSetting, Given.ofSayings, held, eq_comm]
      | project =>
          rw [sayable_project_iff, and_assoc]
          refine and_congr_right fun _ => ?_
          cases text : Utf8.decode? value with
          | none => simp [Given.say, Given.addSetting, text]
          | some name => simp [Given.say, Given.addSetting, Given.ofSayings, text, eq_comm]

/-- Sayings can be taken in from nothing exactly if they are sayable, and give what they add up
to. -/
theorem sayAll_nothing_eq_ok_iff {sayings : List Saying} {given : Given} :
    Given.nothing.sayAll sayings = .ok given ↔ Sayable sayings ∧ given = .ofSayings sayings := by
  induction sayings using List.reverseRecOn generalizing given with
  | nil =>
      have nothing : Sayable [] :=
        ⟨by simp, by simp [valuesOf], by simp [valuesOf], by simp [valuesOf]⟩
      rw [and_iff_right nothing]
      exact ⟨fun same => (Except.ok.inj same).symm, fun same => same ▸ rfl⟩
  | append_singleton sayings saying ih =>
      rw [← say_ofSayings_iff, Given.sayAll_append, bind_eq_ok_iff]
      simp only [ih, Given.sayAll_singleton]
      constructor
      · rintro ⟨middle, ⟨sayable, rfl⟩, said⟩
        exact ⟨sayable, said⟩
      · rintro ⟨sayable, said⟩
        exact ⟨_, ⟨sayable, rfl⟩, said⟩

end WasmBuild.CommandLine
