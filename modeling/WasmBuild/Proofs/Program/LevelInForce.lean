import WasmBuild.Proofs.Program.Stream
import WasmBuild.Proofs.Verbosity.Offers

/-!
# The level in force

Three places may name a level: the command line by repeating its flag, an environment variable, and
the manifest. The flag overrides the variable and the variable the manifest. A variable that is set
to a text without naming a level is warned of and counts as unset. What such a warning offers is
near the value and, as the value of the variable, names a level.
-/
namespace WasmBuild

def Environment.SetTo (env : Environment) (name value : String) : Prop :=
  env.bindings.lookup name = some (Utf8.encode value)

theorem Environment.get?_eq_some_iff {env : Environment} {name value : String} :
    env.get? name = some value ↔ env.SetTo name value := by
  simp only [get?, SetTo, Option.bind_eq_some_iff, Utf8.decode?_eq_some_iff, exists_eq_right]

namespace Verbosity

/-- Without the blanks around it and in lower case, a value is the name of a level. -/
def NamedBy (level : Verbosity) (value : String) : Prop :=
  Text.lowercase (Text.trim value) = level.name

instance (level : Verbosity) (value : String) : Decidable (level.NamedBy value) :=
  inferInstanceAs (Decidable (_ = _))

theorem ofName?_eq_some_iff {word : String} {level : Verbosity} :
    ofName? word = some level ↔ word = level.name := by
  constructor
  · intro found
    have same := List.find?_some (p := fun level : Verbosity => level.name == word) found
    exact (eq_of_beq same).symm
  · rintro rfl
    cases level <;> rfl

theorem parse?_eq_some_iff {value : String} {level : Verbosity} :
    parse? value = some level ↔ level.NamedBy value := ofName?_eq_some_iff

/-- The variable that may name a level is set to a text. -/
abbrev Asked (env : Environment) (value : String) : Prop := env.SetTo "EMPROJ_VERBOSITY" value

/-- A value names no level. -/
abbrev Unnamed (value : String) : Prop := ∀ level : Verbosity, ¬ level.NamedBy value

section Override

variable {env : Environment} {value : String}

theorem override_of_named {level : Verbosity} (set : Asked env value) (named : level.NamedBy value)
    (base : Verbosity) : override env base = (level, none) := by
  have got : env.get? choice.variableName = some value := Environment.get?_eq_some_iff.2 set
  simp only [override, got, NamedChoice.resolve, parse?_eq_some_iff.2 named]

theorem override_of_unnamed (set : Asked env value) (unnamed : Unnamed value) (base : Verbosity) :
    override env base = (base, some (choice.warning value)) := by
  have got : env.get? choice.variableName = some value := Environment.get?_eq_some_iff.2 set
  have unread : parse? value = none :=
    Option.eq_none_iff_forall_ne_some.2 fun level found =>
      unnamed level (parse?_eq_some_iff.1 found)
  simp only [override, got, NamedChoice.resolve, unread]

theorem override_of_unset (unset : ∀ value, ¬ Asked env value) (base : Verbosity) :
    override env base = (base, none) := by
  have absent : env.get? choice.variableName = none :=
    Option.eq_none_iff_forall_ne_some.2 fun value found =>
      unset value (Environment.get?_eq_some_iff.1 found)
  simp only [override, absent]

theorem override_fst_of_unnamed (unnamed : ∀ value, Asked env value → Unnamed value)
    (base : Verbosity) : (override env base).1 = base := by
  by_cases set : ∃ value, Asked env value
  · obtain ⟨value, set⟩ := set
    rw [override_of_unnamed set (unnamed value set)]
  · rw [override_of_unset (not_exists.1 set)]

end Override

/-- The level that the flag, the variable and the manifest leave in force. -/
inductive InForce (count : Nat) (env : Environment) (base : Verbosity) : Verbosity → Prop
  | once (given : count = 1) : InForce count env base verbose
  | repeated (given : 1 < count) : InForce count env base debug
  | asked {value : String} {level : Verbosity} (absent : count = 0) (set : Asked env value)
      (named : level.NamedBy value) : InForce count env base level
  | declared (absent : count = 0) (unnamed : ∀ value, Asked env value → Unnamed value) :
      InForce count env base base

section InForce

variable {count : Nat} {env : Environment} {base level : Verbosity}

theorem InForce.eq (inForce : InForce count env base level) :
    ofCount count (override env base).1 = level := by
  cases inForce with
  | once given => rw [given, ofCount]
  | repeated given =>
      obtain ⟨n, rfl⟩ : ∃ n, count = n + 2 := ⟨count - 2, by omega⟩
      rfl
  | asked absent set named => rw [absent, ofCount, override_of_named set named]
  | declared absent unnamed => rw [absent, ofCount, override_fst_of_unnamed unnamed]

theorem inForce_ofCount (count : Nat) (env : Environment) (base : Verbosity) :
    InForce count env base (ofCount count (override env base).1) := by
  match count with
  | 0 =>
      by_cases named : ∃ value, Asked env value ∧ ∃ level : Verbosity, level.NamedBy value
      · obtain ⟨value, set, level, named⟩ := named
        rw [override_of_named set named]
        exact .asked rfl set named
      · have unnamed : ∀ value, Asked env value → Unnamed value :=
          fun value set level called => named ⟨value, set, level, called⟩
        rw [override_fst_of_unnamed unnamed]
        exact .declared rfl unnamed
  | 1 => exact .once rfl
  | n + 2 => exact .repeated (by omega)

theorem inForce_iff : InForce count env base level ↔ ofCount count (override env base).1 = level :=
  ⟨InForce.eq, fun same => same ▸ inForce_ofCount count env base⟩

end InForce

/-- A word corrects a value: it is near its lower-case form without being that form, and the
variable that is set to it names a level of that name. -/
structure Corrects (value word : String) : Prop where
  near : Suggestion.WithinEdits 2 (Text.lowercase value) word
  other : word ≠ Text.lowercase value
  accepted : ∀ env base, Asked env word →
    ∃ level : Verbosity, level.name = word ∧ override env base = (level, none)

theorem corrects_of_suggestion {value word : String}
    (found : choice.suggestion? value = some word) : Corrects value word := by
  obtain ⟨member, near, other⟩ := suggestion_cases found
  refine ⟨near, other, fun env base set => ?_⟩
  obtain ⟨level, -, rfl⟩ := List.mem_map.1 member
  have named : level.NamedBy level.name := by cases level <;> decide
  exact ⟨level, rfl, override_of_named set named base⟩

end Verbosity

namespace Program

open Verbosity

/-- Once its manifest is loaded, a command knows a level, and it is the one in force, if the
projects that are asked for can be resolved. Behind what is said about the manifest stands a warning
exactly if the variable is set to a text that names no level. Where the warning has the words of an
offer, they are part of the value that it repeats, or what they offer corrects the value. -/
theorem level_in_force (host : Host) (tree : FileTree) (request : CommandLine.Request)
    (loaded : Manifest.Loaded) (load : Manifest.load tree request.manifest = .ok loaded) :
    let preparation := prepare host tree request
    (∀ context, preparation.result = .ok context ↔ ∃ projects level,
      loaded.manifest.resolve request.manifest request.projects = .ok projects ∧
      InForce request.verbose host.environment loaded.manifest.verbosity level ∧
      context = ⟨request.json, level, request.manifest, projects⟩) ∧
    (∃ said, preparation.actions = loaded.warnings.flatMap (reportWarning request.json) ++ said ∧
      (∀ value, Asked host.environment value → Unnamed value →
        said = [.err (choice.warning value)]) ∧
      ((∀ value, Asked host.environment value → ¬ Unnamed value) → said = [])) ∧
    ∀ value before word after,
      choice.warning value = before ++ offer word ++ after →
      (∃ inner rest, before = heading ++ inner ∧ value = inner ++ offer word ++ rest) ∨
        Corrects value word := by
  intro preparation
  have said : (loaded.manifest.override host.environment).2 =
      (override host.environment loaded.manifest.verbosity).2 := rfl
  refine ⟨fun context => ?_, ⟨_, actions_prepare_of_loaded load, ?_, ?_⟩, ?_⟩
  · have result : (prepare host tree request).result = _ := prepare_of_loaded load
    simp only [inForce_iff, preparation, result]
    cases loaded.manifest.resolve request.manifest request.projects with
    | error failure => simp
    | ok projects => simp [Manifest.override, eq_comm]
  · intro value set unnamed
    rw [said, override_of_unnamed set unnamed]
    rfl
  · intro allNamed
    by_cases set : ∃ value, Asked host.environment value
    · obtain ⟨value, set⟩ := set
      obtain ⟨level, named⟩ : ∃ level : Verbosity, level.NamedBy value := by
        simpa [Unnamed] using allNamed value set
      rw [said, override_of_named set named]
      rfl
    · rw [said, override_of_unset (not_exists.1 set)]
      rfl
  · intro value before word after offered
    exact (offer_cases offered).imp_right corrects_of_suggestion

/-- A slip with a blank behind it is warned of, and the level stays that of the manifest. -/
theorem level_in_force_slip :
    let host : Host := { sampleHost with
      environment := ⟨[("EMPROJ_VERBOSITY", Utf8.encode "Verbos ")]⟩ }
    let request : CommandLine.Request := ⟨true, 0, Manifest.defaultPath, [], .build⟩
    let preparation := prepare host sampleTree request
    ∃ loaded, Manifest.load sampleTree request.manifest = .ok loaded ∧
      (∀ context, preparation.result = .ok context → context.verbosity = .normal) ∧
      preparation.actions = loaded.warnings.flatMap (reportWarning true) ++
        [.err ("Warning: Invalid EMPROJ_VERBOSITY value 'Verbos '. Did you mean 'verbose'?\n" ++
          "Valid values: quiet, normal, verbose, debug\n")] ∧
      Corrects "Verbos " "verbose" := by
  intro host request preparation
  obtain ⟨loaded, load, -, normal⟩ := load_sampleTree
  have set : Asked host.environment "Verbos " := rfl
  have unnamed : Unnamed "Verbos " := by
    intro level
    cases level <;> decide +kernel
  obtain ⟨result, ⟨said, actions, warned, -⟩, offers⟩ :=
    level_in_force host sampleTree request loaded load
  have text : choice.warning "Verbos " =
      "Warning: Invalid EMPROJ_VERBOSITY value 'Verbos '. Did you mean 'verbose'?\n" ++
        "Valid values: quiet, normal, verbose, debug\n" := by
    decide +kernel
  refine ⟨loaded, load, fun context found => ?_, ?_, ?_⟩
  · obtain ⟨projects, level, -, inForce, rfl⟩ := (result context).1 found
    have same := inForce.eq
    rw [override_of_unnamed set unnamed, normal] at same
    exact same.symm
  · rw [← text, ← warned _ set unnamed]
    exact actions
  · obtain ⟨inner, rest, -, held⟩ | corrects := offers "Verbos "
      "Warning: Invalid EMPROJ_VERBOSITY value 'Verbos '. " "verbose"
      "\nValid values: quiet, normal, verbose, debug\n" (by rw [text]; decide +kernel)
    · have few : "Verbos ".length < (offer "verbose").length := by decide
      have lengths := congrArg String.length held
      simp only [String.length_append] at lengths
      omega
    · exact corrects

end Program
end WasmBuild
