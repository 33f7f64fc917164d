import Mathlib.Data.List.DropRight
import WasmBuild.Proofs.Manifest.UnknownKeys
import WasmBuild.Proofs.Toml.SameValue
import WasmBuild.Proofs.Toml.Standing

/-!
# Which keys are warned about

Reading a manifest meets the keys of the document itself, and behind `output` and `project` those of
the output table and of each project table; values that are no such tables are not entered. A text
that loads is warned about once for each key that is met and not understood on its level, in the
order in which the keys are met. A date or time for `output` is taken for a table, though, and
warned about under a name that the document does not hold.
-/
namespace WasmBuild.Manifest

open Toml

/-- A key that is met on a level. -/
structure MetKey where
  level : Level
  key : Key
  deriving Repr, DecidableEq

/-- Whether a key that is met is understood on its level. -/
def MetKey.IsUnderstood (met : MetKey) : Prop := met.key.name ∈ met.level.keys

instance (met : MetKey) : Decidable met.IsUnderstood := inferInstanceAs (Decidable (_ ∈ _))

/-- The keys of a table, met on a level. Other values have none. -/
def metIn (level : Level) : Node → List MetKey
  | .table _ _ entries => entries.map fun entry => ⟨level, entry.1⟩
  | _ => []

/-- The keys that are met in the value of a key of the document. -/
def metBelow (entry : Key × Node) : List MetKey :=
  if entry.1.name = "output" then metIn .output entry.2
  else if entry.1.name = "project" then (entry.2.items?.getD []).flatMap (metIn .project)
  else []

/-- The keys that are met in a document, each before those in its value. -/
def metKeys (entries : Entries) : List MetKey :=
  entries.flatMap fun entry => ⟨.top, entry.1⟩ :: metBelow entry

/-- The keys among some that are not understood. -/
def misunderstood (keys : List MetKey) : List UnknownKey :=
  (keys.filter fun met => ¬ met.IsUnderstood).map fun met => .ofKey met.key

theorem misunderstood_append (keys more : List MetKey) :
    misunderstood (keys ++ more) = misunderstood keys ++ misunderstood more := by
  rw [misunderstood, List.filter_append, List.map_append]
  rfl

theorem misunderstood_flatMap {α : Type} (values : List α) (keys : α → List MetKey) :
    misunderstood (values.flatMap keys) =
      values.flatMap fun value => misunderstood (keys value) := by
  rw [misunderstood, List.filter_flatMap, List.map_flatMap]
  rfl

theorem misunderstood_singleton (level : Level) (entry : Key × Node) :
    misunderstood [⟨level, entry.1⟩] = unknownAt level entry := by
  by_cases known : entry.1.name ∈ level.keys <;>
    simp [misunderstood, MetKey.IsUnderstood, unknownAt, known]

theorem misunderstood_metIn (level : Level) (span? : Option Span) (form : TableForm)
    (entries : Entries) :
    misunderstood (metIn level (.table span? form entries)) =
      entries.flatMap (unknownAt level) := by
  simp only [metIn, List.map_eq_flatMap, misunderstood_flatMap, misunderstood_singleton]

/-- Whether an entry is a date or time where the output table should be. -/
def IsDatedOutput (entry : Key × Node) : Prop :=
  entry.1.name = "output" ∧ ∃ span, entry.2 = .dateTime span

theorem unknownOfOutput_eq {node : Node} (undated : ∀ span, node ≠ .dateTime span) :
    unknownOfOutput node = misunderstood (metIn .output node) := by
  cases node with
  | table span? form entries => exact (misunderstood_metIn .output span? form entries).symm
  | dateTime span => exact absurd rfl (undated span)
  | string | integer | float | boolean | array | tables => rfl

theorem unknownOfProject_eq (node : Node) :
    unknownOfProject node = misunderstood (metIn .project node) := by
  cases node with
  | table span? form entries => exact (misunderstood_metIn .project span? form entries).symm
  | string | integer | float | boolean | dateTime | array | tables => rfl

theorem unknownOfProjects_eq (node : Node) :
    unknownOfProjects node =
      misunderstood ((node.items?.getD []).flatMap (metIn .project)) := by
  rw [misunderstood_flatMap]
  cases node with
  | array span items => exact List.flatMap_congr fun item _ => unknownOfProject_eq item
  | tables items => exact List.flatMap_congr fun item _ => unknownOfProject_eq item
  | string | integer | float | boolean | dateTime | table => rfl

theorem unknownOfEntry_eq {entry : Key × Node} (undated : ¬ IsDatedOutput entry) :
    unknownOfEntry entry = misunderstood (⟨.top, entry.1⟩ :: metBelow entry) := by
  have split : misunderstood (⟨.top, entry.1⟩ :: metBelow entry) =
      unknownAt .top entry ++ misunderstood (metBelow entry) := by
    rw [← misunderstood_singleton, ← misunderstood_append, List.singleton_append]
  rw [split, unknownOfEntry, metBelow]
  by_cases output : entry.1.name = "output"
  · have known : unknownAt .top entry = [] := if_pos (by rw [output]; decide)
    have value : ∀ span, entry.2 ≠ .dateTime span := fun span dated => undated ⟨output, span, dated⟩
    rw [if_pos output, if_pos output, known, List.nil_append, unknownOfOutput_eq value]
  · by_cases project : entry.1.name = "project"
    · have known : unknownAt .top entry = [] := if_pos (by rw [project]; decide)
      rw [if_neg output, if_neg output, if_pos project, if_pos project, known, List.nil_append,
        unknownOfProjects_eq]
    · rw [if_neg output, if_neg output, if_neg project, if_neg project]
      exact (List.append_nil _).symm

/-- The unknown keys of entries without a date or time for the output table are the keys that are
met and not understood. -/
theorem unknownKeys_eq {entries : Entries} (undated : ∀ entry ∈ entries, ¬ IsDatedOutput entry) :
    unknownKeys entries = misunderstood (metKeys entries) := by
  rw [metKeys, misunderstood_flatMap, unknownKeys]
  exact List.flatMap_congr fun entry held => unknownOfEntry_eq (undated entry held)

/-- A date or time for the output table adds one unknown key, where its keys would be met. -/
theorem unknownKeys_dated {entry : Key × Node} (dated : IsDatedOutput entry)
    (earlier later : Entries) :
    unknownKeys (earlier ++ entry :: later) =
      unknownKeys earlier ++ .inDateTime :: unknownKeys later := by
  obtain ⟨output, span, value⟩ := dated
  have here : unknownOfEntry entry = [.inDateTime] := by
    rw [unknownOfEntry, if_pos output, value]
    rfl
  simp only [unknownKeys, List.flatMap_append, List.flatMap_cons, here, List.singleton_append]

/-- A name is what follows the last dot of a key. -/
def FollowsLastDot (name key : String) : Prop :=
  '.' ∉ name.toList ∧
    ∃ front, key.toList = front ++ name.toList ∧ (front = [] ∨ front.getLast? = some '.')

theorem followsLastDot_afterLastDot (key : String) : FollowsLastDot (afterLastDot key) key := by
  have rest : (afterLastDot key).toList = key.toList.rtakeWhile (· ≠ '.') := by
    rw [afterLastDot, String.toList_ofList, List.rtakeWhile]
  rw [FollowsLastDot, rest]
  refine ⟨fun member => ?_, key.toList.rdropWhile (· ≠ '.'),
    List.rdropWhile_append_rtakeWhile.symm, ?_⟩
  · simpa using List.mem_rtakeWhile_imp member
  · by_cases bare : key.toList.rdropWhile (· ≠ '.') = []
    · exact .inl bare
    · have dot := List.rdropWhile_last_not (· ≠ '.') key.toList bare
      rw [decide_not, Bool.not_eq_true', decide_eq_false_iff_not, not_not] at dot
      exact .inr (List.getLast?_eq_some_getLast bare ▸ congrArg some dot)

/-- The warnings about some unknown keys of a text, in their order. -/
def warningsOf (file : Path) (text : String) (unknown : List UnknownKey) : List Warning :=
  unknown.map (warningOf file text.toList)

/-- The warnings about a document are those about the keys that are met and not understood, and each
names what follows the last dot of its key. A date or time for the output table has one more warning
where the keys of that table would be met. -/
structure WarnsAbout (file : Path) (text : String) (entries : Entries) (warnings : List Warning) :
    Prop where
  undated : (∀ entry ∈ entries, ¬ IsDatedOutput entry) →
    warnings = warningsOf file text (misunderstood (metKeys entries))
  dated : ∀ earlier entry later, entries = earlier ++ entry :: later → IsDatedOutput entry →
    warnings = warningsOf file text (misunderstood (metKeys earlier)) ++
      warningOf file text.toList .inDateTime ::
        warningsOf file text (misunderstood (metKeys later))
  named : ∀ unknown, FollowsLastDot (warningOf file text.toList unknown).key unknown.name

/-- A text that loads is a document, and is warned about once for each key that is met and not
understood on its level, in the order in which the keys are met. A date or time for the output table
is the one exception. -/
theorem warnings_eq_misunderstood {file : Path} {text : String} {loaded : Loaded}
    (loads : ofText file text = .ok loaded) :
    ∃ entries, Toml.parse? text.toList = some entries ∧
      WarnsAbout file text entries loaded.warnings := by
  obtain ⟨entries, document, warnings⟩ := warnings_of_ofText loads
  have distinct := (parse?_keyed document).distinct
  refine ⟨entries, document, fun undated => ?_, fun earlier entry later split dated => ?_,
    fun unknown => followsLastDot_afterLastDot unknown.name⟩
  · rw [warnings, unknownKeys_eq undated, warningsOf]
  · subst split
    -- The keys of a document are distinct, so the date stands for the only output table.
    rw [Entries.names, List.map_append, List.map_cons, List.nodup_middle, List.nodup_cons,
      ← List.map_append, dated.1] at distinct
    have once : ∀ other ∈ earlier ++ later, other.1.name ≠ "output" := fun other held same =>
      distinct.1 (List.mem_map.2 ⟨other, held, same⟩)
    have undated (part : Entries) (inside : part ⊆ earlier ++ later) :
        unknownKeys part = misunderstood (metKeys part) :=
      unknownKeys_eq fun other held both => once other (inside held) both.1
    rw [warnings, unknownKeys_dated dated, List.map_append, List.map_cons,
      undated earlier (List.subset_append_left _ _), undated later (List.subset_append_right _ _),
      warningsOf, warningsOf]

/-- A manifest with keys that mean nothing on every level, whose values hold tables. -/
def oddKeys : String :=
  "colour = 1\n[output]\nverbosity = \"quiet\"\nshade = \x7b verbosity = 1 \x7d\n[[project]]\n" ++
    "name = \"t\"\n\"a.b\" = [\x7b name = 2 \x7d]\n[[project]]\nsize.dir = 3\nname = \"u\"\n"

def loadedOddKeys : Loaded where
  manifest := ⟨defaultOutputBase, .quiet, [⟨"t", ⟨[]⟩, none⟩, ⟨"u", ⟨[]⟩, none⟩]⟩
  warnings := [⟨"colour", defaultPath, some 1, none⟩, ⟨"shade", defaultPath, some 4, none⟩,
    ⟨"b", defaultPath, some 3, none⟩, ⟨"size", defaultPath, some 9, none⟩]

theorem ofText_oddKeys : ofText defaultPath oddKeys = .ok loadedOddKeys := by
  decide +kernel

theorem warnings_eq_misunderstood_every_level :
    ofText defaultPath oddKeys = .ok loadedOddKeys ∧
      ∃ entries, Toml.parse? oddKeys.toList = some entries ∧
        WarnsAbout defaultPath oddKeys entries loadedOddKeys.warnings :=
  ⟨ofText_oddKeys, warnings_eq_misunderstood ofText_oddKeys⟩

/-- A manifest whose output table is a date. -/
def datedOutput : String := "output = 2020-01-01\n[[project]]\nname = \"t\"\n"

def loadedDatedOutput : Loaded where
  manifest := ⟨defaultOutputBase, .normal, [⟨"t", ⟨[]⟩, none⟩]⟩
  warnings := [⟨"$__toml_private_datetime", defaultPath, none, none⟩]

/-- A key is warned about, but none that is met in the document is unknown. -/
theorem dated_output_warned_about :
    ofText defaultPath datedOutput = .ok loadedDatedOutput ∧
    (Toml.parse? datedOutput.toList).map (fun entries => misunderstood (metKeys entries)) =
      some [] := by
  decide +kernel

end WasmBuild.Manifest
