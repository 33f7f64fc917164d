import Mathlib.Tactic.SplitIfs
import WasmBuild.Manifest.Load
import WasmBuild.Proofs.Manifest.Entries

/-!
# The unknown keys of a manifest

A key is understood on one level of a manifest: at the top, in the output table, or in a project.
The unknown keys that reading a document notes are its keys that are not understood on the level
where they stand, in the order of the document.
-/
namespace WasmBuild.Manifest

open Toml

/-- The levels on which keys may stand. -/
inductive Level where
  | top
  | output
  | project
  deriving Repr, DecidableEq

/-- The keys that are understood on a level. -/
def Level.keys : Level → List String
  | top => ["output_base", "output", "project"]
  | output => ["verbosity"]
  | project => ["name", "sub_dir", "dir"]

/-- The keys that mean something somewhere are those that are understood on some level. -/
theorem mem_knownKeys_iff {name : String} :
    name ∈ knownKeys ↔ ∃ level : Level, name ∈ level.keys := by
  constructor
  · intro known
    have sorted : ∀ key ∈ knownKeys, key ∈ Level.top.keys ∨ key ∈ Level.output.keys ∨
        key ∈ Level.project.keys := by decide
    rcases sorted name known with top | output | project
    · exact ⟨.top, top⟩
    · exact ⟨.output, output⟩
    · exact ⟨.project, project⟩
  · rintro ⟨level, understood⟩
    have all : ∀ key ∈ level.keys, key ∈ knownKeys := by cases level <;> decide
    exact all name understood

/-- The unknown key that an entry has on a level, if its key is not understood there. -/
def unknownAt (level : Level) (entry : Key × Node) : List UnknownKey :=
  if entry.1.name ∈ level.keys then [] else [.ofKey entry.1]

def unknownOfOutput : Node → List UnknownKey
  | .table _ _ entries => entries.flatMap (unknownAt .output)
  | .dateTime _ => [.inDateTime]
  | _ => []

def unknownOfProject : Node → List UnknownKey
  | .table _ _ entries => entries.flatMap (unknownAt .project)
  | _ => []

def unknownOfProjects : Node → List UnknownKey
  | .array _ items | .tables items => items.flatMap unknownOfProject
  | _ => []

/-- The unknown keys that one entry of a document contributes. -/
def unknownOfEntry (entry : Key × Node) : List UnknownKey :=
  if entry.1.name = "output" then unknownOfOutput entry.2
  else if entry.1.name = "project" then unknownOfProjects entry.2
  else unknownAt .top entry

/-- The unknown keys of a document, in the order in which they are met. -/
def unknownKeys (entries : Entries) : List UnknownKey := entries.flatMap unknownOfEntry

theorem unknown_of_readOutputEntry (key : Key) (node : Node) (noted result : Noted Verbosity)
    (reads : readOutputEntry key node noted = .ok result) :
    result.unknown = noted.unknown ++ unknownAt .output (key, node) := by
  unfold readOutputEntry at reads
  split_ifs at reads with name
  · obtain ⟨level, -, rfl⟩ := Noted.set_eq_ok_iff.1 reads
    simp [unknownAt, name, Level.keys]
  · obtain rfl := Except.ok.inj reads
    simp [unknownAt, name, Level.keys, Noted.note]

theorem unknown_of_readOutput {node : Node} {result : Noted Verbosity}
    (reads : readOutput node = .ok result) : result.unknown = unknownOfOutput node := by
  unfold readOutput at reads
  split at reads
  · exact unknown_of_readEntries _ unknown_of_readOutputEntry reads
  · exact Except.ok.inj reads ▸ rfl
  · split at reads
    · exact Except.ok.inj reads ▸ rfl
    · split at reads
      · exact Except.ok.inj reads ▸ rfl
      · contradiction
  · split at reads
    · exact Except.ok.inj reads ▸ rfl
    · split at reads
      · exact Except.ok.inj reads ▸ rfl
      · contradiction
  · contradiction

theorem unknown_of_readProjectField (key : Key) (node : Node) (noted result : Noted EntryDraft)
    (reads : readProjectField key node noted = .ok result) :
    result.unknown = noted.unknown ++ unknownAt .project (key, node) := by
  unfold readProjectField at reads
  split_ifs at reads with name subDir dir
  · obtain ⟨text, -, rfl⟩ := Noted.set_eq_ok_iff.1 reads
    simp [unknownAt, name, Level.keys]
  · obtain ⟨path, -, rfl⟩ := Noted.set_eq_ok_iff.1 reads
    simp [unknownAt, subDir, Level.keys]
  · obtain ⟨path, -, rfl⟩ := Noted.set_eq_ok_iff.1 reads
    simp [unknownAt, dir, Level.keys]
  · obtain rfl := Except.ok.inj reads
    simp [unknownAt, name, subDir, dir, Level.keys, Noted.note]

theorem unknown_of_readProject {node : Node} {result : Noted ProjectEntry}
    (reads : readProject node = .ok result) : result.unknown = unknownOfProject node := by
  unfold readProject at reads
  split at reads
  · split at reads
    · next noted read =>
        unfold EntryDraft.finish at reads
        split at reads
        · obtain rfl := Except.ok.inj reads
          exact unknown_of_readEntries _ unknown_of_readProjectField read
        · contradiction
    · contradiction
  · split at reads
    · exact Except.ok.inj reads ▸ rfl
    · contradiction
  · contradiction
  · contradiction

theorem unknown_of_readProjectList {items : List Node} {result : Noted (List ProjectEntry)}
    (reads : readProjectList items = .ok result) :
    result.unknown = items.flatMap unknownOfProject := by
  induction items generalizing result with
  | nil => exact Except.ok.inj reads ▸ rfl
  | cons node rest ih =>
      rw [readProjectList] at reads
      split at reads
      · contradiction
      · next first read =>
          split at reads
          · contradiction
          · next others more =>
              obtain rfl := Except.ok.inj reads
              simp only [List.flatMap_cons, unknown_of_readProject read, ih more]

theorem unknown_of_readProjects {node : Node} {result : Noted (List ProjectEntry)}
    (reads : readProjects node = .ok result) : result.unknown = unknownOfProjects node := by
  unfold readProjects at reads
  split at reads
  · exact unknown_of_readProjectList reads
  · exact unknown_of_readProjectList reads
  · contradiction

theorem unknown_of_readEntry (key : Key) (node : Node) (noted result : Noted Manifest)
    (reads : readEntry key node noted = .ok result) :
    result.unknown = noted.unknown ++ unknownOfEntry (key, node) := by
  unfold readEntry at reads
  rw [unknownOfEntry, unknownAt]
  split_ifs at reads with outputBase output project
  · obtain ⟨path, -, rfl⟩ := Noted.set_eq_ok_iff.1 reads
    simp [outputBase, Level.keys]
  · obtain ⟨inner, read, rfl⟩ := Noted.merge_eq_ok_iff.1 reads
    rw [if_pos output, unknown_of_readOutput read]
  · obtain ⟨inner, read, rfl⟩ := Noted.merge_eq_ok_iff.1 reads
    rw [if_neg output, if_pos project, unknown_of_readProjects read]
  · obtain rfl := Except.ok.inj reads
    simp [outputBase, output, project, Level.keys, Noted.note]

/-- The unknown keys that reading a document notes are the unknown keys of the document. -/
theorem unknown_of_ofEntries {entries : Entries} {result : Noted Manifest}
    (reads : ofEntries entries = .ok result) : result.unknown = unknownKeys entries :=
  unknown_of_readEntries _ unknown_of_readEntry reads

/-- A text that loads is a document with the warnings about its unknown keys. -/
theorem warnings_of_ofText {file : Path} {text : String} {loaded : Loaded}
    (loads : ofText file text = .ok loaded) :
    ∃ entries, Toml.parse? text.toList = some entries ∧
      loaded.warnings = (unknownKeys entries).map (warningOf file text.toList) := by
  unfold ofText at loads
  split at loads
  · contradiction
  · next entries document =>
      split at loads
      · contradiction
      · next noted shape =>
          obtain rfl := Except.ok.inj loads
          exact ⟨entries, document, congrArg _ (unknown_of_ofEntries shape)⟩

section Standing

variable {kind : Key → Prop} {entries : Entries} {unknown : UnknownKey}

/-- An unknown key that is written somewhere is a key of some kind. -/
def UnknownKey.IsOf (kind : Key → Prop) (unknown : UnknownKey) : Prop :=
  ∀ span, unknown.span? = some span → ∃ key, kind key ∧ unknown = .ofKey key

theorem isOf_of_mem_unknownAt {level : Level} {entry : Key × Node} (fits : kind entry.1)
    (member : unknown ∈ unknownAt level entry) : unknown.IsOf kind := by
  unfold unknownAt at member
  split at member
  · contradiction
  · obtain rfl := List.mem_singleton.1 member
    exact fun _ _ => ⟨entry.1, fits, rfl⟩

theorem isOf_of_mem_flatMap {level : Level} (keyed : entries.Keyed kind)
    (member : unknown ∈ entries.flatMap (unknownAt level)) : unknown.IsOf kind := by
  obtain ⟨entry, held, member⟩ := List.mem_flatMap.1 member
  exact isOf_of_mem_unknownAt (keyed.kinds entry held) member

theorem isOf_of_mem_unknownOfOutput {node : Node} (keyed : node.Keyed kind)
    (member : unknown ∈ unknownOfOutput node) : unknown.IsOf kind := by
  unfold unknownOfOutput at member
  split at member
  · exact isOf_of_mem_flatMap (Node.keyed_table_iff.1 keyed) member
  · obtain rfl := List.mem_singleton.1 member
    exact nofun
  · contradiction

theorem isOf_of_mem_unknownOfProjects {node : Node} (keyed : node.Keyed kind)
    (member : unknown ∈ unknownOfProjects node) : unknown.IsOf kind := by
  have single {item : Node} (keyed : item.Keyed kind) (member : unknown ∈ unknownOfProject item) :
      unknown.IsOf kind := by
    unfold unknownOfProject at member
    split at member
    · exact isOf_of_mem_flatMap (Node.keyed_table_iff.1 keyed) member
    · contradiction
  cases keyed with
  | array inside =>
      obtain ⟨item, held, member⟩ := List.mem_flatMap.1 member
      exact single (inside item held) member
  | tables inside =>
      obtain ⟨item, held, member⟩ := List.mem_flatMap.1 member
      exact single (inside item held) member
  | string | integer | float | boolean | dateTime | table => contradiction

/-- The unknown keys of a document are keys of the document. -/
theorem isOf_of_mem_unknownKeys (keyed : entries.Keyed kind)
    (member : unknown ∈ unknownKeys entries) : unknown.IsOf kind := by
  obtain ⟨entry, held, member⟩ := List.mem_flatMap.1 member
  unfold unknownOfEntry at member
  split_ifs at member
  · exact isOf_of_mem_unknownOfOutput (keyed.inside entry held) member
  · exact isOf_of_mem_unknownOfProjects (keyed.inside entry held) member
  · exact isOf_of_mem_unknownAt (keyed.kinds entry held) member

end Standing
end WasmBuild.Manifest
