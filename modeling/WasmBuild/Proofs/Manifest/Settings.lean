import WasmBuild.Proofs.Manifest.Entries

/-!
# Settings

A setting is a part of a value that the key of one name sets. Reading a table is governed by its
settings: what is read from a table with distinct keys is determined by what looking up their names
gives, and the reading succeeds exactly where each of them can be read. The output table, a project
and a manifest are each governed by the settings of their level.
-/
namespace WasmBuild.Manifest

open Toml

variable {α β : Type}

/-- The value of a reading that succeeds. -/
def settled? (read : Except Fault (Noted α)) : Option α := read.toOption.map Noted.value

theorem settled?_eq_some_iff {read : Except Fault (Noted α)} {value : α} :
    settled? read = some value ↔ ∃ noted, read = .ok noted ∧ noted.value = value := by
  cases read <;> simp [settled?, Except.toOption]

theorem settled?_ok (noted : Noted α) : settled? (.ok noted) = some noted.value := rfl

theorem settled?_set (noted : Noted α) (change : α → β → α) (read : Except Fault β) :
    settled? (noted.set change read) = read.toOption.map (change noted.value) := by
  cases read <;> rfl

theorem settled?_merge (noted : Noted α) (change : α → β → α) (read : Except Fault (Noted β)) :
    settled? (noted.merge change read) = (settled? read).map (change noted.value) := by
  cases read <;> rfl

/-- A part of a value that the key of one name sets, and how the value of that key is read. -/
structure Setting (α : Type) where
  Content : Type
  name : String
  part : α → Content
  change : α → Content → α
  field : Node → Option Content

theorem forall_mem_triple {holds : Setting α → Prop} {first second third : Setting α}
    (one : holds first) (two : holds second) (three : holds third) :
    ∀ s ∈ [first, second, third], holds s :=
  List.forall_mem_cons.2 ⟨one, List.forall_mem_cons.2 ⟨two, List.forall_mem_singleton.2 three⟩⟩

/-- What a setting is in a table. -/
def Setting.valueIn (setting : Setting α) (entries : Entries) (start : α) :
    Option setting.Content :=
  lookedUp entries setting.name (setting.part start) setting.field

/-- Reading a table entry by entry is governed by some settings: the key of a setting changes its
part and no other, every other key changes nothing, and the parts are the whole value. -/
structure Governs (read : Key → Node → Noted α → Except Fault (Noted α))
    (settings : List (Setting α)) : Prop where
  known : ∀ s ∈ settings, ∀ key node noted, key.name = s.name →
    settled? (read key node noted) = (s.field node).map (s.change noted.value)
  unknown : ∀ key node noted, (∀ s ∈ settings, key.name ≠ s.name) →
    settled? (read key node noted) = some noted.value
  own : ∀ s ∈ settings, ∀ value content, s.part (s.change value content) = content
  other : ∀ s ∈ settings, ∀ t ∈ settings, s.name ≠ t.name →
    ∀ value content, t.part (s.change value content) = t.part value
  determined : ∀ value value', (∀ s ∈ settings, s.part value = s.part value') → value = value'

namespace Governs

variable {read : Key → Node → Noted α → Except Fault (Noted α)} {settings : List (Setting α)}
  {entries entries' : Entries} {start value : α}

/-- The key of a setting, read, has changed the part of the setting. -/
theorem exists_change (governs : Governs read settings) {s : Setting α} (declared : s ∈ settings)
    {key : Key} {node : Node} {noted result : Noted α} (own : key.name = s.name)
    (reads : read key node noted = .ok result) :
    ∃ content, s.field node = some content ∧ s.change noted.value content = result.value := by
  have step := governs.known s declared key node noted own
  rw [reads, settled?_ok] at step
  exact Option.map_eq_some_iff.1 step.symm

theorem fills (governs : Governs read settings) {s : Setting α} (declared : s ∈ settings) :
    Fills read s.name s.part s.field where
  own key node noted result own reads := by
    obtain ⟨content, holds, changed⟩ := governs.exists_change declared own reads
    rw [holds, ← changed, governs.own s declared]
  other key node noted result other reads := by
    by_cases known : ∃ t ∈ settings, key.name = t.name
    · obtain ⟨t, declared', own⟩ := known
      obtain ⟨content, -, changed⟩ := governs.exists_change declared' own reads
      rw [← changed, governs.other t declared' s declared (own ▸ other)]
    · have step := governs.unknown key node noted fun t declared' own => known ⟨t, declared', own⟩
      rw [reads, settled?_ok, Option.some.injEq] at step
      rw [step]

theorem accepts (governs : Governs read settings) {key : Key} {node : Node} (noted : Noted α)
    (each : ∀ s ∈ settings, key.name = s.name → (s.field node).isSome) :
    ∃ next, read key node noted = .ok next := by
  have step : (settled? (read key node noted)).isSome := by
    by_cases known : ∃ s ∈ settings, key.name = s.name
    · obtain ⟨s, declared, own⟩ := known
      rw [governs.known s declared key node noted own, Option.isSome_map]
      exact each s declared own
    · rw [governs.unknown key node noted fun s declared own => known ⟨s, declared, own⟩]
      rfl
  obtain ⟨value, settled⟩ := Option.isSome_iff_exists.1 step
  obtain ⟨next, reads, -⟩ := settled?_eq_some_iff.1 settled
  exact ⟨next, reads⟩

/-- A table whose settings can be read can be read. -/
theorem exists_readEntries (governs : Governs read settings) (distinct : entries.names.Nodup)
    (each : ∀ s ∈ settings, (s.valueIn entries start).isSome) :
    ∃ result, readEntries read entries (.clean start) = .ok result := by
  refine Manifest.exists_readEntries (fun entry member noted => ?_) (.clean start)
  refine governs.accepts noted fun s declared own => ?_
  have found : entries.find? s.name = some entry.2 := own ▸ Entries.find?_of_mem distinct member
  have content := each s declared
  rwa [Setting.valueIn, lookedUp, found] at content

theorem settled?_of_same (governs : Governs read settings) (distinct : entries.names.Nodup)
    (distinct' : entries'.names.Nodup)
    (same : ∀ s ∈ settings, s.valueIn entries start = s.valueIn entries' start)
    (settled : settled? (readEntries read entries (.clean start)) = some value) :
    settled? (readEntries read entries' (.clean start)) = some value := by
  obtain ⟨noted, reads, rfl⟩ := settled?_eq_some_iff.1 settled
  have parts (s : Setting α) (declared : s ∈ settings) :
      s.valueIn entries start = some (s.part noted.value) :=
    (governs.fills declared).lookedUp distinct reads
  -- The settings of the first table were read, and those of the second are the same.
  obtain ⟨noted', reads'⟩ := governs.exists_readEntries distinct' fun s declared => by
    rw [← same s declared, parts s declared, Option.isSome_some]
  refine settled?_eq_some_iff.2 ⟨noted', reads', governs.determined _ _ fun s declared => ?_⟩
  have part' : s.valueIn entries' start = some (s.part noted'.value) :=
    (governs.fills declared).lookedUp distinct' reads'
  rw [← same s declared, parts s declared] at part'
  exact (Option.some.inj part').symm

/-- Tables with the same settings are read alike. -/
theorem settled?_congr (governs : Governs read settings) (distinct : entries.names.Nodup)
    (distinct' : entries'.names.Nodup)
    (same : ∀ s ∈ settings, s.valueIn entries start = s.valueIn entries' start) :
    settled? (readEntries read entries (.clean start)) =
      settled? (readEntries read entries' (.clean start)) := by
  refine Option.ext fun value => ⟨governs.settled?_of_same distinct distinct' same, ?_⟩
  exact governs.settled?_of_same distinct' distinct fun s declared => (same s declared).symm

end Governs

def outputSettings : List (Setting Verbosity) :=
  [⟨Verbosity, "verbosity", id, fun _ level => level, fun node => (readVerbosity node).toOption⟩]

theorem output_governs : Governs readOutputEntry outputSettings where
  known := by
    refine List.forall_mem_singleton.2 fun key node noted own => ?_
    rw [readOutputEntry, if_pos own, settled?_set]
  unknown key node noted foreign := by
    rw [readOutputEntry, if_neg (foreign _ (.head _))]
    rfl
  own := by simp [outputSettings]
  other := by simp [outputSettings]
  determined value value' same := same _ (.head _)

def projectSettings : List (Setting EntryDraft) :=
  [⟨Option String, "name", EntryDraft.name?, fun d name? => { d with name? := name? },
      fun node => (readString .text node).toOption.map some⟩,
    ⟨Path, "sub_dir", EntryDraft.subDir, fun d path => { d with subDir := path },
      fun node => (readPath node).toOption⟩,
    ⟨Option Path, "dir", EntryDraft.dir?, fun d path? => { d with dir? := path? },
      fun node => (readPath node).toOption.map some⟩]

theorem project_governs : Governs readProjectField projectSettings where
  known := by
    refine forall_mem_triple (fun key node noted own => ?_) (fun key node noted own => ?_)
      fun key node noted own => ?_
    · simp [readProjectField, own, settled?_set, Function.comp_def]
    · simp [readProjectField, own, settled?_set]
    · simp [readProjectField, own, settled?_set, Function.comp_def]
  unknown key node noted foreign := by
    simp only [projectSettings, List.forall_mem_cons] at foreign
    simp [readProjectField, foreign, Noted.note, settled?_ok]
  own := by simp [projectSettings]
  other := by simp [projectSettings]
  determined value value' same := by
    simp only [projectSettings, List.forall_mem_cons] at same
    cases value
    cases value'
    simpa using same

theorem settled?_readProject (span? : Option Span) (form : TableForm) (entries : Entries) :
    settled? (readProject (.table span? form entries)) =
      (settled? (readEntries readProjectField entries (.clean .blank))).bind fun draft =>
        draft.name?.map fun name => ⟨name, draft.subDir, draft.dir?⟩ := by
  rw [readProject]
  cases readEntries readProjectField entries (.clean .blank) with
  | error fault => rfl
  | ok noted =>
      dsimp only
      rw [EntryDraft.finish, settled?_ok, Option.bind_some]
      cases noted.value.name? <;> rfl

theorem settled?_readProjectList_cons (node : Node) (rest : List Node) :
    settled? (readProjectList (node :: rest)) =
      (settled? (readProject node)).bind fun first =>
        (settled? (readProjectList rest)).map fun others => first :: others := by
  rw [readProjectList]
  cases readProject node with
  | error fault => rfl
  | ok first => cases readProjectList rest <;> rfl

/-- The settings of a manifest. -/
def manifestSettings : List (Setting Manifest) :=
  [⟨Path, "output_base", Manifest.outputBase, fun m path => { m with outputBase := path },
      fun node => (readPath node).toOption⟩,
    ⟨Verbosity, "output", Manifest.verbosity, fun m level => { m with verbosity := level },
      fun node => settled? (readOutput node)⟩,
    ⟨List ProjectEntry, "project", Manifest.projects,
      fun m projects => { m with projects := projects }, fun node => settled? (readProjects node)⟩]

theorem manifest_governs : Governs readEntry manifestSettings where
  known := by
    refine forall_mem_triple (fun key node noted own => ?_) (fun key node noted own => ?_)
      fun key node noted own => ?_
    · simp [readEntry, own, settled?_set]
    · simp [readEntry, own, settled?_merge]
    · simp [readEntry, own, settled?_merge]
  unknown key node noted foreign := by
    simp only [manifestSettings, List.forall_mem_cons] at foreign
    simp [readEntry, foreign, Noted.note, settled?_ok]
  own := by simp [manifestSettings]
  other := by simp [manifestSettings]
  determined value value' same := by
    simp only [manifestSettings, List.forall_mem_cons] at same
    cases value
    cases value'
    simpa using same

end WasmBuild.Manifest
