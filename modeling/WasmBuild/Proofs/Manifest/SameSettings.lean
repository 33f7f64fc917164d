import WasmBuild.Manifest.Load
import WasmBuild.Proofs.Manifest.Settings
import WasmBuild.Proofs.Manifest.UnknownKeys
import WasmBuild.Proofs.Toml.SameValue
import WasmBuild.Proofs.Toml.Standing

/-!
# Manifests with the same settings

A manifest depends on the values of the keys that are understood, and on nothing else: not on other
keys, not on the order of keys, and not on the places and forms in which values are written.
-/
namespace WasmBuild.Manifest

open Toml

variable {α β : Type} {kind kind' : Key → Prop}

section Fields

variable {node node' : Node}

/-- The same value is read as the same text, or not at all. -/
theorem readString_congr (expected : Expected) (same : node.SameValue node') :
    (readString expected node).toOption = (readString expected node').toOption := by
  cases same with
  | string | integer | float | boolean | dateTime | table => rfl
  | list isList isList' _ =>
      obtain ⟨_, rfl⟩ | rfl := Node.items?_eq_some_iff.1 isList <;>
      obtain ⟨_, rfl⟩ | rfl := Node.items?_eq_some_iff.1 isList' <;> rfl

theorem readPath_toOption (node : Node) :
    (readPath node).toOption = (readString .path node).toOption.map Path.ofString := by
  rw [readPath]
  cases readString .path node <;> rfl

theorem readPath_congr (same : node.SameValue node') :
    (readPath node).toOption = (readPath node').toOption := by
  rw [readPath_toOption, readPath_toOption, readString_congr .path same]

theorem placedAt_toOption (span? : Option Span) (read : Except Fault β) :
    (placedAt span? read).toOption = read.toOption := by
  cases read <;> rfl

theorem readLevelName_toOption (word : String) (span : Span) :
    (readLevelName word span).toOption = Verbosity.ofName? word := by
  rw [readLevelName]
  cases Verbosity.ofName? word <;> rfl

theorem readVerbosity_single_toOption (span? : Option Span) (form : TableForm) (key : Key)
    (node : Node) :
    (readVerbosity (.table span? form [(key, node)])).toOption =
      (Verbosity.ofName? key.name).bind fun level =>
        (checkEmpty node).toOption.map fun _ => level := by
  rw [← readLevelName_toOption key.name key.span, ← placedAt_toOption span? (checkEmpty node),
    readVerbosity]
  cases readLevelName key.name key.span with
  | error fault => rfl
  | ok level => cases placedAt span? (checkEmpty node) <;> rfl

theorem checkEmpty_table_toOption (span? : Option Span) (form : TableForm) (entries : Entries) :
    (checkEmpty (.table span? form entries)).toOption =
      if entries.length = 0 then some () else none := by
  rw [checkEmpty]
  cases entries <;> rfl

theorem checkEmpty_congr (keyed : node.Keyed kind) (keyed' : node'.Keyed kind')
    (same : node.SameValue node') :
    (checkEmpty node).toOption = (checkEmpty node').toOption := by
  cases same with
  | string | integer | float | boolean | dateTime => rfl
  | list isList isList' each =>
      obtain ⟨_, rfl⟩ | rfl := Node.items?_eq_some_iff.1 isList <;>
      obtain ⟨_, rfl⟩ | rfl := Node.items?_eq_some_iff.1 isList' <;> cases each <;> rfl
  | table _ _ _ _ each =>
      have names := Entries.names_perm (Node.keyed_table_iff.1 keyed).distinct
        (Node.keyed_table_iff.1 keyed').distinct each
      rw [checkEmpty_table_toOption, checkEmpty_table_toOption, Entries.length_eq_of_perm names]

/-- The same value is read as the same level, or not at all. -/
theorem readVerbosity_congr (keyed : node.Keyed kind) (keyed' : node'.Keyed kind')
    (same : node.SameValue node') :
    (readVerbosity node).toOption = (readVerbosity node').toOption := by
  cases same with
  | string span span' word =>
      rw [readVerbosity, readVerbosity, readLevelName_toOption, readLevelName_toOption]
  | integer | float | boolean | dateTime => rfl
  | list isList isList' each =>
      obtain ⟨_, rfl⟩ | rfl := Node.items?_eq_some_iff.1 isList <;>
      obtain ⟨_, rfl⟩ | rfl := Node.items?_eq_some_iff.1 isList' <;> rfl
  | @table _ _ _ _ entries entries' each =>
      have names := Entries.names_perm (Node.keyed_table_iff.1 keyed).distinct
        (Node.keyed_table_iff.1 keyed').distinct each
      have size := Entries.length_eq_of_perm names
      -- Only a table with a single key can be a level, and its value has to be empty.
      match entries, entries', size with
      | [], [], _ => rfl
      | [(key, node)], [(key', node')], _ =>
          obtain sameName : key.name = key'.name := by simpa [Entries.names] using names
          have both := each key.name
          simp only [Entries.find?_cons, ← sameName, if_true] at both
          cases both with
          | some same =>
              have inside := (Node.keyed_table_iff.1 keyed).inside _ (.head _)
              have inside' := (Node.keyed_table_iff.1 keyed').inside _ (.head _)
              rw [readVerbosity_single_toOption, readVerbosity_single_toOption, ← sameName,
                checkEmpty_congr inside inside' same]
      | _ :: _ :: _, _ :: _ :: _, _ => rfl

end Fields

section Tables

variable {entries entries' : Entries}

/-- Tables that agree at a name have the same setting of that name. -/
theorem Setting.valueIn_congr (setting : Setting α) (start : α) (keyed : entries.Keyed kind)
    (keyed' : entries'.Keyed kind') {alike : Node → Node → Prop}
    (both : Option.Rel alike (entries.find? setting.name) (entries'.find? setting.name))
    (congr : ∀ node node', node.Keyed kind → node'.Keyed kind' → alike node node' →
      setting.field node = setting.field node') :
    setting.valueIn entries start = setting.valueIn entries' start := by
  have inside (node : Node) : entries.find? setting.name = some node → node.Keyed kind :=
    keyed.find?
  have inside' (node : Node) : entries'.find? setting.name = some node → node.Keyed kind' :=
    keyed'.find?
  rw [valueIn, valueIn, lookedUp, lookedUp]
  generalize entries.find? setting.name = found at both inside
  generalize entries'.find? setting.name = found' at both inside'
  cases both with
  | none => rfl
  | some same => exact congr _ _ (inside _ rfl) (inside' _ rfl) same

/-- Output tables that agree on the keys of the output table are read alike. -/
theorem readOutput_congr {node node' : Node} (keyed : node.Keyed kind) (keyed' : node'.Keyed kind')
    (same : node.SameTable Level.output.keys node') :
    settled? (readOutput node) = settled? (readOutput node') := by
  obtain ⟨_, _, _, _, same⟩ := same
  have keyed := Node.keyed_table_iff.1 keyed
  have keyed' := Node.keyed_table_iff.1 keyed'
  rw [readOutput, readOutput]
  refine output_governs.settled?_congr keyed.distinct keyed'.distinct ?_
  refine List.forall_mem_singleton.2 ?_
  refine Setting.valueIn_congr _ _ keyed keyed' (same _ (.head _)) ?_
  exact fun node node' => readVerbosity_congr

/-- Project tables that agree on the keys of a project are read alike. -/
theorem readProject_congr {node node' : Node} (keyed : node.Keyed kind) (keyed' : node'.Keyed kind')
    (same : node.SameTable Level.project.keys node') :
    settled? (readProject node) = settled? (readProject node') := by
  obtain @⟨_, _, _, _, entries, entries', same⟩ := same
  have keyed := Node.keyed_table_iff.1 keyed
  have keyed' := Node.keyed_table_iff.1 keyed'
  have drafts : settled? (readEntries readProjectField entries (.clean .blank)) =
      settled? (readEntries readProjectField entries' (.clean .blank)) := by
    refine project_governs.settled?_congr keyed.distinct keyed'.distinct ?_
    refine forall_mem_triple ?_ ?_ ?_
    · refine Setting.valueIn_congr _ _ keyed keyed' (same _ (.head _))
        fun node node' _ _ alike => ?_
      exact congrArg (Option.map some) (readString_congr .text alike)
    · refine Setting.valueIn_congr _ _ keyed keyed' (same _ (.tail _ (.head _))) ?_
      exact fun node node' _ _ alike => readPath_congr alike
    · refine Setting.valueIn_congr _ _ keyed keyed' (same _ (.tail _ (.tail _ (.head _)))) ?_
      exact fun node node' _ _ alike => congrArg (Option.map some) (readPath_congr alike)
  rw [settled?_readProject, settled?_readProject, drafts]

theorem readProjectList_congr {items items' : List Node} (keyed : ∀ item ∈ items, item.Keyed kind)
    (keyed' : ∀ item ∈ items', item.Keyed kind')
    (same : List.Forall₂ (Node.SameTable Level.project.keys) items items') :
    settled? (readProjectList items) = settled? (readProjectList items') := by
  induction same with
  | nil => rfl
  | cons first _ ih =>
      obtain ⟨inside, keyed⟩ := List.forall_mem_cons.1 keyed
      obtain ⟨inside', keyed'⟩ := List.forall_mem_cons.1 keyed'
      rw [settled?_readProjectList_cons, settled?_readProjectList_cons,
        readProject_congr inside inside' first, ih keyed keyed']

theorem readProjects_of_items? {node : Node} {items : List Node}
    (isList : node.items? = some items) : readProjects node = readProjectList items := by
  obtain ⟨_, rfl⟩ | rfl := Node.items?_eq_some_iff.1 isList <;> rfl

/-- The projects of a document, if they are a list. A document without projects has none. -/
def projectItems? (entries : Entries) : Option (List Node) :=
  match entries.find? "project" with
  | none => some []
  | some node => node.items?

end Tables

/-- Two documents agree on what is understood: on the base of the outputs, on whether there is an
output table and on the level in it, and on the settings of the projects, which are tables, one by
one. -/
structure SameSettings (entries entries' : Entries) : Prop where
  outputBase : entries.SameAt ["output_base"] entries'
  output : Option.Rel (Node.SameTable Level.output.keys)
    (entries.find? "output") (entries'.find? "output")
  projects : ∃ items items', projectItems? entries = some items ∧
    projectItems? entries' = some items' ∧
    List.Forall₂ (Node.SameTable Level.project.keys) items items'

section Documents

variable {entries entries' : Entries}

/-- The projects of a document, as read, where they are a list. -/
theorem lookedUp_projects {items : List Node} (areItems : projectItems? entries = some items) :
    lookedUp entries "project" [] (fun node => settled? (readProjects node)) =
      settled? (readProjectList items) := by
  unfold projectItems? at areItems
  rw [lookedUp]
  cases found : entries.find? "project" with
  | none =>
      rw [found] at areItems
      obtain rfl := Option.some.inj areItems
      rfl
  | some node =>
      rw [found] at areItems
      exact congrArg settled? (readProjects_of_items? areItems)

theorem keyed_of_projectItems? (keyed : entries.Keyed kind) {items : List Node}
    (areItems : projectItems? entries = some items) : ∀ item ∈ items, item.Keyed kind := by
  unfold projectItems? at areItems
  cases found : entries.find? "project" with
  | none =>
      rw [found] at areItems
      obtain rfl := Option.some.inj areItems
      exact nofun
  | some node =>
      rw [found] at areItems
      exact (keyed.find? found).of_items? areItems

/-- Documents that agree on what is understood are read alike. -/
theorem ofEntries_congr (keyed : entries.Keyed kind) (keyed' : entries'.Keyed kind')
    (same : SameSettings entries entries') :
    settled? (ofEntries entries) = settled? (ofEntries entries') := by
  refine manifest_governs.settled?_congr keyed.distinct keyed'.distinct ?_
  refine forall_mem_triple ?_ ?_ ?_
  · refine Setting.valueIn_congr _ _ keyed keyed' (same.outputBase _ (.head _)) ?_
    exact fun node node' _ _ alike => readPath_congr alike
  · refine Setting.valueIn_congr _ _ keyed keyed' same.output ?_
    exact fun node node' => readOutput_congr
  · obtain ⟨items, items', areItems, areItems', each⟩ := same.projects
    calc
      _ = settled? (readProjectList items) := lookedUp_projects areItems
      _ = settled? (readProjectList items') :=
        readProjectList_congr (keyed_of_projectItems? keyed areItems)
          (keyed_of_projectItems? keyed' areItems') each
      _ = _ := (lookedUp_projects areItems').symm

theorem exists_ofText_iff {file : Path} {text : String} {value : Manifest}
    (document : Toml.parse? text.toList = some entries) :
    (∃ loaded, ofText file text = .ok loaded ∧ loaded.manifest = value) ↔
      settled? (ofEntries entries) = some value := by
  rw [ofText, document, settled?_eq_some_iff]
  cases shape : ofEntries entries <;> simp [shape]

end Documents

/-- What a manifest is depends only on the keys that are understood. Of two documents that agree on
them, one loads exactly if the other does, and then both give the same manifest, whatever other keys
they hold and in whatever order the keys of a table stand. -/
theorem manifest_of_sameSettings (file file' : Path) {text text' : String}
    {entries entries' : Entries} (document : Toml.parse? text.toList = some entries)
    (document' : Toml.parse? text'.toList = some entries') (same : SameSettings entries entries') :
    ((∃ loaded, ofText file text = .ok loaded) ↔ ∃ loaded, ofText file' text' = .ok loaded) ∧
    ∀ loaded loaded', ofText file text = .ok loaded → ofText file' text' = .ok loaded' →
      loaded.manifest = loaded'.manifest := by
  have settled := ofEntries_congr (parse?_keyed document) (parse?_keyed document') same
  have alike (value : Manifest) :
      (∃ loaded, ofText file text = .ok loaded ∧ loaded.manifest = value) ↔
        ∃ loaded, ofText file' text' = .ok loaded ∧ loaded.manifest = value := by
    rw [exists_ofText_iff document, exists_ofText_iff document', settled]
  refine ⟨⟨fun ⟨loaded, loads⟩ => ?_, fun ⟨loaded, loads⟩ => ?_⟩,
    fun loaded loaded' loads loads' => ?_⟩
  · obtain ⟨loaded', loads', -⟩ := (alike _).1 ⟨loaded, loads, rfl⟩
    exact ⟨loaded', loads'⟩
  · obtain ⟨loaded', loads', -⟩ := (alike _).2 ⟨loaded, loads, rfl⟩
    exact ⟨loaded', loads'⟩
  · obtain ⟨again, reloads, manifest⟩ := (alike _).1 ⟨loaded, loads, rfl⟩
    obtain rfl := Except.ok.inj (loads'.symm.trans reloads)
    exact manifest.symm

/-- A manifest with settings on every level. -/
def plainText : String :=
  "output_base = \"out\"\n[output]\nverbosity = \"quiet\"\n[[project]]\nname = \"t\"\ndir = \"c\"\n"

def plainEntries : Entries :=
  [(⟨"output_base", ⟨0, 11⟩⟩, .string ⟨14, 19⟩ "out"),
    (⟨"output", ⟨21, 27⟩⟩, .table (some ⟨20, 48⟩) .header
      [(⟨"verbosity", ⟨29, 38⟩⟩, .string ⟨41, 48⟩ "quiet")]),
    (⟨"project", ⟨51, 58⟩⟩, .tables [.table (some ⟨49, 81⟩) .header
      [(⟨"name", ⟨61, 65⟩⟩, .string ⟨68, 71⟩ "t"), (⟨"dir", ⟨72, 75⟩⟩, .string ⟨78, 81⟩ "c")]])]

/-- A manifest with the same settings in another order, among keys that mean nothing. -/
def clutteredText : String :=
  "colour = 2024-01-01\n" ++
    "project = [\x7b dir = \"c\", size = [1, \x7b deep = true \x7d], name = \"t\" \x7d]\n\n" ++
    "output_base = \"out\"\noutput = \x7b shape = 1.5, verbosity = \"quiet\" \x7d\n"

def clutteredEntries : Entries :=
  [(⟨"colour", ⟨0, 6⟩⟩, .dateTime ⟨9, 19⟩),
    (⟨"project", ⟨20, 27⟩⟩, .array ⟨30, 86⟩ [.table (some ⟨31, 85⟩) .braces
      [(⟨"dir", ⟨33, 36⟩⟩, .string ⟨39, 42⟩ "c"),
        (⟨"size", ⟨44, 48⟩⟩, .array ⟨51, 71⟩ [.integer ⟨52, 53⟩ 1,
          .table (some ⟨55, 70⟩) .braces [(⟨"deep", ⟨57, 61⟩⟩, .boolean ⟨64, 68⟩ true)]]),
        (⟨"name", ⟨73, 77⟩⟩, .string ⟨80, 83⟩ "t")]]),
    (⟨"output_base", ⟨88, 99⟩⟩, .string ⟨102, 107⟩ "out"),
    (⟨"output", ⟨108, 114⟩⟩, .table (some ⟨117, 153⟩) .braces
      [(⟨"shape", ⟨119, 124⟩⟩, .float ⟨127, 130⟩ (.finite false 6755399441055744 (-52))),
        (⟨"verbosity", ⟨132, 141⟩⟩, .string ⟨144, 151⟩ "quiet")])]

theorem parse?_plainText : Toml.parse? plainText.toList = some plainEntries := by
  rfl

set_option maxRecDepth 4000 in
theorem parse?_clutteredText : Toml.parse? clutteredText.toList = some clutteredEntries := by
  rfl

theorem sameSettings_cluttered : SameSettings plainEntries clutteredEntries where
  outputBase := List.forall_mem_singleton.2 (.some (.string _ _ "out"))
  output := .some (.intro _ _ _ _ (List.forall_mem_singleton.2 (.some (.string _ _ "quiet"))))
  projects := by
    refine ⟨_, _, rfl, rfl, .cons (.intro _ _ _ _ ?_) .nil⟩
    refine List.forall_mem_cons.2 ⟨.some (.string _ _ "t"), List.forall_mem_cons.2 ⟨.none, ?_⟩⟩
    exact List.forall_mem_singleton.2 (.some (.string _ _ "c"))

theorem manifest_of_sameSettings_cluttered :
    Toml.parse? plainText.toList = some plainEntries ∧
    Toml.parse? clutteredText.toList = some clutteredEntries ∧
    SameSettings plainEntries clutteredEntries ∧
    ∃ loaded loaded', ofText defaultPath plainText = .ok loaded ∧
      ofText defaultPath clutteredText = .ok loaded' ∧ loaded.manifest = loaded'.manifest := by
  refine ⟨parse?_plainText, parse?_clutteredText, sameSettings_cluttered, ?_⟩
  have plain : ∃ loaded, ofText defaultPath plainText = .ok loaded := by
    rw [ofText, parse?_plainText]
    exact ⟨_, rfl⟩
  obtain ⟨alike, equal⟩ := manifest_of_sameSettings defaultPath defaultPath
    parse?_plainText parse?_clutteredText sameSettings_cluttered
  obtain ⟨loaded, loads⟩ := plain
  obtain ⟨loaded', loads'⟩ := alike.1 ⟨loaded, loads⟩
  exact ⟨loaded, loaded', loads, loads', equal loaded loaded' loads loads'⟩

end WasmBuild.Manifest
