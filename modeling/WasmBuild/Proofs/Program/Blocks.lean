import WasmBuild.Program.Building
import WasmBuild.Proofs.Build.Trace
import WasmBuild.Proofs.FileTree.Texts
import WasmBuild.Proofs.Manifest.Paths
import WasmBuild.Proofs.Report.EventLine

/-!
# The events of building projects

The build of a project reports a block of events: its start, pairs for its units, and its end. The
builds of several projects report one block each, up to the first that fails. Where all paths are
texts, exactly these events appear on standard output.
-/
namespace WasmBuild.Build

/-- Pairs of unit events, numbered from one index up to another. -/
inductive Pairs : Nat → Nat → List Event → Prop where
  | none (index : Nat) : Pairs index index []
  | pair {index last : Nat} {rest : List Event} (source : Path) (command : String) (wasm : Path)
      (others : Pairs (index + 1) last rest) :
      Pairs index last
        (.unitStarted index source command :: .unitCompiled index source wasm :: rest)

/-- The events of the build of a project, and whether it was completed. The last unit of a build
that fails may have been started only. -/
inductive Block (project : String) : Bool → List Event → Prop where
  | completed (sourceDir outputDir : Path) (durationMs : Nat) {count : Nat} {pairs : List Event}
      (units : Pairs 0 count pairs) :
      Block project true (.started project sourceDir outputDir :: pairs ++
        [.completed project count durationMs])
  | failed (sourceDir outputDir : Path) (error : String) {count : Nat} {pairs : List Event}
      (units : Pairs 0 count pairs) :
      Block project false (.started project sourceDir outputDir :: pairs ++
        [.failed project error])
  | interrupted (sourceDir outputDir : Path) (error : String) (source : Path) (command : String)
      {count : Nat} {pairs : List Event} (units : Pairs 0 count pairs) :
      Block project false (.started project sourceDir outputDir :: pairs ++
        [.unitStarted count source command] ++ [.failed project error])

/-- The paths of a build event are texts. -/
def Event.HasTexts (event : Event) : Prop :=
  ∀ path ∈ (Report.Event.progress event).paths, path.IsText

theorem pairs_pairEvents (emccDir outputRoot : Path) (index : Nat) (units : List SourceUnit) :
    Pairs index (index + units.length) (pairEvents emccDir outputRoot index units) := by
  induction units generalizing index with
  | nil => exact .none index
  | cons unit rest ih =>
      have others := ih (index + 1)
      have last : index + 1 + rest.length = index + (unit :: rest).length := by
        rw [List.length_cons]
        omega
      rw [last] at others
      exact .pair _ _ _ others

/-- The declared result of a unit is a text if the unit is one. -/
theorem isText_wasm {outputRoot : Path} {unit : SourceUnit} (root : outputRoot.IsText)
    (source : isSourceName unit.fileName = true) (text : unit.path.IsText) :
    (planOf outputRoot unit).artifacts.wasm.IsText := by
  have name : Path.IsText ⟨unit.fileName⟩ := Path.isText_of_child text
  obtain ⟨base, split⟩ := FileTree.isSourceName_iff.1 source
  have kept : unit.fileName.take (unit.fileName.length - 2) = base := by
    rw [split, List.length_append]
    simp
  have baseText : Path.IsText ⟨base⟩ := by
    rw [split] at name
    exact (Path.isText_of_cut (by decide) name).1
  have wasm : Path.IsText ⟨base ++ Utf8.encode ".wasm"⟩ :=
    Path.isText_append baseText (Path.isText_ofString ".wasm")
  rw [planOf, kept]
  exact root.join wasm

theorem Event.About.hasTexts {emccDir outputRoot : Path} {unit : SourceUnit} {event : Event}
    (about : event.About emccDir outputRoot unit) (root : outputRoot.IsText)
    (source : isSourceName unit.fileName = true) (text : unit.path.IsText) : event.HasTexts := by
  cases about with
  | started index => simpa [Event.HasTexts, Report.Event.paths] using text
  | compiled index =>
      have wasm := isText_wasm root source text
      simpa [Event.HasTexts, Report.Event.paths] using And.intro text wasm

/-- The events of a build form a block, and its end tells how the build ended. -/
theorem Course.block {run : Run Outcome} {label : String} {config : Config}
    {units : List SourceUnit} {middle : List Event} {calls : List Invocation}
    {ending : Except Failure (List UnitPlan)}
    (course : Course config.outputRoot units middle ending)
    (reports : Reports run label config middle calls ending) :
    Block label run.result.isOk run.events := by
  cases course with
  | unprepared failure =>
      obtain ⟨result, -, events⟩ := reports.ended
      rw [result, events]
      exact .failed _ _ _ (.none 0)
  | accepted emccDir =>
      obtain ⟨durationMs, result, -, events⟩ := reports.ended
      have pairs := pairs_pairEvents emccDir config.outputRoot 0 units
      rw [Nat.zero_add] at pairs
      rw [result, events, List.length_map]
      exact .completed _ _ _ pairs
  | @refused emccDir failure done later unit split =>
      obtain ⟨result, -, events⟩ := reports.ended
      have pairs := pairs_pairEvents emccDir config.outputRoot 0 done
      rw [Nat.zero_add] at pairs
      rw [result, events]
      exact .interrupted _ _ _ _ _ pairs

/-- An event tells that a build has ended. -/
def Event.IsEnd : Event → Prop
  | .completed .. | .failed .. => True
  | .started .. | .unitStarted .. | .unitCompiled .. => False

theorem Event.IsEnd.hasTexts {event : Event} (last : event.IsEnd) : event.HasTexts := by
  cases event <;> simp_all [Event.IsEnd, Event.HasTexts, Report.Event.paths]

/-- The events of a build are its start, those in between, and its end. -/
theorem Reports.events_eq {run : Run Outcome} {label : String} {config : Config}
    {middle : List Event} {calls : List Invocation} {ending : Except Failure (List UnitPlan)}
    (reports : Reports run label config middle calls ending) :
    ∃ last : Event, last.IsEnd ∧
      run.events = .started label config.sourceRoot config.outputRoot :: middle ++ [last] := by
  cases ending with
  | ok plans =>
      obtain ⟨durationMs, -, -, events⟩ := reports.ended
      exact ⟨.completed label plans.length durationMs, trivial, events⟩
  | error failure =>
      obtain ⟨-, -, events⟩ := reports.ended
      exact ⟨.failed label failure.message, trivial, events⟩

/-- An event of a build is its start, or about a unit that it found, or its end. -/
inductive Event.Arises (label : String) (config : Config) (world : World) : Event → Prop where
  | start : Arises label config world (.started label config.sourceRoot config.outputRoot)
  | between {event : Event} {emccDir : Path} {unit : SourceUnit}
      (found : unit ∈ foundUnits config world)
      (about : event.About emccDir config.outputRoot unit) : Arises label config world event
  | finish {event : Event} (last : event.IsEnd) : Arises label config world event

theorem arises_of_mem_events {compiler : Compiler} {label : String} {config : Config}
    {world : World} {event : Event}
    (member : event ∈ (execute compiler true label config world).events) :
    event.Arises label config world := by
  obtain ⟨middle, calls, ending, reports, course⟩ := execute_course compiler label config world
  obtain ⟨last, isEnd, events⟩ := reports.events_eq
  rw [events, List.cons_append, List.mem_cons, List.mem_append, List.mem_singleton] at member
  rcases member with rfl | member | rfl
  · exact .start
  · obtain ⟨emccDir, unit, found, about⟩ := course.exists_about member
    exact .between found about
  · exact .finish isEnd

theorem Event.Arises.hasTexts {label : String} {config : Config} {world : World} {event : Event}
    (arises : event.Arises label config world) (source : config.sourceRoot.IsText)
    (output : config.outputRoot.IsText)
    (texts : ∀ unit ∈ foundUnits config world, unit.path.IsText) : event.HasTexts := by
  cases arises with
  | start => simpa [Event.HasTexts, Report.Event.paths] using And.intro source output
  | between found about =>
      exact about.hasTexts output (isSourceName_of_mem_foundUnits found) (texts _ found)
  | finish last => exact last.hasTexts

/-- The build of a project whose paths are texts reports a block of events that have lines. -/
theorem buildProject_block (compiler : Compiler) {project : Project} {toolchain : Toolchain}
    {world : World} (directories : project.HasTexts)
    (texts : ∀ unit ∈ foundUnits (.ofProject project toolchain) world, unit.path.IsText) :
    let run := buildProject compiler true project toolchain world
    Block project.name run.result.isOk run.events ∧ ∀ event ∈ run.events, event.HasTexts := by
  obtain ⟨middle, calls, ending, reports, course⟩ :=
    execute_course compiler project.name (.ofProject project toolchain) world
  exact ⟨course.block reports, fun event member =>
    (arises_of_mem_events member).hasTexts directories.sourceDir directories.outputDir texts⟩

end WasmBuild.Build

namespace WasmBuild.Program

open Report

/-- An action that adds to standard output at most the line of an event. -/
def Action.Written : Action → Prop
  | .out _ => False
  | .emit event => ∀ path ∈ event.paths, path.IsText
  | .err _ | .call _ => True

/-- Some actions report exactly some events, all of which have lines, and print nothing else to
standard output. -/
structure Emits (actions : List Action) (events : List Event) : Prop where
  reported : actions.filterMap Action.event? = events
  written : ∀ action ∈ actions, action.Written

theorem Emits.append {first second : List Action} {events more : List Event}
    (left : Emits first events) (right : Emits second more) :
    Emits (first ++ second) (events ++ more) := by
  refine ⟨by rw [List.filterMap_append, left.reported, right.reported], fun action member => ?_⟩
  rcases List.mem_append.1 member with member | member
  · exact left.written action member
  · exact right.written action member

theorem emits_nil : Emits [] [] := ⟨rfl, by simp⟩

theorem emits_emit {event : Event} (texts : ∀ path ∈ event.paths, path.IsText) :
    Emits [.emit event] [event] := by
  refine ⟨rfl, fun action member => ?_⟩
  obtain rfl := List.mem_singleton.1 member
  exact texts

theorem emits_emitIfWritable {event : Event} (texts : ∀ path ∈ event.paths, path.IsText) :
    Emits (emitIfWritable event) [event] := by
  obtain ⟨record, -, line⟩ := Event.line_of_paths texts
  rw [emitIfWritable, line]
  exact emits_emit texts

/-- What the compiler prints is kept off standard output. -/
theorem emits_call (call : Invocation) (printed : List Build.Printed) :
    Emits (.call call :: printed.map (printedAction true)) [] := by
  have aside (p : Build.Printed) : printedAction true p = .err p.text := by
    cases stream : p.stream <;> simp [printedAction, stream]
  refine ⟨?_, ?_⟩
  · rw [List.filterMap_cons, List.filterMap_map]
    simp only [Action.event?, List.filterMap_eq_nil_iff, Function.comp_apply, aside, implies_true]
  · intro action member
    rcases List.mem_cons.1 member with rfl | member
    · trivial
    · obtain ⟨p, -, rfl⟩ := List.mem_map.1 member
      rw [aside]
      trivial

/-- The steps of a build are shown as those of its events that have lines. -/
theorem emits_writable (steps : List Build.Step) :
    Emits (steps.flatMap (stepActions .events))
      (((steps.filterMap Build.Step.event?).map .progress).filter Event.isWritable) := by
  induction steps with
  | nil => exact emits_nil
  | cons step rest ih =>
      cases step with
      | event event =>
          rw [List.filterMap_cons_some (Build.Step.event?_event event), List.map_cons,
            List.filter_cons]
          cases writable : (Event.progress event).isWritable with
          | true =>
              have first : Emits (stepActions .events (.event event)) [.progress event] :=
                emits_emitIfWritable ((Event.isWritable_iff _).1 writable)
              exact first.append ih
          | false =>
              have first : stepActions .events (.event event) = [] := by
                simp only [stepActions, Reporter.actions, emitIfWritable,
                  Event.line_of_unwritable writable]
              rw [List.flatMap_cons, first]
              exact ih
      | call call printed => exact (emits_call call printed).append ih

/-- The steps of a build are shown as its events where these have lines. -/
theorem emits_steps (steps : List Build.Step)
    (texts : ∀ event ∈ steps.filterMap Build.Step.event?, event.HasTexts) :
    Emits (steps.flatMap (stepActions .events))
      ((steps.filterMap Build.Step.event?).map .progress) := by
  have all : ∀ event ∈ (steps.filterMap Build.Step.event?).map Event.progress,
      event.isWritable = true := by
    intro event member
    obtain ⟨reported, inside, rfl⟩ := List.mem_map.1 member
    exact (Event.isWritable_iff _).2 (texts reported inside)
  have shown := emits_writable steps
  rwa [List.filter_eq_self.2 all] at shown

/-- The blocks of some projects in order, up to the first that was not completed, and whether all
were completed. -/
inductive Blocks : List String → Bool → List Build.Event → Prop where
  | none : Blocks [] true []
  | next {project : String} {rest : List String} {completed : Bool} {block more : List Build.Event}
      (first : Build.Block project true block) (others : Blocks rest completed more) :
      Blocks (project :: rest) completed (block ++ more)
  | last {project : String} {rest : List String} {block : List Build.Event}
      (first : Build.Block project false block) : Blocks (project :: rest) false block

/-- Every unit that the builds of some projects come upon has a path that is a text. Names in the
tree that are not texts do no harm where no build looks. -/
def FindsTexts (compiler : Build.Compiler) (toolchain : Toolchain) :
    List Project → Build.World → Prop
  | [], _ => True
  | project :: rest, world =>
    let run := Build.buildProject compiler true project toolchain world
    (∀ unit ∈ Build.foundUnits (.ofProject project toolchain) world, unit.path.IsText) ∧
      match run.result with
      | .ok _ => FindsTexts compiler toolchain rest run.world
      | .error _ => True

/-- Where the names in a tree are texts, and the compiler leaves it so, builds come upon nothing
else. -/
theorem findsTexts_of_hasTexts {compiler : Build.Compiler} {toolchain : Toolchain}
    (step : ∀ calls call (tree : FileTree), tree.HasTexts →
      (compiler calls call tree).tree.HasTexts)
    {projects : List Project} {world : Build.World}
    (directories : ∀ project ∈ projects, project.HasTexts) (texts : world.tree.HasTexts) :
    FindsTexts compiler toolchain projects world := by
  induction projects generalizing world with
  | nil => trivial
  | cons project rest ih =>
      have here : project.HasTexts := directories project List.mem_cons_self
      have prepared : (world.prepared (.ofProject project toolchain)).tree.HasTexts :=
        texts.ensureDirectory here.outputDir
      refine ⟨prepared.sources here.sourceDir, ?_⟩
      split
      · refine ih (fun p member => directories p (List.mem_cons_of_mem _ member)) ?_
        exact Build.execute_keeps step prepared texts
      · trivial

/-- Building projects reports their blocks, and fails exactly if one of them was not completed. -/
theorem buildAll_blocks {compiler : Build.Compiler} {toolchain : Toolchain}
    {projects : List Project} {world : Build.World}
    (directories : ∀ project ∈ projects, project.HasTexts)
    (units : FindsTexts compiler toolchain projects world) :
    let turn := buildAll compiler .events toolchain projects world
    ∃ events, Emits turn.actions (events.map .progress) ∧
      Blocks (projects.map Project.name) turn.result.isOk events := by
  induction projects generalizing world with
  | nil => exact ⟨[], emits_nil, .none⟩
  | cons project rest ih =>
      obtain ⟨found, later⟩ := units
      obtain ⟨block, texts⟩ :=
        Build.buildProject_block compiler (directories project List.mem_cons_self) found
      have steps := emits_steps _ texts
      have detailed : Reporter.wantsDetail .events = true := rfl
      cases result : (Build.buildProject compiler true project toolchain world).result with
      | error failure =>
          rw [result] at block
          simp only [buildAll, detailed, result]
          exact ⟨_, steps, .last block⟩
      | ok outcome =>
          rw [result] at block later
          obtain ⟨more, others, blocks⟩ :=
            ih (fun p member => directories p (List.mem_cons_of_mem _ member)) later
          simp only [buildAll, detailed, result]
          refine ⟨_ ++ more, ?_, .next block blocks⟩
          rw [List.map_append]
          exact steps.append others

end WasmBuild.Program
