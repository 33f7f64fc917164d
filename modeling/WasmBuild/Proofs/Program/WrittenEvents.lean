import WasmBuild.Proofs.Program.Stream

/-!
# The lines of a build

A build that is reported to programs writes a line with the tag of the event for each of its events
whose paths are texts, in their order. The others are dropped without a word: the start of a build
whose roots are no texts, and the events of a unit whose path is none. The end is always written, so
the count that it gives may be of units that no line tells of.
-/
namespace WasmBuild.Build

def Event.tag : Event → String
  | started .. => "build_started"
  | unitStarted .. => "unit_started"
  | unitCompiled .. => "unit_compiled"
  | completed .. => "build_completed"
  | failed .. => "build_failed"

def Event.source? : Event → Option Path
  | unitStarted _ source _ | unitCompiled _ source _ => some source
  | started .. | completed .. | failed .. => none

/-- The paths that an event is made from are texts: both roots for the start of a build, the source
file of a unit, and the output directory also where its result is told. The end of a build has no
paths. -/
def Event.FromTexts (config : Config) : Event → Prop
  | started .. => config.sourceRoot.IsText ∧ config.outputRoot.IsText
  | unitStarted _ source _ => source.IsText
  | unitCompiled _ source _ => source.IsText ∧ config.outputRoot.IsText
  | completed .. | failed .. => True

/-- The declared result of a unit whose path is a text is a text just when the output directory is
one. -/
theorem isText_wasm_iff (outputRoot : Path) {unit : SourceUnit}
    (source : isSourceName unit.fileName = true) (segment : separator ∉ unit.fileName)
    (text : unit.path.IsText) :
    (planOf outputRoot unit).artifacts.wasm.IsText ↔ outputRoot.IsText := by
  refine ⟨fun whole => Path.isText_of_join (Path.not_isAbsolute fun member => ?_) whole,
    fun root => isText_wasm root source text⟩
  rcases List.mem_append.1 member with base | ending
  · exact segment (List.mem_of_mem_take base)
  · revert ending
    decide

section
variable {compiler : Compiler} {label : String} {config : Config} {world : World} {event : Event}

theorem Event.Arises.hasTexts_iff (arises : event.Arises label config world) :
    event.HasTexts ↔ event.FromTexts config := by
  cases arises with
  | start => simp [Event.HasTexts, Report.Event.paths, Event.FromTexts]
  | @between event emccDir unit found about =>
      cases about with
      | started index => simp [Event.HasTexts, Report.Event.paths, Event.FromTexts]
      | compiled index =>
          have wasm := isText_wasm_iff config.outputRoot (isSourceName_of_mem_foundUnits found)
            (FileTree.not_mem_separator_of_mem_sources found)
          simpa [Event.HasTexts, Report.Event.paths, Event.FromTexts] using wasm
  | finish last =>
      refine iff_of_true last.hasTexts ?_
      cases event <;> simp_all [Event.IsEnd, Event.FromTexts]

theorem started_mem_events :
    .started label config.sourceRoot config.outputRoot ∈
      (execute compiler true label config world).events := by
  obtain ⟨middle, calls, ending, reports, -⟩ := execute_course compiler label config world
  obtain ⟨last, -, events⟩ := reports.events_eq
  rw [events]
  exact List.mem_cons_self

/-- All events of a build are made from texts just when its roots and the source files that it
tells of are texts. -/
theorem forall_fromTexts_iff :
    (∀ event ∈ (execute compiler true label config world).events, event.FromTexts config) ↔
      config.sourceRoot.IsText ∧ config.outputRoot.IsText ∧
        ∀ event ∈ (execute compiler true label config world).events,
          ∀ source ∈ event.source?, source.IsText := by
  constructor
  · intro all
    obtain ⟨source, output⟩ := all _ started_mem_events
    refine ⟨source, output, fun event member path told => ?_⟩
    have texts := all event member
    cases event <;> simp_all [Event.FromTexts, Event.source?]
  · rintro ⟨source, output, told⟩ event member
    have texts := told event member
    cases event <;> simp_all [Event.FromTexts, Event.source?]

end
end WasmBuild.Build

namespace WasmBuild.Program

open Report

/-- What a run that is reported to programs adds to standard output. -/
def streamOf {α : Type} (run : Build.Run α) : String :=
  String.join ((run.steps.flatMap (stepActions .events)).map Action.stdout)

/-- A line tells of an event: the event is printed so, the newline at the end is its only one, and
before it stands a record with the tag of the event. -/
structure Tells (line : String) (event : Build.Event) : Prop where
  printed : (Event.progress event).line = .ok line
  tagged : ∃ body record, Utf8.encode line = body ++ [newline] ∧ newline ∉ body ∧
    (Utf8.decode? body).bind Json.Record.read? = some record ∧
    record.text? "event" = some event.tag

theorem tells_of_line {line : String} {event : Build.Event}
    (printed : (Event.progress event).line = .ok line) : Tells line event := by
  obtain ⟨record, recorded, same⟩ := Event.line_of_paths (Event.paths_of_line printed)
  obtain rfl : line = record.line := Except.ok.inj (printed.symm.trans same)
  refine ⟨printed, Utf8.encode (String.ofList record.chars), record, encode_line record,
    newline_not_mem record, ?_, ?_⟩
  · rw [Utf8.decode?_encode, Option.bind_some, Json.Record.read?_chars]
  · rw [Json.Record.text?, lookup_of_recordOf? recorded]
    cases event <;> rfl

/-- A build that is reported to programs writes exactly the lines of its events that are made from
texts, in their order. No event is missing just when its roots and the source files that it tells of
are texts. -/
theorem execute_stream (compiler : Build.Compiler) (label : String) (config : Build.Config)
    (world : Build.World) :
    let run := Build.execute compiler (Reporter.wantsDetail .events) label config world
    let written := run.events.filter fun event => (Event.progress event).isWritable
    (∃ lines, List.Forall₂ Tells lines written ∧ streamOf run = String.join lines) ∧
      Event.ofStream? (Utf8.encode (streamOf run)) = some (written.map .progress) ∧
      (∀ event ∈ run.events, event ∈ written ↔ event.FromTexts config) ∧
      (written = run.events ↔ config.sourceRoot.IsText ∧ config.outputRoot.IsText ∧
        ∀ event ∈ run.events, ∀ source ∈ event.source?, source.IsText) := by
  intro run written
  -- The filter is the same on the events of the build as on those of the stream.
  have shown : (run.events.map Event.progress).filter Event.isWritable =
      written.map .progress := List.filter_map
  obtain ⟨lines, printed, joined⟩ := stdout_of_emits (emits_writable run.steps)
  have same : streamOf run = String.join lines := joined
  have writable (event : Build.Event) (member : event ∈ run.events) :
      (Event.progress event).isWritable = true ↔ event.FromTexts config :=
    (Event.isWritable_iff _).trans (Build.arises_of_mem_events member).hasTexts_iff
  change List.Forall₂ _ ((run.events.map Event.progress).filter Event.isWritable) lines at printed
  rw [shown] at printed
  refine ⟨⟨lines, ?_, same⟩, ?_, fun event member => ?_, ?_⟩
  · exact ((List.forall₂_map_left_iff.1 printed).imp fun _ _ line => tells_of_line line).flip
  · rw [same]
    exact Event.ofStream?_join printed
  · rw [List.mem_filter, and_iff_right member]
    exact writable event member
  · rw [List.filter_eq_self]
    exact (forall₂_congr writable).trans Build.forall_fromTexts_iff

/-- A build of a unit whose name is no text compiles it and counts it, and writes the start and the
end of the build only. -/
theorem broken_unit_dropped :
    let world : Build.World := ⟨brokenTree, 0, 0⟩
    let config : Build.Config := ⟨.ofString "src/t", .ofString "build/t", ⟨some (.ofString "sdk")⟩⟩
    let run := Build.execute sampleHost.compiler (Reporter.wantsDetail .events) "t" config world
    run.events.map Build.Event.tag =
        ["build_started", "unit_started", "unit_compiled", "build_completed"] ∧
      Event.ofStream? (Utf8.encode (streamOf run)) =
        some [.progress (.started "t" (.ofString "src/t") (.ofString "build/t")),
          .progress (.completed "t" 1 5)] := by
  decide +kernel

end WasmBuild.Program
