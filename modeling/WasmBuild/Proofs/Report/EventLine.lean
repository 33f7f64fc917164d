import WasmBuild.Program.Action
import WasmBuild.Proofs.Json.Reading
import WasmBuild.Proofs.Path.Text

/-!
# The line of an event

What an event writes is read back by a reader of flat records that looks fields up by name. An
event has a line exactly when its paths are texts; different events have different lines, and a
stream of lines splits back into its events at the newlines.
-/
namespace WasmBuild.Report

open Json (Record Scalar)

def newline : UInt8 := 0x0A

def pathOf (record : Record) (name : String) : Option Path :=
  (record.text? name).map Path.ofString

/-- The build event that a record with the given tag describes. -/
def progressOf? (record : Record) (tag : String) : Option Build.Event := do
  if tag = "build_started" then
    return .started (← record.text? "project") (← pathOf record "source_dir")
      (← pathOf record "output_dir")
  else if tag = "unit_started" then
    return .unitStarted (← record.number? "index") (← pathOf record "source")
      (← record.text? "command")
  else if tag = "unit_compiled" then
    return .unitCompiled (← record.number? "index") (← pathOf record "source")
      (← pathOf record "wasm")
  else if tag = "build_completed" then
    return .completed (← record.text? "project") (← record.number? "compiled")
      (← record.number? "duration_ms")
  else if tag = "build_failed" then
    return .failed (← record.text? "project") (← record.text? "error")
  else none

namespace Event

/-- The event that a record describes. Fields are looked up by name, in any order. -/
def ofRecord? (record : Record) : Option Event := do
  let tag ← record.text? "event"
  if tag = "start" then
    if record.text? "version" = some version then return .start (← record.text? "command")
    else none
  else if tag = "complete" then
    if record.flag? "success" = some true then
      return .complete (← record.text? "command") (record.number? "duration_ms")
    else none
  else if tag = "error" then
    return .error (← record.text? "code") (← record.text? "message") (record.text? "help")
  else if tag = "warning" then
    return .warning (← record.text? "key") (← pathOf record "file") (record.number? "line")
      (record.text? "suggestion")
  else if tag = "needs_build" then
    return .needsBuild (← record.text? "project") (← record.flag? "required")
      (record.text? "reason")
  else if tag = "clean" then
    return .clean (← record.text? "project") (← record.number? "removed")
  else if tag = "result" then
    return .result (← record.text? "project") (← pathOf record "path")
  else if tag = "source" then
    return .source (← record.text? "project") (← pathOf record "source") (← pathOf record "js")
      (← pathOf record "wasm")
  else (progressOf? record tag).map .progress

/-- The names in the record of an event, the tag first. An optional field has a name when it has a
value. -/
def fieldNames : Event → List String
  | start _ => ["event", "command", "version"]
  | complete _ durationMs =>
    ["event", "command", "success"] ++ (durationMs.map fun _ => "duration_ms").toList
  | error _ _ help => ["event", "code", "message"] ++ (help.map fun _ => "help").toList
  | warning _ _ line suggestion =>
    ["event", "key", "file"] ++ (line.map fun _ => "line").toList ++
      (suggestion.map fun _ => "suggestion").toList
  | needsBuild _ _ reason =>
    ["event", "project", "required"] ++ (reason.map fun _ => "reason").toList
  | clean .. => ["event", "project", "removed"]
  | result .. => ["event", "project", "path"]
  | source .. => ["event", "project", "source", "js", "wasm"]
  | progress (.started ..) => ["event", "project", "source_dir", "output_dir"]
  | progress (.unitStarted ..) => ["event", "index", "source", "command"]
  | progress (.unitCompiled ..) => ["event", "index", "source", "wasm"]
  | progress (.completed ..) => ["event", "project", "compiled", "duration_ms"]
  | progress (.failed ..) => ["event", "project", "error"]

def paths : Event → List Path
  | start _ | complete .. | error .. | needsBuild .. | clean .. => []
  | warning _ file _ _ => [file]
  | result _ path => [path]
  | source _ file js wasm => [file, js, wasm]
  | progress (.started _ sourceDir outputDir) => [sourceDir, outputDir]
  | progress (.unitStarted _ file _) => [file]
  | progress (.unitCompiled _ file wasm) => [file, wasm]
  | progress (.completed ..) | progress (.failed ..) => []

end Event

theorem recordOf?_cons_eq_some_iff (name : String) (field : Field) (rest : List (String × Field))
    (record : Record) :
    recordOf? ((name, field) :: rest) = some record ↔
      ∃ value tail, field.scalar? = some value ∧ recordOf? rest = some tail ∧
        record = (name, value) :: tail := by
  cases value : field.scalar? with
  | none => simp [recordOf?, value]
  | some value' =>
      cases tail : recordOf? rest with
      | none => simp [recordOf?, value, tail]
      | some tail' => simp [recordOf?, value, tail, eq_comm]

/-- Fields have a record exactly when each of them has a value. -/
theorem recordOf?_isSome_iff (fields : List (String × Field)) :
    (recordOf? fields).isSome ↔ ∀ field ∈ fields, field.2.scalar?.isSome := by
  induction fields with
  | nil => simp [recordOf?]
  | cons field rest ih =>
      obtain ⟨name, field⟩ := field
      rw [List.forall_mem_cons, ← ih]
      cases value : field.scalar? with
      | none => simp [recordOf?, value]
      | some value' => cases tail : recordOf? rest <;> simp [recordOf?, value, tail]

section
variable {fields : List (String × Field)} {record : Record}

/-- A record has the names of its fields in their order. -/
theorem names_of_recordOf? (written : recordOf? fields = some record) :
    record.map Prod.fst = fields.map Prod.fst := by
  induction fields generalizing record with
  | nil =>
      obtain rfl : [] = record := Option.some.inj written
      rfl
  | cons field rest ih =>
      obtain ⟨value, tail, -, writtenTail, rfl⟩ := (recordOf?_cons_eq_some_iff ..).1 written
      rw [List.map_cons, List.map_cons, ih writtenTail]

/-- A name is found in a record with the value that its field is written as. -/
theorem lookup_of_recordOf? (written : recordOf? fields = some record) (name : String) :
    record.lookup name = (fields.lookup name).bind Field.scalar? := by
  induction fields generalizing record with
  | nil =>
      obtain rfl : [] = record := Option.some.inj written
      rfl
  | cons field rest ih =>
      obtain ⟨value, tail, found, writtenTail, rfl⟩ := (recordOf?_cons_eq_some_iff ..).1 written
      obtain ⟨first, value'⟩ := field
      rw [List.lookup_cons, List.lookup_cons, ih writtenTail]
      cases same : name == first with
      | true => exact found.symm
      | false => rfl

end

namespace Event

theorem names_fields (event : Event) : event.fields.map Prod.fst = event.fieldNames := by
  cases event with
  | start command => rfl
  | complete command durationMs => cases durationMs <;> rfl
  | error code message help => cases help <;> rfl
  | warning key file line suggestion => cases line <;> cases suggestion <;> rfl
  | needsBuild project required reason => cases reason <;> rfl
  | clean project removed => rfl
  | result project path => rfl
  | source project file js wasm => rfl
  | progress event => cases event <;> rfl

theorem nodup_fieldNames (event : Event) : event.fieldNames.Nodup := by
  cases event with
  | start command => simp [fieldNames]
  | complete command durationMs => cases durationMs <;> simp [fieldNames]
  | error code message help => cases help <;> simp [fieldNames]
  | warning key file line suggestion => cases line <;> cases suggestion <;> simp [fieldNames]
  | needsBuild project required reason => cases reason <;> simp [fieldNames]
  | clean project removed => simp [fieldNames]
  | result project path => simp [fieldNames]
  | source project file js wasm => simp [fieldNames]
  | progress event => cases event <;> simp [fieldNames]

/-- The paths of an event are the values of its path fields. -/
theorem mem_paths_iff (event : Event) (path : Path) :
    path ∈ event.paths ↔ ∃ name, (name, Field.path path) ∈ event.fields := by
  cases event with
  | start command => simp [paths, fields]
  | complete command durationMs => cases durationMs <;> simp [paths, fields, optional]
  | error code message help => cases help <;> simp [paths, fields, optional]
  | warning key file line suggestion =>
      cases line <;> cases suggestion <;> simp [paths, fields, optional]
  | needsBuild project required reason => cases reason <;> simp [paths, fields, optional]
  | clean project removed => simp [paths, fields]
  | result project path => simp [paths, fields]
  | source project file js wasm => simp [paths, fields, exists_or]
  | progress event => cases event <;> simp [paths, fields, progressFields, exists_or]

/-- An event has a record exactly when its paths are texts. -/
theorem record?_isSome_iff (event : Event) :
    event.record?.isSome ↔ ∀ path ∈ event.paths, path.IsText := by
  rw [record?, recordOf?_isSome_iff]
  constructor
  · intro written path member
    obtain ⟨name, member⟩ := (mem_paths_iff event path).1 member
    have value := written _ member
    by_contra broken
    simp [Field.scalar?, (Path.text?_eq_none_iff path).2 broken] at value
  · rintro texts ⟨name, field⟩ member
    cases field with
    | text value => rfl
    | number value => rfl
    | flag value => rfl
    | path path =>
        obtain ⟨text, rfl⟩ := texts path ((mem_paths_iff event path).2 ⟨name, member⟩)
        simp [Field.scalar?]

/-- The record of an event describes this event. -/
theorem ofRecord?_of_record? {event : Event} {record : Record}
    (texts : ∀ path ∈ event.paths, path.IsText) (written : event.record? = some record) :
    ofRecord? record = some event := by
  have found := lookup_of_recordOf? written
  have tagged {tag : String} (first : event.fields.lookup "event" = some (.text tag)) :
      record.text? "event" = some tag := by
    rw [Record.text?, found, first]
    rfl
  cases event
  case progress event =>
      cases event
      -- The tag chooses the branch, and only the fields of this branch are looked up.
      all_goals simp only [ofRecord?, progressOf?, tagged rfl, Option.bind_eq_bind,
        Option.bind_some, String.reduceEq, if_true, if_false]
      case started project sourceDir outputDir =>
          obtain ⟨sourceDir, rfl⟩ := texts sourceDir (by simp [paths])
          obtain ⟨outputDir, rfl⟩ := texts outputDir (by simp [paths])
          simp [pathOf, Record.text?, found, fields, progressFields, List.lookup_cons,
            Field.scalar?, Scalar.asText]
      case unitStarted index file command =>
          obtain ⟨file, rfl⟩ := texts file (by simp [paths])
          simp [pathOf, Record.text?, Record.number?, found, fields, progressFields,
            List.lookup_cons, Field.scalar?, Scalar.asText, Scalar.asNumber]
      case unitCompiled index file wasm =>
          obtain ⟨file, rfl⟩ := texts file (by simp [paths])
          obtain ⟨wasm, rfl⟩ := texts wasm (by simp [paths])
          simp [pathOf, Record.text?, Record.number?, found, fields, progressFields,
            List.lookup_cons, Field.scalar?, Scalar.asText, Scalar.asNumber]
      case completed project compiled durationMs =>
          simp [Record.text?, Record.number?, found, fields, progressFields, List.lookup_cons,
            Field.scalar?, Scalar.asText, Scalar.asNumber]
      case failed project error =>
          simp [Record.text?, found, fields, progressFields, List.lookup_cons, Field.scalar?,
            Scalar.asText]
  all_goals simp only [ofRecord?, tagged rfl, Option.bind_eq_bind, Option.bind_some,
    String.reduceEq, if_true, if_false]
  case start command =>
      simp [Record.text?, found, fields, List.lookup_cons, Field.scalar?, Scalar.asText]
  case complete command durationMs =>
      cases durationMs <;>
        simp [Record.text?, Record.flag?, Record.number?, found, fields, optional,
          List.lookup_cons, Field.scalar?, Scalar.asText, Scalar.asFlag, Scalar.asNumber]
  case error code message help =>
      cases help <;>
        simp [Record.text?, found, fields, optional, List.lookup_cons, Field.scalar?,
          Scalar.asText]
  case warning key file line suggestion =>
      obtain ⟨file, rfl⟩ := texts file (by simp [paths])
      cases line <;> cases suggestion <;>
        simp [pathOf, Record.text?, Record.number?, found, fields, optional, List.lookup_cons,
          Field.scalar?, Scalar.asText, Scalar.asNumber]
  case needsBuild project required reason =>
      cases reason <;>
        simp [Record.text?, Record.flag?, found, fields, optional, List.lookup_cons,
          Field.scalar?, Scalar.asText, Scalar.asFlag]
  case clean project removed =>
      simp [Record.text?, Record.number?, found, fields, List.lookup_cons, Field.scalar?,
        Scalar.asText, Scalar.asNumber]
  case result project path =>
      obtain ⟨path, rfl⟩ := texts path (by simp [paths])
      simp [pathOf, Record.text?, found, fields, List.lookup_cons, Field.scalar?, Scalar.asText]
  case source project file js wasm =>
      obtain ⟨file, rfl⟩ := texts file (by simp [paths])
      obtain ⟨js, rfl⟩ := texts js (by simp [paths])
      obtain ⟨wasm, rfl⟩ := texts wasm (by simp [paths])
      simp [pathOf, Record.text?, found, fields, List.lookup_cons, Field.scalar?, Scalar.asText]

/-- The event on a line, which is given without its newline. -/
def ofLine? (bytes : Bytes) : Option Event :=
  ((Utf8.decode? bytes).bind Record.read?).bind ofRecord?

/-- The events of a stream in which every line is ended by a newline. -/
def ofStream? (bytes : Bytes) : Option (List Event) :=
  let pieces := bytes.splitOn newline
  if pieces.getLast? = some [] then pieces.dropLast.mapM ofLine? else none

/-- An event whose paths are texts has a line, which is its record and a newline. -/
theorem line_of_paths {event : Event} (texts : ∀ path ∈ event.paths, path.IsText) :
    ∃ record, event.record? = some record ∧ event.line = .ok record.line := by
  obtain ⟨record, written⟩ := Option.isSome_iff_exists.1 ((record?_isSome_iff event).2 texts)
  exact ⟨record, written, by rw [line, written]⟩

/-- An event has no line when one of its paths is not a text. -/
theorem line_of_broken {event : Event} (broken : ∃ path ∈ event.paths, ¬ path.IsText) :
    event.line = .error .illFormedPath := by
  have absent : event.record? = none := by
    rw [← Option.not_isSome_iff_eq_none, record?_isSome_iff]
    push Not
    exact broken
  rw [line, absent]

def isWritable (event : Event) : Bool := event.paths.all fun path => path.text?.isSome

theorem isWritable_iff (event : Event) :
    event.isWritable = true ↔ ∀ path ∈ event.paths, path.IsText := by
  simp only [isWritable, List.all_eq_true, Option.isSome_iff_ne_none, ne_eq, Path.text?_eq_none_iff,
    not_not]

theorem line_of_unwritable {event : Event} (silent : event.isWritable = false) :
    event.line = .error .illFormedPath := by
  refine line_of_broken ?_
  by_contra texts
  push Not at texts
  rw [event.isWritable_iff.2 texts] at silent
  cases silent

theorem paths_of_line {event : Event} {text : String} (written : event.line = .ok text) :
    ∀ path ∈ event.paths, path.IsText := by
  by_contra broken
  push Not at broken
  rw [line_of_broken broken] at written
  simp at written

end Event

theorem Complaint.isText_of_mem_paths (complaint : Complaint) :
    ∀ path ∈ complaint.event.paths, path.IsText := by
  simp [event, Event.paths]

/-- An error event has no path in it, so it has a line. -/
theorem Complaint.exists_line (complaint : Complaint) :
    ∃ line, complaint.event.line = .ok line := by
  obtain ⟨record, -, line⟩ := Event.line_of_paths complaint.isText_of_mem_paths
  exact ⟨record.line, line⟩

theorem encode_line (record : Record) :
    Utf8.encode record.line = Utf8.encode (String.ofList record.chars) ++ [newline] := by
  rw [Record.line, String.ofList_append, Utf8.encode_append]
  rfl

/-- No byte of a printed record is a control character. -/
theorem le_of_mem_encode {record : Record} {b : UInt8}
    (member : b ∈ Utf8.encode (String.ofList record.chars)) : 0x20 ≤ b := by
  rw [Utf8.encode, String.toList_ofList] at member
  obtain ⟨c, printed, member⟩ := List.mem_flatMap.1 member
  have visible : 0x20 ≤ c.toNat :=
    (Json.visible_iff _).1 (Record.visible record) c printed
  rw [UInt8.le_iff_toNat_le]
  show 0x20 ≤ b.toNat
  rcases Utf8.mem_utf8EncodeChar member with ⟨-, ascii⟩ | large
  · omega
  · have large' : 0x80 ≤ b.toNat := UInt8.le_iff_toNat_le.1 large
    omega

theorem newline_not_mem (record : Record) :
    newline ∉ Utf8.encode (String.ofList record.chars) := by
  intro member
  exact absurd (le_of_mem_encode member) (by decide)

namespace Event

theorem ofLine?_encode {event : Event} {record : Record}
    (texts : ∀ path ∈ event.paths, path.IsText) (written : event.record? = some record) :
    ofLine? (Utf8.encode (String.ofList record.chars)) = some event := by
  rw [ofLine?, Utf8.decode?_encode, Option.bind_some, Json.Record.read?_chars, Option.bind_some,
    ofRecord?_of_record? texts written]

/-- Lines that are written one after the other are the pieces of the stream between newlines. -/
theorem splitOn_stream {events : List Event} {lines : List String}
    (written : List.Forall₂ (fun event text => event.line = .ok text) events lines) :
    ∃ bodies, (Utf8.encode (String.join lines)).splitOn newline = bodies ++ [[]] ∧
      bodies.mapM ofLine? = some events := by
  induction written with
  | nil => exact ⟨[], rfl, rfl⟩
  | @cons event text events lines first rest ih =>
      obtain ⟨bodies, pieces, read⟩ := ih
      have texts := paths_of_line first
      obtain ⟨record, recorded, line⟩ := line_of_paths texts
      obtain rfl : text = record.line := by
        rw [first] at line
        exact Except.ok.inj line
      refine ⟨Utf8.encode (String.ofList record.chars) :: bodies, ?_, ?_⟩
      · rw [String.join_cons, Utf8.encode_append, encode_line, List.append_assoc,
          List.singleton_append, List.splitOn_append_cons_self_of_not_mem (newline_not_mem record),
          pieces, List.cons_append]
      · rw [List.mapM_cons, ofLine?_encode texts recorded, read]
        rfl

/-- A stream of written events is read back. -/
theorem ofStream?_join {events : List Event} {lines : List String}
    (written : List.Forall₂ (fun event text => event.line = .ok text) events lines) :
    ofStream? (Utf8.encode (String.join lines)) = some events := by
  obtain ⟨bodies, pieces, read⟩ := splitOn_stream written
  simp [ofStream?, pieces, read]

/-- An event whose paths are valid UTF-8 is written as one JSON object and a newline, without any
other control byte. The object has exactly the fields of the event and describes it. An event with
another path is refused and writes nothing. No two events share a line, and a stream of lines
splits back into its events. -/
theorem line_reads_back :
    (∀ event : Event, (∀ path ∈ event.paths, path.IsText) →
      ∃ text body record, event.line = .ok text ∧
        Program.Output.emit event = .one (.emit event) ∧
        (Program.Action.emit event).stdout = text ∧
        Utf8.encode text = body ++ [newline] ∧ (∀ b ∈ body, 0x20 ≤ b) ∧
        (Utf8.decode? body).bind Record.read? = some record ∧
        record.map Prod.fst = event.fieldNames ∧ event.fieldNames.Nodup ∧
        ofRecord? record = some event) ∧
    (∀ event : Event, (∃ path ∈ event.paths, ¬ path.IsText) →
      event.line = .error .illFormedPath ∧ FileError.illFormedPath.kind = "InvalidData" ∧
        (Program.Output.emit event).actions = []) ∧
    (∀ (first second : Event) (text : String),
      first.line = .ok text → second.line = .ok text → first = second) ∧
    ∀ (events : List Event) (lines : List String),
      List.Forall₂ (fun event text => event.line = .ok text) events lines →
        ofStream? (Utf8.encode (String.join lines)) = some events := by
  refine ⟨?_, ?_, ?_, ?_⟩
  · intro event texts
    obtain ⟨record, written, line⟩ := line_of_paths texts
    refine ⟨record.line, Utf8.encode (String.ofList record.chars), record, line, ?_, ?_,
      encode_line record, fun b member => le_of_mem_encode member, ?_, ?_, ?_,
      ofRecord?_of_record? texts written⟩
    · rw [Program.Output.emit, line]
    · rw [Program.Action.stdout, line]
      rfl
    · rw [Utf8.decode?_encode, Option.bind_some, Json.Record.read?_chars]
    · rw [names_of_recordOf? written, names_fields]
    · exact nodup_fieldNames event
  · intro event broken
    have line := line_of_broken broken
    refine ⟨line, rfl, ?_⟩
    rw [Program.Output.emit, line]
  · intro first second text firstLine secondLine
    have alone (event : Event) (line : event.line = .ok text) :
        ofStream? (Utf8.encode (String.join [text])) = some [event] :=
      ofStream?_join (.cons line .nil)
    have same := (alone first firstLine).symm.trans (alone second secondLine)
    exact (List.cons.inj (Option.some.inj same)).1
  · intro events lines written
    exact ofStream?_join written

example : (Event.result "a\nb" (.ofString "é/\"c\"")).line = .ok
    "\x7b\"event\":\"result\",\"project\":\"a\\nb\",\"path\":\"é/\\\"c\\\"\"\x7d\n" := by
  decide +kernel

end Event
end WasmBuild.Report
