import WasmBuild.Build.Event
import WasmBuild.FileTree.Error
import WasmBuild.Json.Record

/-!
# Events for programs

In machine-readable mode everything that happens is an event on a line of its own: a flat JSON
object whose first field is the tag of the event. A path has to be valid UTF-8; an event with any
other path has no line.
-/
namespace WasmBuild.Report

def version : String := "0.1.0"

/-- One event of the stream. -/
inductive Event where
  | start (command : String)
  | complete (command : String) (durationMs : Option Nat)
  | error (code message : String) (help : Option String)
  | warning (key : String) (file : Path) (line : Option Nat) (suggestion : Option String)
  | needsBuild (project : String) (required : Bool) (reason : Option String)
  | clean (project : String) (removed : Nat)
  | result (project : String) (path : Path)
  | source (project : String) (source js wasm : Path)
  | progress (event : Build.Event)
  deriving Repr, DecidableEq

/-- The value of a field, before its text is known to exist. -/
inductive Field where
  | text (value : String)
  | number (value : Nat)
  | flag (value : Bool)
  | path (value : Path)
  deriving Repr, DecidableEq

/-- The value as it is written; a path has to be valid UTF-8. -/
def Field.scalar? : Field → Option Json.Scalar
  | text value => some (.text value)
  | number value => some (.number value)
  | flag value => some (.flag value)
  | path value => value.text?.map .text

/-- A field that is left out when it has no value. -/
def optional {α : Type} (name : String) (field : α → Field) (value : Option α) :
    List (String × Field) :=
  match value with
  | some a => [(name, field a)]
  | none => []

def progressFields : Build.Event → List (String × Field)
  | .started project sourceDir outputDir =>
    [("event", .text "build_started"), ("project", .text project),
      ("source_dir", .path sourceDir), ("output_dir", .path outputDir)]
  | .unitStarted index source command =>
    [("event", .text "unit_started"), ("index", .number index), ("source", .path source),
      ("command", .text command)]
  | .unitCompiled index source wasm =>
    [("event", .text "unit_compiled"), ("index", .number index), ("source", .path source),
      ("wasm", .path wasm)]
  | .completed project compiled durationMs =>
    [("event", .text "build_completed"), ("project", .text project),
      ("compiled", .number compiled), ("duration_ms", .number durationMs)]
  | .failed project error =>
    [("event", .text "build_failed"), ("project", .text project), ("error", .text error)]

namespace Event

/-- The tag and fields of an event, in the order in which they are written. -/
def fields : Event → List (String × Field)
  | start command =>
    [("event", .text "start"), ("command", .text command), ("version", .text version)]
  | complete command durationMs =>
    [("event", .text "complete"), ("command", .text command), ("success", .flag true)] ++
      optional "duration_ms" .number durationMs
  | error code message help =>
    [("event", .text "error"), ("code", .text code), ("message", .text message)] ++
      optional "help" .text help
  | warning key file line suggestion =>
    [("event", .text "warning"), ("key", .text key), ("file", .path file)] ++
      optional "line" .number line ++ optional "suggestion" .text suggestion
  | needsBuild project required reason =>
    [("event", .text "needs_build"), ("project", .text project), ("required", .flag required)] ++
      optional "reason" .text reason
  | clean project removed =>
    [("event", .text "clean"), ("project", .text project), ("removed", .number removed)]
  | result project path =>
    [("event", .text "result"), ("project", .text project), ("path", .path path)]
  | source project file js wasm =>
    [("event", .text "source"), ("project", .text project), ("source", .path file),
      ("js", .path js), ("wasm", .path wasm)]
  | progress event => progressFields event

end Event

/-- The record of named fields, if every path among them is valid UTF-8. -/
def recordOf? : List (String × Field) → Option Json.Record
  | [] => some []
  | (name, field) :: rest =>
    match field.scalar?, recordOf? rest with
    | some value, some record => some ((name, value) :: record)
    | _, _ => none

namespace Event

def record? (event : Event) : Option Json.Record := recordOf? event.fields

def line (event : Event) : Except FileError String :=
  match event.record? with
  | some record => .ok record.line
  | none => .error .illFormedPath

end Event
end WasmBuild.Report
