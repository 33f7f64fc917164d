import WasmBuild.Decimal
import WasmBuild.Manifest.Basic
import WasmBuild.Text.Quoted
import WasmBuild.Toml.Node

/-!
# The shape of a manifest

A manifest is read from the entries of a document in their order. The first value of a wrong shape
ends the reading with a fault; a key that means nothing is noted, and its value is not looked at.
A table of settings may also be written as an array of its values in declared order.
-/
namespace WasmBuild.Manifest

open Toml

/-- What a value should have been. -/
inductive Expected where
  | text
  | path
  | sequence
  | outputTable
  | projectTable
  deriving Repr, DecidableEq

def Expected.words : Expected → String
  | text => "a string"
  | path => "path string"
  | sequence => "a sequence"
  | outputTable => "struct OutputConfig"
  | projectTable => "struct ProjectEntry"

/-- Why a value has the wrong shape. -/
inductive FaultCause where
  | wrongType (found : String) (expected : Expected)
  | missingName
  | emptyProject
  | unknownLevel (word : String)
  | noTextOrTable
  | noElement
  | manyElements
  | noTable (found : String)
  | fullTable
  | fullTables
  deriving Repr, DecidableEq

/-- A word between backticks. -/
def ticked (word : String) : String := "`" ++ word ++ "`"

def FaultCause.words : FaultCause → String
  | wrongType found expected => "invalid type: " ++ found ++ ", expected " ++ expected.words
  | missingName => "missing field `name`"
  | emptyProject => "invalid length 0, expected struct ProjectEntry with 3 elements"
  | unknownLevel word => "unknown variant " ++ ticked word ++ ", expected one of " ++
      String.intercalate ", " (Verbosity.names.map ticked)
  | noTextOrTable => "wanted string or table"
  | noElement => "wanted exactly 1 element, found 0 elements"
  | manyElements => "wanted exactly 1 element, more than 1 element"
  | noTable found => "expected table, found " ++ found
  | fullTable => "expected empty table"
  | fullTables => "expected empty array"

/-- A value of a wrong shape, with its place. A table that was only mentioned has none. -/
structure Fault where
  cause : FaultCause
  span? : Option Span
  deriving Repr, DecidableEq

/-- The fault with a place, where it has none yet. -/
def Fault.orAt (fault : Fault) (span? : Option Span) : Fault :=
  { fault with span? := fault.span?.or span? }

/-- A result whose fault stands at a place, if there is one, where it has no place of its own. -/
def placedAt {α : Type} (span? : Option Span) : Except Fault α → Except Fault α
  | .ok a => .ok a
  | .error fault => .error (fault.orAt span?)

/-- The words for the type and value of a node. -/
def describe : Node → String
  | .string _ text => "string " ++ Text.quoted text
  | .integer _ value => "integer " ++ ticked (toString value)
  | .float _ value => "floating point " ++ ticked value.text
  | .boolean _ value => "boolean " ++ ticked (if value then "true" else "false")
  | .dateTime _ | .table .. => "map"
  | .array .. | .tables _ => "sequence"

/-- The fault of a node that should have been something else. -/
def wrongType {α : Type} (expected : Expected) (node : Node) : Except Fault α :=
  .error ⟨.wrongType (describe node) expected, node.span?⟩

def readString (expected : Expected) : Node → Except Fault String
  | .string _ text => .ok text
  | node => wrongType expected node

def readPath (node : Node) : Except Fault Path :=
  match readString .path node with
  | .ok text => .ok (.ofString text)
  | .error fault => .error fault

def readLevelName (word : String) (span : Span) : Except Fault Verbosity :=
  match Verbosity.ofName? word with
  | some level => .ok level
  | none => .error ⟨.unknownLevel word, some span⟩

/-- Checks that the value beside the name of a level is empty. -/
def checkEmpty : Node → Except Fault Unit
  | .table span? _ entries => if entries.isEmpty then .ok () else .error ⟨.fullTable, span?⟩
  | .array span items => if items.isEmpty then .ok () else .error ⟨.fullTable, some span⟩
  | .tables items =>
    if items.isEmpty then .ok () else .error ⟨.fullTables, (Node.tables items).span?⟩
  | .string span _ => .error ⟨.noTable "string", some span⟩
  | .integer span _ => .error ⟨.noTable "integer", some span⟩
  | .float span _ => .error ⟨.noTable "float", some span⟩
  | .boolean span _ => .error ⟨.noTable "boolean", some span⟩
  | .dateTime span => .error ⟨.noTable "datetime", some span⟩

/-- Reads a level: its name, or a table with its name as the only key and nothing in it. A fault
inside that table which has no place of its own stands at the table. -/
def readVerbosity : Node → Except Fault Verbosity
  | .string span word => readLevelName word span
  | .table span? _ [] => .error ⟨.noElement, span?⟩
  | .table span? _ [(key, node)] =>
    match readLevelName key.name key.span with
    | .error fault => .error fault
    | .ok level =>
      match placedAt span? (checkEmpty node) with
      | .error fault => .error fault
      | .ok () => .ok level
  | .table span? _ (_ :: _ :: _) => .error ⟨.manyElements, span?⟩
  | node => .error ⟨.noTextOrTable, node.span?⟩

/-- A key that means nothing where it stands. A date or time in the place of a table counts as a
table with one such key, which is written nowhere. -/
structure UnknownKey where
  name : String
  span? : Option Span
  deriving Repr, DecidableEq

/-- The unknown key that a date or time holds. -/
def UnknownKey.inDateTime : UnknownKey := ⟨"$__toml_private_datetime", none⟩

/-- The unknown key that a document holds. -/
def UnknownKey.ofKey (key : Key) : UnknownKey := ⟨key.name, some key.span⟩

/-- A value that was read, with the unknown keys that were met. -/
structure Noted (α : Type) where
  value : α
  unknown : List UnknownKey
  deriving Repr, DecidableEq

/-- Reads the entries of a table one after the other into a value. -/
def readEntries {α : Type} (read : Key → Node → Noted α → Except Fault (Noted α)) :
    Entries → Noted α → Except Fault (Noted α)
  | [], noted => .ok noted
  | (key, node) :: rest, noted =>
    match placedAt (some key.span) (read key node noted) with
    | .ok noted => readEntries read rest noted
    | .error fault => .error fault

namespace Noted

variable {α β : Type}

/-- A value that met no unknown key. -/
def clean (value : α) : Noted α := ⟨value, []⟩

def note (noted : Noted α) (key : UnknownKey) : Noted α :=
  { noted with unknown := noted.unknown ++ [key] }

/-- The value changed by the result of reading one field. -/
def set (noted : Noted α) (change : α → β → α) : Except Fault β → Except Fault (Noted α)
  | .ok b => .ok { noted with value := change noted.value b }
  | .error fault => .error fault

/-- The value changed by another that met unknown keys of its own. -/
def merge (noted : Noted α) (change : α → β → α) : Except Fault (Noted β) → Except Fault (Noted α)
  | .ok inner => .ok ⟨change noted.value inner.value, noted.unknown ++ inner.unknown⟩
  | .error fault => .error fault

end Noted

def readOutputEntry (key : Key) (node : Node) (noted : Noted Verbosity) :
    Except Fault (Noted Verbosity) :=
  if key.name = "verbosity" then noted.set (fun _ level => level) (readVerbosity node)
  else .ok (noted.note (.ofKey key))

def readOutput : Node → Except Fault (Noted Verbosity)
  | .table _ _ entries => readEntries readOutputEntry entries (.clean .normal)
  | .dateTime _ => .ok ⟨.normal, [.inDateTime]⟩
  | .array _ items | .tables items =>
    match items with
    | [] => .ok (.clean .normal)
    | first :: _ =>
      match readVerbosity first with
      | .ok level => .ok (.clean level)
      | .error fault => .error fault
  | node => wrongType .outputTable node

/-- A project entry while it is read: its name may still be missing. -/
structure EntryDraft where
  name? : Option String
  subDir : Path
  dir? : Option Path
  deriving Repr, DecidableEq

def EntryDraft.blank : EntryDraft := ⟨none, ⟨[]⟩, none⟩

def readProjectField (key : Key) (node : Node) (noted : Noted EntryDraft) :
    Except Fault (Noted EntryDraft) :=
  if key.name = "name" then
    noted.set (fun d name => { d with name? := some name }) (readString .text node)
  else if key.name = "sub_dir" then
    noted.set (fun d path => { d with subDir := path }) (readPath node)
  else if key.name = "dir" then
    noted.set (fun d path => { d with dir? := some path }) (readPath node)
  else .ok (noted.note (.ofKey key))

/-- The entry of a draft, which has to have its name. -/
def EntryDraft.finish (span? : Option Span) (noted : Noted EntryDraft) :
    Except Fault (Noted ProjectEntry) :=
  match noted.value.name? with
  | some name => .ok ⟨⟨name, noted.value.subDir, noted.value.dir?⟩, noted.unknown⟩
  | none => .error ⟨.missingName, span?⟩

/-- Reads a path that may be missing from an array. -/
def readItemPath? : List Node → Except Fault (Option Path)
  | [] => .ok none
  | node :: _ =>
    match readPath node with
    | .ok path => .ok (some path)
    | .error fault => .error fault

/-- Reads a project that is written as an array. -/
def readProjectItems (span : Span) : List Node → Except Fault ProjectEntry
  | [] => .error ⟨.emptyProject, some span⟩
  | first :: rest =>
    match readString .text first with
    | .error fault => .error fault
    | .ok name =>
      match readItemPath? rest with
      | .error fault => .error fault
      | .ok subDir? =>
        match readItemPath? rest.tail with
        | .error fault => .error fault
        | .ok dir? => .ok ⟨name, subDir?.getD ⟨[]⟩, dir?⟩

def readProject : Node → Except Fault (Noted ProjectEntry)
  | .table span? _ entries =>
    match readEntries readProjectField entries (.clean .blank) with
    | .ok noted => EntryDraft.finish span? noted
    | .error fault => .error fault
  | .array span items =>
    match readProjectItems span items with
    | .ok entry => .ok (.clean entry)
    | .error fault => .error fault
  | .dateTime span => .error ⟨.missingName, some span⟩
  | node => wrongType .projectTable node

/-- Reads projects one after the other. -/
def readProjectList : List Node → Except Fault (Noted (List ProjectEntry))
  | [] => .ok (.clean [])
  | node :: rest =>
    match readProject node with
    | .error fault => .error fault
    | .ok first =>
      match readProjectList rest with
      | .error fault => .error fault
      | .ok others => .ok ⟨first.value :: others.value, first.unknown ++ others.unknown⟩

def readProjects : Node → Except Fault (Noted (List ProjectEntry))
  | .array _ items | .tables items => readProjectList items
  | node => wrongType .sequence node

/-- The manifest that says nothing. -/
def blank : Manifest := ⟨defaultOutputBase, .normal, []⟩

def readEntry (key : Key) (node : Node) (noted : Noted Manifest) :
    Except Fault (Noted Manifest) :=
  if key.name = "output_base" then
    noted.set (fun m path => { m with outputBase := path }) (readPath node)
  else if key.name = "output" then
    noted.merge (fun m level => { m with verbosity := level }) (readOutput node)
  else if key.name = "project" then
    noted.merge (fun m projects => { m with projects := projects }) (readProjects node)
  else .ok (noted.note (.ofKey key))

/-- Reads a manifest from the entries of a document. -/
def ofEntries (entries : Entries) : Except Fault (Noted Manifest) :=
  readEntries readEntry entries (.clean blank)

end WasmBuild.Manifest
