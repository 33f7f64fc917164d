import WasmBuild.Text.Utf8

/-!
# Paths

A path is a byte string and is kept as it was written: joining adds at most one separator and never
normalises. The segments of a path are the byte strings between separators. Its components are what
the segments mean: empty segments and `.` count for nothing, except that a leading separator is the
root and a leading `.` is kept. Two paths with the same components name the same place from the
same directory. The last dot of a file name divides it into a stem and an extension, unless nothing
stands before that dot: a name that is hidden by a leading dot, and has no other, is all stem, as is
a name without a dot.
-/
namespace WasmBuild

/-- The byte between two segments of a path. -/
def separator : UInt8 := 0x2F

/-- A path as written. -/
structure Path where
  bytes : Bytes
  deriving Repr, DecidableEq, Inhabited

namespace Path

def ofString (text : String) : Path := ⟨Utf8.encode text⟩

/-- An absolute path starts with the separator. -/
def isAbsolute (p : Path) : Bool := p.bytes.head? == some separator

/-- `child` as seen from `base`. An absolute child replaces the base. Otherwise a separator stands
between the two unless the base is empty or ends in one, so joining the empty path adds a trailing
separator. -/
def join (base child : Path) : Path :=
  if child.isAbsolute then child
  else if base.bytes.isEmpty || base.bytes.getLast? == some separator then
    ⟨base.bytes ++ child.bytes⟩
  else ⟨base.bytes ++ separator :: child.bytes⟩

/-- The entry called `name` inside `base`. -/
def child (base : Path) (name : Bytes) : Path := base.join ⟨name⟩

def text? (p : Path) : Option String := Utf8.decode? p.bytes

/-- The text of a path for people, with ill-formed bytes replaced. -/
def display (p : Path) : String := Utf8.lossy p.bytes

end Path

/-! ## Components -/

/-- One part of a path's meaning. -/
inductive Component where
  | root
  | here
  | up
  | named (name : Bytes)
  deriving Repr, DecidableEq

/-- The segment that names the directory itself. -/
def dotSegment : Bytes := [0x2E]

/-- The segment that names the directory above. -/
def dotDotSegment : Bytes := [0x2E, 0x2E]

/-- A segment that moves nowhere. -/
def isIdleSegment (segment : Bytes) : Bool := segment.isEmpty || segment == dotSegment

/-- The component that a segment inside a path stands for. -/
def Component.ofSegment? (segment : Bytes) : Option Component :=
  if isIdleSegment segment then none
  else if segment = dotDotSegment then some .up
  else some (.named segment)

/-- The byte strings between separators, empty ones included; there is always at least one. -/
def segmentsOf : Bytes → List Bytes
  | [] => [[]]
  | b :: rest =>
    if b = separator then [] :: segmentsOf rest
    else match segmentsOf rest with
      | [] => [[b]]
      | s :: more => (b :: s) :: more

/-- The byte string with the given segments. -/
def ofSegments (segments : List Bytes) : Bytes := List.intercalate [separator] segments

/-- Segments without the idle ones at their end. -/
def dropIdleEnd (segments : List Bytes) : List Bytes :=
  (segments.reverse.dropWhile isIdleSegment).reverse

namespace Path

def segments (p : Path) : List Bytes := segmentsOf p.bytes

def components (p : Path) : List Component :=
  let lead := if p.isAbsolute then [Component.root]
    else if p.segments.head? = some dotSegment then [.here] else []
  lead ++ p.segments.filterMap Component.ofSegment?

/-- The last component, where it is a name. -/
def fileName? (p : Path) : Option Bytes :=
  match p.components.getLast? with
  | some (.named name) => some name
  | _ => none

/-- A path without its last component, kept as written up to there, with nothing idle at its end.
The root and the empty path have no parent, and the parent of a path of one component is empty. -/
def parent? (p : Path) : Option Path :=
  if p.isAbsolute then
    match dropIdleEnd p.segments.tail with
    | [] => none
    | kept => some ⟨separator :: ofSegments (dropIdleEnd kept.dropLast)⟩
  else if p.segments.head? = some dotSegment then
    match dropIdleEnd p.segments.tail with
    | [] => some ⟨[]⟩
    | kept => some ⟨ofSegments (dotSegment :: dropIdleEnd kept.dropLast)⟩
  else
    match dropIdleEnd p.segments with
    | [] => none
    | kept => some ⟨ofSegments (dropIdleEnd kept.dropLast)⟩

/-- A path and at most `count` of the paths above it, nearest first. -/
def ancestorsUpTo : Nat → Path → List Path
  | 0, _ => []
  | count + 1, p => p :: match p.parent? with
    | some up => ancestorsUpTo count up
    | none => []

/-- A path, its parent, and so on up to the root or the empty path. Every step removes at least one
byte, so the length bounds their number. -/
def ancestors (p : Path) : List Path := ancestorsUpTo (p.bytes.length + 1) p

end Path

/-! ## Stems and extensions -/

/-- The byte between a stem and an extension. -/
def dot : UInt8 := 0x2E

/-- A name as a stem and, where there is one, an extension. -/
def divideName (name : Bytes) : Bytes × Option Bytes :=
  let stem := ((name.reverse.dropWhile (· != dot)).drop 1).reverse
  let extension := (name.reverse.takeWhile (· != dot)).reverse
  if stem.isEmpty then (name, none) else (stem, some extension)

/-- A name is divided at a dot that no other follows. -/
theorem divideName_append {stem extension : Bytes} (last : dot ∉ extension) :
    divideName (stem ++ dot :: extension) =
      if stem = [] then (stem ++ dot :: extension, none) else (stem, some extension) := by
  have reversed : (stem ++ dot :: extension).reverse =
      extension.reverse ++ dot :: stem.reverse := by simp
  have dotless : ∀ b ∈ extension.reverse, (b != dot) = true := by
    intro b member
    have different : b ≠ dot := fun same => last (same ▸ List.mem_reverse.1 member)
    simpa using different
  simp only [divideName, reversed, List.dropWhile_append_of_pos dotless,
    List.takeWhile_append_of_pos dotless]
  simp

namespace Path

def fileStem? (p : Path) : Option Bytes := p.fileName?.map fun name => (divideName name).1

def extension? (p : Path) : Option Bytes := p.fileName?.bind fun name => (divideName name).2

end Path

end WasmBuild
