import WasmBuild.Failure

/-!
# Projects, units and artifacts

A project is a named directory of C sources. They lie under `<dir>/src/<name>/<sub_dir>`, and all
artifacts go to the one directory `<output_base>/<name>`. A source unit is one `.c` file that is
compiled on its own, known by the directory it was found in and its bare name. The base of a unit is
its file name without the final `.c`. The compiler writes `<base>.js` and, beside it, the declared
result `<base>.wasm`, both directly inside the output directory; units of different source
directories share that one flat name space.
-/
namespace WasmBuild

/-- A project as declared, with its directories. -/
structure Project where
  name : String
  dir : Path
  subDir : Path
  outputBase : Path
  deriving Repr, DecidableEq

namespace Project

/-- The root of the tree in which units are looked for. -/
def sourceDir (p : Project) : Path :=
  ((p.dir.join (.ofString "src")).join (.ofString p.name)).join p.subDir

/-- The directory that every artifact is written to. -/
def outputDir (p : Project) : Path := p.outputBase.join (.ofString p.name)

/-- What is being done when the project is built. -/
def description (p : Project) : String := "Building " ++ p.name ++ " with Emscripten"

end Project

/-! ## Units -/

/-- The ending that makes a file a compilation unit. -/
def sourceSuffix : Bytes := Utf8.encode ".c"

/-- Whether a name ends in exactly `.c`. -/
def isSourceName (name : Bytes) : Bool := sourceSuffix.isSuffixOf name

/-- A compilation unit. -/
structure SourceUnit where
  dir : Path
  fileName : Bytes
  deriving Repr, DecidableEq

/-- The path that is handed to the compiler. -/
def SourceUnit.path (unit : SourceUnit) : Path := unit.dir.child unit.fileName

/-! ## Artifacts -/

/-- A name without its final `.c`, if it ends so. -/
def stripSourceSuffix? (name : Bytes) : Option Bytes :=
  let (base, ending) := name.splitAt (name.length - sourceSuffix.length)
  if ending = sourceSuffix then some base else none

/-- The base of a name; a name that does not end in `.c` is not supported. -/
def baseName (name : Bytes) : Except Failure Bytes :=
  match stripSourceSuffix? name with
  | some base => .ok base
  | none => .error (.unsupportedExtension (Utf8.lossy name))

/-- The files that compiling one unit produces. -/
structure Artifacts where
  js : Path
  wasm : Path
  deriving Repr, DecidableEq

def Artifacts.derive (outputDir : Path) (name : Bytes) : Except Failure Artifacts :=
  match baseName name with
  | .ok base => .ok
    { js := outputDir.child (base ++ Utf8.encode ".js")
      wasm := outputDir.child (base ++ Utf8.encode ".wasm") }
  | .error failure => .error failure

end WasmBuild
