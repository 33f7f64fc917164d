import WasmBuild.FileTree.Error
import WasmBuild.Path

/-!
# Failures

Every failure ends the command that meets it; nothing is retried. A failure has a message for
people and a short stable code for programs.
-/
namespace WasmBuild

/-- Why loading a manifest, choosing projects or building failed. -/
inductive Failure where
  | unsupportedExtension (fileName : String)
  | missingToolchain
  | compileFailure (file : Path) (reason : String)
  | io (error : FileError)
  | invalidManifest (file : Path) (message : String)
  | noProjects (file : Path)
  | unknownProject (name : String)
  deriving Repr, DecidableEq

namespace Failure

def message : Failure → String
  | unsupportedExtension fileName => "unknown extension: " ++ fileName
  | missingToolchain =>
    "no EMCC_DIR specified - the source programs will not be compiled to .wasm"
  | compileFailure file reason => "failed to compile " ++ file.display ++ ": " ++ reason
  | io error => "IO error: " ++ error.message
  | invalidManifest file message => "invalid manifest " ++ file.display ++ ": " ++ message
  | noProjects file => "no projects declared in " ++ file.display
  | unknownProject name => "unknown project '" ++ name ++ "'"

def code : Failure → String
  | unsupportedExtension _ => "unsupported_extension"
  | missingToolchain => "missing_toolchain"
  | compileFailure _ _ => "compile_failure"
  | io _ => "io"
  | invalidManifest _ _ => "invalid_manifest"
  | noProjects _ => "no_projects"
  | unknownProject _ => "unknown_project"

/-- The failure beneath this one, as a text. Only an error of the file system has one: it is the
error itself. -/
def cause? : Failure → Option String
  | io error => some error.message
  | _ => none

/-- Advice for the failures that a user can mend directly. -/
def help? : Failure → Option String
  | missingToolchain =>
    some "Set EMCC_DIR to the directory containing emcc (e.g. <emsdk>/upstream/emscripten)."
  | noProjects _ =>
    some "Add a [[project]] table with at least a `name` to the manifest."
  | unknownProject _ =>
    some "Run `emproj results` without --project to see every declared project."
  | _ => none

end Failure
end WasmBuild
