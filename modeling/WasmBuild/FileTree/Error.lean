/-!
# Errors of the file system

The reasons for which an operation on files is refused, with the texts and kinds under which they
are reported.
-/
namespace WasmBuild

/-- Why an operation on files failed. `other` holds any further reason by its text. -/
inductive FileError where
  | notFound
  | permissionDenied
  | notExecutable
  | alreadyExists
  | notADirectory
  | isADirectory
  | nameTooLong
  | tooManyLinks
  | nulInName
  | nulInArgument
  | illFormedContent
  | illFormedPath
  | other (text : String)
  deriving Repr, DecidableEq

namespace FileError

/-- The text of an error. Those of the system carry its number. -/
def message : FileError → String
  | notFound => "No such file or directory (os error 2)"
  | notExecutable => "Exec format error (os error 8)"
  | permissionDenied => "Permission denied (os error 13)"
  | alreadyExists => "File exists (os error 17)"
  | notADirectory => "Not a directory (os error 20)"
  | isADirectory => "Is a directory (os error 21)"
  | nameTooLong => "File name too long (os error 36)"
  | tooManyLinks => "Too many levels of symbolic links (os error 40)"
  | nulInName => "file name contained an unexpected NUL byte"
  | nulInArgument => "nul byte found in provided data"
  | illFormedContent => "stream did not contain valid UTF-8"
  | illFormedPath => "path contains invalid UTF-8 characters"
  | other text => text

/-- The name of the class that an error belongs to. -/
def kind : FileError → String
  | notFound => "NotFound"
  | permissionDenied => "PermissionDenied"
  | alreadyExists => "AlreadyExists"
  | notADirectory => "NotADirectory"
  | isADirectory => "IsADirectory"
  | nameTooLong => "InvalidFilename"
  | tooManyLinks => "FilesystemLoop"
  | nulInName | nulInArgument => "InvalidInput"
  | illFormedContent | illFormedPath => "InvalidData"
  | notExecutable => "Uncategorized"
  | other _ => "Other"

end FileError
end WasmBuild
