import WasmBuild.Manifest.Shape
import WasmBuild.Text.Utf8

/-!
# Showing a fault in its line

The report of a fault shows where it is: the line and column, the line itself under a gutter, and
carets beneath the place. There is a caret for each byte of the place, but none beyond the end of
its first line, and always at least one.
-/
namespace WasmBuild.Manifest

open Toml

def byteCount (chars : List Char) : Nat :=
  chars.foldr (fun c count => c.utf8Size + count) 0

/-- A place in a text as people count it: the line from zero, the number of characters before the
place in its line, and the line. -/
structure Position where
  line : Nat
  column : Nat
  content : List Char
  deriving Repr, DecidableEq

/-- The position of the character with a certain index. -/
def positionOf (text : List Char) (index : Nat) : Position :=
  let before := text.take index
  let inLine := (before.reverse.takeWhile (· ≠ '\n')).reverse
  { line := before.count '\n'
    column := inLine.length
    content := inLine ++ (text.drop index).takeWhile (· ≠ '\n') }

def blanks (count : Nat) : String := String.ofList (List.replicate count ' ')

def caretCount (text : List Char) (span : Span) (position : Position) : Nat :=
  let length := byteCount ((text.drop span.start).take (span.stop - span.start))
  max 1 (min length (byteCount position.content - position.column))

def Fault.report (text : List Char) (fault : Fault) : String :=
  match fault.span? with
  | none => fault.cause.words ++ "\n"
  | some span =>
    let position := positionOf text span.start
    let line := toString (position.line + 1)
    let gutter := blanks (line.length + 1) ++ "|"
    "TOML parse error at line " ++ line ++ ", column " ++ toString (position.column + 1) ++ "\n" ++
      gutter ++ "\n" ++
      line ++ " | " ++ String.ofList position.content ++ "\n" ++
      gutter ++ blanks (position.column + 1) ++
      String.ofList (List.replicate (caretCount text span position) '^') ++ "\n" ++
      fault.cause.words ++ "\n"

end WasmBuild.Manifest
