import WasmBuild.FileTree.Basic
import WasmBuild.Toolchain

/-!
# Compilers

A compiler answers an invocation. What it does may depend on how many calls came before and on the
file tree that it finds; its reply holds the verdict, the tree it leaves, what it printed and how
long it took.
-/
namespace WasmBuild.Build

/-- Why one compiler call failed: it could not be launched, or it ended with a status or, without
one, by a signal. -/
inductive CompileError where
  | launch (reason : String)
  | exit (status : Option Int)
  deriving Repr, DecidableEq

def CompileError.message : CompileError → String
  | launch reason => "could not launch compiler: " ++ reason
  | exit (some status) => "compiler exited with status " ++ toString status
  | exit none => "compiler terminated by signal"

/-- The two streams that a program prints to. -/
inductive Stream where
  | out
  | err
  deriving Repr, DecidableEq

structure Printed where
  stream : Stream
  text : String
  deriving Repr, DecidableEq

/-- The files and the clock that a build works in, and how many compiler calls were made. -/
structure World where
  tree : FileTree
  calls : Nat
  clockMs : Nat

/-- The reply of a compiler to one call. -/
structure Reply where
  result : Except CompileError Unit
  tree : FileTree
  printed : List Printed
  elapsedMs : Nat

/-- A compiler: from the number of earlier calls, the invocation and the files to a reply. -/
abbrev Compiler := Nat → Invocation → FileTree → Reply

/-- The world after a compiler has replied. -/
def World.afterCall (world : World) (reply : Reply) : World :=
  ⟨reply.tree, world.calls + 1, world.clockMs + reply.elapsedMs⟩

/-- The reply to the next call in a world. -/
def Compiler.reply (compiler : Compiler) (world : World) (invocation : Invocation) : Reply :=
  compiler world.calls invocation world.tree

end WasmBuild.Build
