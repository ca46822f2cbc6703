import BuildFront.NameMap
import BuildFront.Path

/-!
What a program is to be run with. Arguments are texts: bytes that are none are replaced when an
argument is added.
-/

namespace BuildFront

structure Invocation where
  program : Path
  args : List String
  /-- Variables set for the program over those it inherits. -/
  env : NameMap String
  /-- The directory to run in, if not the present one. -/
  cwd : Option Path
  /-- What is written to the program's input; without it the input is inherited. -/
  input : Option Bytes

namespace Invocation

def ofProgram (program : Path) : Invocation :=
  ⟨program, [], .empty, none, none⟩

def withArg (i : Invocation) (arg : Path) : Invocation :=
  { i with args := i.args ++ [arg.display] }

def withArgs (i : Invocation) (args : List Path) : Invocation :=
  { i with args := i.args ++ args.map Path.display }

def withEnv (i : Invocation) (name value : String) : Invocation :=
  { i with env := i.env.insert name value }

def withCwd (i : Invocation) (cwd : Path) : Invocation :=
  { i with cwd := some cwd }

def withInput (i : Invocation) (data : Bytes) : Invocation :=
  { i with input := some data }

/-- The command as shown in messages, its words apart by spaces and not quoted. -/
def display (i : Invocation) : String :=
  " ".intercalate (i.program.display :: i.args)

end Invocation
end BuildFront
