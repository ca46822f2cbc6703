import BuildFront.Invocation
import BuildFront.Fault

/-!
Running a program: what can become of it, and what is made of that. A program that stops reading
before its input ends is not at fault for that alone; its exit decides. Whatever happens, a program
that was started is waited for.
-/

namespace BuildFront

inductive ExitStatus where
  | code (n : Nat)
  | signal (number : Nat)
  deriving DecidableEq

namespace ExitStatus

def success : ExitStatus → Bool
  | .code n => n == 0
  | .signal _ => false

/-- The exit code, which a program ended by a signal has not. -/
def code? : ExitStatus → Option Nat
  | .code n => some n
  | .signal _ => none

end ExitStatus

inductive SpawnFault where
  | os (e : OsError)
  | nulByte
  deriving DecidableEq

def SpawnFault.message : SpawnFault → String
  | .os e => e.message
  | .nulByte => "nul byte found in provided data"

inductive Feed where
  | complete
  | brokenPipe
  | failed (e : OsError)
  deriving DecidableEq

/-- A program that was started: how its input was taken, how it ended, and what it printed. -/
structure Child where
  feed : Feed
  verdict : Except OsError ExitStatus
  output : Bytes
  errors : Bytes

inductive Launch where
  | refused (fault : SpawnFault)
  | started (child : Child)

/-- What is done with a program, one thing after another. -/
inductive Act where
  | spawn
  | write
  | close
  | wait
  deriving DecidableEq

inductive LaunchError where
  | spawn (program : Path) (fault : SpawnFault)
  | feed (program : Path) (e : OsError)
  | wait (program : Path) (e : OsError)
  deriving DecidableEq

namespace LaunchError

def chain : LaunchError → String
  | .spawn p fault => "failed to spawn `" ++ p.display ++ "`: " ++ fault.message
  | .feed p e => "failed to write stdin of `" ++ p.display ++ "`: " ++ e.message
  | .wait p e => "failed to wait for `" ++ p.display ++ "`: " ++ e.message

end LaunchError

namespace Invocation

/-- What is done for a program once it runs, its input included if there is one. -/
def acts (i : Invocation) : List Act :=
  if i.input.isSome then [.spawn, .write, .close, .wait] else [.spawn, .wait]

def verdictOf (i : Invocation) (child : Child) : Except LaunchError ExitStatus :=
  child.verdict.mapError (.wait i.program)

/-- Run a program to its end, given what becomes of it. -/
def supervise (i : Invocation) : Launch → List Act × Except LaunchError ExitStatus
  | .refused fault => ([], .error (.spawn i.program fault))
  | .started child =>
    match i.input, child.feed with
    | some _, .failed e => (i.acts, .error (.feed i.program e))
    | _, _ => (i.acts, i.verdictOf child)

end Invocation
end BuildFront
