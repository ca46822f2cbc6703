import BuildFront.Launch
import BuildFront.Machine.FileTree
import BuildFront.Surroundings.Octets

/-!
A system program seen from outside: what it is called with, and what it leaves behind.
-/

namespace BuildFront

structure Call where
  name : Octets
  args : List Octets
  env : NameMap Octets
  cwd : Place
  files : FileTree
  /-- What can be read, unless the input is closed. -/
  input : Option Bytes
  /-- Whether a reader of the input may go back in it. -/
  rewinds : Bool
  /-- The signals that do nothing to the program. -/
  ignored : List Nat

structure Report where
  status : ExitStatus
  written : List (Nat × Bytes)
  unread : Bytes
  files : FileTree

namespace Report

def stream (r : Report) (number : Nat) : Bytes :=
  r.written.flatMap (fun w => if w.1 = number then w.2 else [])

end Report

def Tool.shellName : String := "sh"

/-- How programs are run, by their names on the system. -/
abbrev Runner := String → Call → Option Report

end BuildFront
