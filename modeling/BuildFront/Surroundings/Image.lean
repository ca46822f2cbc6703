import BuildFront.Machine.FileTree
import BuildFront.Surroundings.Octets
import BuildFront.Surroundings.Tool.Call

/-!
What a file turns out to be when it is run: a program of the system, called with certain arguments.
A script names its interpreter in its first line.
-/

namespace BuildFront

structure Image where
  tool : String
  name : Octets
  args : List Octets

namespace Image

/-- The number of bytes at the front of a file that tell what it is. -/
def window : Nat := 256

def isSpace (b : UInt8) : Bool :=
  b == 0x20 || b == 0x09

/-- What ends the name of an interpreter. Past the end of a file there are zeros. -/
def isTerminator (b : UInt8) : Bool :=
  isSpace b || b == 0

def splitLine? (line : Bytes) : Option (Path × List Octets) :=
  let line := ((line.reverse.dropWhile isSpace).reverse).dropWhile isSpace
  let program := line.takeWhile (!isTerminator ·)
  let rest := line.dropWhile (!isTerminator ·)
  let arg := (rest.dropWhile isSpace).takeWhile (· != 0)
  if line.isEmpty then none
  else some (⟨program⟩, if rest.head?.any isSpace then [Octets.ofBytes arg] else [])

/-- The interpreter of a script and the argument it takes. A line that is cut off must at least have
the whole name of the interpreter. -/
def interpreter? (data : Bytes) : Option (Path × List Octets) :=
  match (data ++ List.replicate window 0).take window with
  | 0x23 :: 0x21 :: rest =>
    let text := rest.takeWhile (· != 0)
    if text.contains 0x0A then splitLine? (text.takeWhile (· != 0x0A))
    else if (rest.dropWhile isSpace).any isTerminator then splitLine? (rest.take (window - 3))
    else none
  | _ => none

def maxScripts : Nat := 5

def ofFault : FileFault → OsError
  | .os e => e
  | _ => .noEntry

/-- What the file at a path is as a program. `scripts` is the number of scripts that may be met on
the way. -/
def ofFile (files : FileTree) (cwd : Place) (name : Octets) (args : List Octets) (scripts : Nat)
    (p : Path) : Except OsError Image :=
  match files.lookup cwd p with
  | .error fault => .error (ofFault fault)
  | .ok (.tool tool) => .ok ⟨tool, name, args⟩
  | .ok (.file data true) =>
    match interpreter? data with
    | none => .error .notExecutable
    | some (program, front) =>
      match scripts with
      | 0 =>
        match files.lookup cwd program with
        | .error fault => .error (ofFault fault)
        | .ok _ => .error .tooManyLinks
      | scripts + 1 =>
        ofFile files cwd (.ofPath program) (front ++ .ofPath p :: args) scripts program
  | .ok _ => .error .accessDenied

end Image

end BuildFront
