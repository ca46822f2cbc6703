import BuildFront.Text.Utf8

/-!
Paths as byte strings separated by slashes, and their lexical normal form: `.` and `..` are folded
away without asking any file system, and `..` remains only at the front of a path without a root.
-/

namespace BuildFront

structure Path where
  bytes : Bytes
  deriving DecidableEq

namespace Path

def slash : UInt8 := 0x2F

def dot : UInt8 := 0x2E

def ofString (s : String) : Path :=
  ⟨Utf8.ofString s⟩

/-- The path as shown in messages. -/
def display (p : Path) : String :=
  Utf8.lossy p.bytes

/-- The path as a text that stands for exactly this path, if there is one. -/
def text? (p : Path) : Option String :=
  Utf8.toString? p.bytes

def isEmpty (p : Path) : Bool :=
  p.bytes.isEmpty

/-- A path with a root does not depend on a working directory. -/
def isRooted (p : Path) : Bool :=
  p.bytes.head? == some slash

/-- The pieces between slashes, empty ones included. -/
def pieces (p : Path) : List Bytes :=
  p.bytes.splitOn slash

inductive Part where
  | root
  | here
  | up
  | name (bytes : Bytes)
  deriving DecidableEq

/-- The part a piece stands for. Empty pieces and `.` stand for none. -/
def partOf? (piece : Bytes) : Option Part :=
  if piece = [] ∨ piece = [dot] then none
  else if piece = [dot, dot] then some .up
  else some (.name piece)

/-- The parts of a path. Repeated and trailing slashes and inner dots leave no trace; a dot at the
very front does. -/
def parts (p : Path) : List Part :=
  if p.isRooted then .root :: p.pieces.filterMap partOf?
  else match p.pieces with
    | first :: rest =>
      if first = [dot] then .here :: rest.filterMap partOf?
      else (first :: rest).filterMap partOf?
    | [] => []

/-- Append `p` below `base`; a rooted `p` stands for itself. -/
def join (base p : Path) : Path :=
  if p.isRooted then p
  else if base.isEmpty || base.bytes.getLast? == some slash then ⟨base.bytes ++ p.bytes⟩
  else ⟨base.bytes ++ slash :: p.bytes⟩

/-- One part taken onto the directories walked so far, the innermost first. `..` leaves the
innermost directory; above the root it stays, and without a root it is kept once nothing is left to
leave. -/
def step (rooted : Bool) (stack : List Part) : Part → List Part
  | .root | .here => stack
  | .name n => .name n :: stack
  | .up =>
    match stack with
    | .name _ :: outer => outer
    | .up :: _ => .up :: stack
    | _ => if rooted then stack else .up :: stack

def Part.bytes : Part → Bytes
  | .root => []
  | .here => [dot]
  | .up => [dot, dot]
  | .name n => n

/-- A path written with single slashes. -/
def ofParts (rooted : Bool) (parts : List Part) : Path :=
  let body := [slash].intercalate (parts.map Part.bytes)
  ⟨if rooted then slash :: body else body⟩

/-- Fold `.` and `..` without touching a file system. -/
def normalize (p : Path) : Path :=
  ofParts p.isRooted (p.parts.foldl (step p.isRooted) []).reverse

/-- The path as seen from the directory `cwd`, folded. -/
def absolutize (cwd p : Path) : Path :=
  normalize (join cwd p)

/-- Whether all bytes can be handed to the operating system. -/
def hasNul (p : Path) : Bool :=
  p.bytes.contains 0

end Path
end BuildFront
