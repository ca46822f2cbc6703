import BuildFront.Fault
import BuildFront.Path

/-!
A tree of files with symbolic links, kept as a table from places to what stands there. Following a
path is total: each link taken is counted, and the count is bounded.
-/

namespace BuildFront

/-- A place in the tree: the names that lead to it from the root, none of them a link. -/
abbrev Place := List Bytes

def Place.toPath (place : Place) : Path :=
  ⟨Path.slash :: [Path.slash].intercalate place⟩

inductive Device where
  /-- Swallows what is written and has nothing to read. -/
  | null
  /-- Stands for a stream of whoever opens it. -/
  | stream (number : Nat)
  deriving DecidableEq

inductive Entry where
  | directory
  | file (data : Bytes) (executable : Bool)
  | link (target : Path)
  | tool (name : String)
  | device (d : Device)
  deriving DecidableEq

structure Spot where
  place : Place
  entry : Option Entry
  deriving DecidableEq

structure FileTree where
  entries : List (Place × Entry)

namespace FileTree

/-- What stands at a place. The root is always a directory. -/
def entryAt? (t : FileTree) (place : Place) : Option Entry :=
  if place.isEmpty then some .directory
  else (t.entries.find? (fun e => e.1 == place)).map (·.2)

def put (t : FileTree) (place : Place) (entry : Entry) : FileTree :=
  ⟨(place, entry) :: t.entries.filter (fun e => e.1 != place)⟩

def prune (t : FileTree) (place : Place) : FileTree :=
  ⟨t.entries.filter (fun e => !place.isPrefixOf e.1)⟩

/-- The steps of a path. A slash at the end asks for a directory, as a dot does. -/
def stepsOf (p : Path) : List Bytes :=
  let names := p.pieces.filter (fun piece => !piece.isEmpty)
  if p.bytes.getLast? == some Path.slash && !names.isEmpty then names ++ [[Path.dot]] else names

def maxName : Nat := 255

def maxPath : Nat := 4095

def maxLinks : Nat := 40

/-- Take steps from a directory. The last name may be missing; if `follow` is off it may be a
link. -/
def walk (t : FileTree) (follow : Bool) (links : Nat) (here : Place) :
    List Bytes → Except OsError Spot
  | [] => .ok ⟨here, some .directory⟩
  | name :: rest =>
    if maxName < name.length then .error .nameTooLong
    else if name = [Path.dot] then t.walk follow links here rest
    else if name = [Path.dot, Path.dot] then t.walk follow links here.dropLast rest
    else
      let there := here ++ [name]
      match t.entryAt? there with
      | none => if rest.isEmpty then .ok ⟨there, none⟩ else .error .noEntry
      | some .directory => t.walk follow links there rest
      | some (.link target) =>
        if rest.isEmpty && !follow then .ok ⟨there, some (.link target)⟩
        else match links with
          | 0 => .error .tooManyLinks
          | links + 1 =>
            if target.isEmpty then .error .noEntry
            else t.walk follow links (if target.isRooted then [] else here) (stepsOf target ++ rest)
      | some entry => if rest.isEmpty then .ok ⟨there, some entry⟩ else .error .notDirectory
  termination_by steps => (links, steps.length)

def find (t : FileTree) (cwd : Place) (p : Path) (follow : Bool) : Except FileFault Spot :=
  if p.hasNul then .error .nulInPath
  else if p.isEmpty then .error (.os .noEntry)
  else if maxPath < p.bytes.length then .error (.os .nameTooLong)
  else (t.walk follow maxLinks (if p.isRooted then [] else cwd) (stepsOf p)).mapError .os

def lookup (t : FileTree) (cwd : Place) (p : Path) : Except FileFault Entry := do
  match (← t.find cwd p true).entry with
  | some entry => return entry
  | none => throw (.os .noEntry)

def present (t : FileTree) (cwd : Place) (p : Path) : Bool :=
  (t.lookup cwd p).isOk

def isDirectory (t : FileTree) (cwd : Place) (p : Path) : Bool :=
  match t.lookup cwd p with
  | .ok .directory => true
  | _ => false

def read (t : FileTree) (cwd : Place) (p : Path) : Except FileFault Bytes := do
  match ← t.lookup cwd p with
  | .directory => throw (.os .isDirectory)
  | .file data _ => return data
  | _ => return []

def isProgram (t : FileTree) (cwd : Place) (p : Path) : Bool :=
  match t.lookup cwd p with
  | .ok (.file _ executable) => executable
  | .ok (.tool _) => true
  | _ => false

/-- The directories on the way to a path and at it, made where they are missing. Where something
else is in the way the tree stays as far as it got. -/
def makeDirectories (t : FileTree) (cwd : Place) (p : Path) : FileTree :=
  let steps := stepsOf p
  let start : Path := ⟨if p.isRooted then [Path.slash] else []⟩
  (List.range steps.length).foldl (fun t n =>
    let front := start.join ⟨[Path.slash].intercalate (steps.take (n + 1))⟩
    match t.find cwd front true with
    | .ok ⟨place, none⟩ => t.put place .directory
    | _ => t) t

def parentOf (p : Path) : Path :=
  let names := (stepsOf p).dropLast
  ⟨(if p.isRooted then [Path.slash] else []) ++ [Path.slash].intercalate names⟩

/-- Write a file through any links. What the file was before decides whether it may be run, unless
`executable` says so. -/
def write (t : FileTree) (cwd : Place) (p : Path) (data : Bytes) (executable : Bool) :
    Except FileFault FileTree := do
  let spot ← t.find cwd p true
  match spot.entry with
  | none => return t.put spot.place (.file data executable)
  | some (.file _ before) => return t.put spot.place (.file data (before || executable))
  | some .directory => throw (.os .isDirectory)
  | some _ => return t

def link (t : FileTree) (cwd : Place) (p target : Path) : FileTree :=
  match t.find cwd p false with
  | .ok ⟨place, none⟩ => t.put place (.link target)
  | _ => t

def namesIn (t : FileTree) (place : Place) : List Bytes :=
  t.entries.filterMap (fun e => if e.1.dropLast = place then e.1.getLast? else none)

def branch (t : FileTree) (place : Place) : List (Place × Entry) :=
  t.entries.filterMap (fun e =>
    if place.isPrefixOf e.1 then some (e.1.drop place.length, e.2) else none)

def graft (t : FileTree) (place : Place) (b : List (Place × Entry)) : FileTree :=
  b.foldl (fun t e => t.put (place ++ e.1) e.2) t

/-- Remove what a path names, links themselves included. -/
def remove (t : FileTree) (cwd : Place) (p : Path) : FileTree :=
  match t.find cwd p false with
  | .ok ⟨place, some _⟩ => t.prune place
  | _ => t

end FileTree
end BuildFront
