import BuildFront.Path

/-!
Lists of directories in one text, colons between them.
-/

namespace BuildFront

/-- Directories in which something is searched. -/
abbrev SearchPath := List Path

namespace SearchPath

def colon : UInt8 := 0x3A

/-- The variable that holds those in which programs are searched. -/
def variableName : String := "PATH"

/-- The directories named between colons; an empty name is the working directory. -/
def ofBytes (bs : Bytes) : SearchPath :=
  (bs.splitOn colon).map Path.mk

/-- Append names to what is joined already, a colon before each but the very first. A name with a
colon in it could not be told from two, and is refused. -/
def joinedFrom (joined : Bytes) (first : Bool) : SearchPath → Option Bytes
  | [] => some joined
  | dir :: rest =>
    let front := if first then joined else joined ++ [colon]
    if dir.bytes.contains colon then none
    else joinedFrom (front ++ dir.bytes) false rest

def joined? (dirs : SearchPath) : Option Bytes :=
  joinedFrom [] true dirs

end SearchPath
end BuildFront
