import BuildFront.Machine.FileTree
import BuildFront.SearchPath

/-!
Where a program is found by its name, before it is started.
-/

namespace BuildFront

namespace SearchPath

def rebase (cwd p : Path) : Path :=
  if p.isRooted then p
  else (p.parts.filter (· != .here)).foldl (fun dir part => dir.join ⟨part.bytes⟩) cwd

def tilde : Path.Part :=
  .name [0x7E]

/-- A path whose first part is a tilde, with the user's directory in its place. -/
def expandHome (home p : Path) : Path :=
  match p.parts with
  | first :: rest =>
    if first = tilde then rest.foldl (fun dir part => dir.join ⟨part.bytes⟩) home else p
  | [] => p

/-- Where a directory of the search path would have a program. One that begins with a tilde even so
is not seen from any directory. -/
def candidate (here home dir name : Path) : Path :=
  let dir := expandHome home dir
  if dir.parts.head? = some tilde then dir.join name else (rebase here dir).join name

/-- Where a name leads: a path of several parts to its own place, a single part to the first
directory that has a program of that name. -/
def search (files : FileTree) (cwd : Place) (dirs : Option SearchPath) (home : Path)
    (name : String) : Option Path :=
  let here := Place.toPath cwd
  let p := Path.ofString name
  let runnable (candidate : Path) : Option Path :=
    if files.isProgram cwd candidate then some candidate else none
  if 1 < p.parts.length then runnable (rebase here p)
  else dirs.bind (·.findSome? (fun dir => runnable (candidate here home dir p)))

end SearchPath
end BuildFront
