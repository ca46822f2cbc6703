import BuildFront.SearchPath
import BuildFront.Surroundings.Image

/-!
Where the system finds a program by its name when it starts one.
-/

namespace BuildFront

namespace SearchPath

def usual : Octets := "/bin:/usr/bin"

def ofVariables (vars : NameMap Octets) : SearchPath :=
  ofBytes ((vars.get? variableName).getD usual).toBytes

/-- The directories as a search goes through them. In place of one that no path can hold the working
directory is searched, unless it is the last. -/
def inOrder : SearchPath → SearchPath
  | [] => []
  | dir :: rest =>
    if dir.bytes.length ≤ FileTree.maxPath then dir :: inOrder rest
    else if rest.isEmpty then []
    else ⟨[]⟩ :: inOrder rest

/-- The first program of a name that can be run. One that may not be run is passed over, and is the
reason if there is no other. A file that names no interpreter is left to the shell if `lenient`. -/
def findImage (files : FileTree) (cwd : Place) (lenient : Bool) (name : Octets)
    (args : List Octets) (denied : Bool) : SearchPath → Except OsError Image
  | [] => .error (if denied then .accessDenied else .noEntry)
  | dir :: rest =>
    let p := dir.join name.toPath
    match Image.ofFile files cwd name args Image.maxScripts p with
    | .ok image => .ok image
    | .error .accessDenied => findImage files cwd lenient name args true rest
    | .error .noEntry | .error .notDirectory => findImage files cwd lenient name args denied rest
    | .error .notExecutable =>
      if lenient then .ok ⟨Tool.shellName, .ofPath p, .ofPath p :: args⟩ else .error .notExecutable
    | .error e => .error e

end SearchPath
end BuildFront
