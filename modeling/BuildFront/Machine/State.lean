import BuildFront.Host
import BuildFront.Machine.SearchPath

/-!
A machine as far as a run can look at it: files, a working directory, and an environment. It is
small enough to be a value. Its files have no owners and no permissions but one, to be run.
-/

namespace BuildFront

structure Machine where
  files : FileTree
  cwd : Place
  env : NameMap String

namespace Machine

def superuserHome : Path :=
  .ofString "/root"

/-- The user's directory: the variable for it, unless that is unset or empty. -/
def home (m : Machine) : Path :=
  match m.env.get? "HOME" with
  | some dir => if dir.isEmpty then superuserHome else .ofString dir
  | none => superuserHome

def fileAccess (m : Machine) : FileAccess where
  present := m.files.present m.cwd
  read := m.files.read m.cwd

def search (m : Machine) (name : String) : Option Path :=
  let dirs := (m.env.get? SearchPath.variableName).map (fun s =>
    SearchPath.ofBytes (Utf8.ofString s))
  SearchPath.search m.files m.cwd dirs m.home name

/-- The machine as the surroundings of a run, given what becomes of programs. -/
def hostWith (m : Machine) (launch : Invocation → Launch) : Host where
  cwd := .ok (Place.toPath m.cwd)
  home := some m.home
  env := m.env
  files := m.fileAccess
  isDirectory := m.files.isDirectory m.cwd
  search := m.search
  launch
  output := .unbounded
  completions := fun _ _ => []

end Machine
end BuildFront
