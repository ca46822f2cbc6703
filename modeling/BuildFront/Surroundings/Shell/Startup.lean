import BuildFront.Surroundings.Shell.Evaluation

/-!
The shell as a program: what its arguments ask for, the state it begins with, and what it leaves
behind.
-/

namespace BuildFront.Shell

structure Request where
  options : List Char
  hasCommands : Bool

def Request.takeLetters (r : Request) (on : Bool) :
    List Char → List Octets → Except Octets (Request × List Octets)
  | [], args => .ok (r, args)
  | 'c' :: cs, args => { r with hasCommands := true }.takeLetters on cs args
  | 'l' :: cs, args => r.takeLetters on cs args
  | 'o' :: cs, args =>
    match args with
    | [] => r.takeLetters on cs []
    | name :: rest =>
      match Builtin.optionNames.lookup name with
      | some c => { r with options := Builtin.switch r.options c on }.takeLetters on cs rest
      | none => .error ("Illegal option -o " ++ name)
  | c :: cs, args =>
    if Builtin.optionNames.any (·.2 == c) then
      { r with options := Builtin.switch r.options c on }.takeLetters on cs args
    else .error ("Illegal option -" ++ c.toString)

def Request.ofArgs (r : Request) : Nat → List Octets → Except Octets (Request × List Octets)
  | 0, args => .ok (r, args)
  | _, [] => .ok (r, [])
  | n + 1, arg :: rest =>
    match arg.toList with
    | ['-'] | ['-', '-'] => .ok (r, rest)
    | '-' :: cs => do
      let (r, rest) ← r.takeLetters true cs rest
      r.ofArgs n rest
    | '+' :: cs => do
      let (r, rest) ← r.takeLetters false cs rest
      r.ofArgs n rest
    | _ => .ok (r, arg :: rest)

structure Task where
  name : Octets
  args : List Octets
  options : List Char
  script : Octets
  isInput : Bool
  isArgument : Bool

namespace Task

/-- The script of a file, looked for in the search path if it is not where it is said to be. -/
def readFile (c : Call) (name : Octets) : Except Octets Octets :=
  let direct := c.files.read c.cwd name.toPath
  match direct with
  | .ok data => .ok (.ofBytes data)
  | .error (.os .isDirectory) => .ok ""
  | .error _ => .error ("cannot open " ++ name ++ ": No such file")

def ofCall (c : Call) : Except Octets Task := do
  let (r, args) ← Request.ofArgs ⟨[], false⟩ c.args.length c.args
  let fromInput (options : List Char) (args : List Octets) : Task :=
    ⟨c.name, args, Builtin.switch options 's' true, .ofBytes (c.input.getD []), true, false⟩
  if r.hasCommands then
    match args with
    | [] => throw "-c requires an argument"
    | [script] => return ⟨c.name, [], r.options, script, false, true⟩
    | script :: name :: args => return ⟨name, args, r.options, script, false, true⟩
  else if r.options.contains 's' then return fromInput r.options args
  else match args with
    | [] => return fromInput r.options []
    | file :: args => return ⟨file, args, r.options, ← readFile c file, false, false⟩

end Task

def maxDepth : Nat := 1001

def usualPath : Octets :=
  "/usr/local/sbin:/usr/local/bin:/usr/sbin:/usr/bin:/sbin:/bin"

def startVariables (c : Call) (directory : Octets) : NameMap Variable :=
  let own : List (Octets × Variable) :=
    [("IFS", ⟨some " \t\n", false, false⟩), ("OPTIND", ⟨some "1", false, false⟩),
     ("PS1", ⟨some "# ", false, false⟩), ("PS2", ⟨some "> ", false, false⟩),
     ("PS4", ⟨some "+ ", false, false⟩), ("PPID", ⟨some "1", false, false⟩),
     (SearchPath.variableName, ⟨some usualPath, false, false⟩)]
  let given := c.env.entries.filterMap (fun e =>
    if isName e.1 && e.1 != "IFS" then some (e.1, (⟨some e.2, true, false⟩ : Variable)) else none)
  let vars := given.foldl (fun vars e => vars.insert e.1 e.2) (NameMap.ofList own)
  vars.insert "PWD" ⟨some directory, true, false⟩

/-- The working directory as a shell calls it: as it is told, if that is right. -/
def startDirectory (c : Call) : Octets :=
  let physical := Octets.ofPath c.cwd.toPath
  match c.env.get? "PWD" with
  | some told =>
    let isRight := match c.files.find c.cwd told.toPath true with
      | .ok spot => spot.place == c.cwd && told.startsWith "/"
      | .error _ => false
    if isRight then told else physical
  | none => physical

def Session.start (c : Call) (t : Task) : Session :=
  let directory := startDirectory c
  let input : Channel := .held (if t.isInput then [] else c.input.getD [])
  let streams := (if c.input.isSome then [(0, 0)] else []) ++ [(1, 1), (2, 2)]
  { name := t.name, args := t.args, cwd := c.cwd, directory, vars := startVariables c directory
    functions := .empty, documents := [], nextDocument := 0, options := t.options, status := 0
    line := 0, speaker := none, streams, traps := c.ignored.map (·, ""), statusBefore := none,
    hidden := [], loops := 0
    outputStatus := none, lettersRead := ("", 0), isFirst := true, isLeft := false, lastJob := none
    mask := 18, jobs := []
    world := ⟨c.files, [input, .outside 1, .outside 2], [], []⟩ }

def Session.report (s : Session) (status : ExitStatus) : Report where
  status
  written := s.world.written.reverse
  unread := (s.readable 0).getD []
  files := s.world.files

/-- Run a task, and then the jobs that nobody has waited for. -/
def Task.perform (m : Means) (t : Task) : Action ExitStatus := do
  let status ← m.wholeShell (m.runText ⟨false, t.isArgument⟩ t.script)
  modify (fun s => { s with jobs := s.jobs.map (fun j =>
    match j.state with
    | .waiting command scope => ⟨j.number, .waiting command { scope with isLeft := true }⟩
    | .ended _ => j) })
  m.runJobs
  return status

def run (runner : Runner) (c : Call) : Report :=
  match Task.ofCall c with
  | .error text =>
    ⟨.code 2, [(2, Octets.toBytes (c.name ++ ": 0: " ++ text ++ "\n"))], c.input.getD [], c.files⟩
  | .ok t =>
    let m : Means := ⟨runner, evaluate runner maxDepth⟩
    let (status, s) := (t.perform m).outcome (.start c t)
    s.report (match status with
      | .ok status => status
      | .error _ => .code s.status)

end BuildFront.Shell
