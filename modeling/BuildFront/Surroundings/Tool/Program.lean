import BuildFront.Surroundings.Tool.Call

/-!
Programs as sequences of steps: each may look at the call, read input, write to a stream, change
files, complain and go on, or end the program.
-/

namespace BuildFront.Tool

structure Progress where
  files : FileTree
  unread : Bytes
  written : List (Nat × Bytes)
  code : Nat

/-- A step of a program. One that ends the program gives its exit status. -/
abbrev Program := ReaderT Call (ExceptT ExitStatus (StateM Progress))

namespace Program

variable {α : Type}

def run (p : Program Unit) (c : Call) : Report :=
  let start : Progress := ⟨c.files, c.input.getD [], [], 0⟩
  let (result, s) := StateT.run (ExceptT.run (ReaderT.run p c)) start
  let status := match result with
    | .ok _ => .code s.code
    | .error status => status
  ⟨status, s.written.reverse, s.unread, s.files⟩

def write (stream : Nat) (bs : Bytes) : Program Unit :=
  modify (fun s => if bs.isEmpty then s else { s with written := (stream, bs) :: s.written })

def print (text : Octets) : Program Unit :=
  write 1 (Octets.toBytes text)

def exit (code : Nat) : Program α :=
  throw (.code code)

def warn (text : Octets) : Program Unit := do
  write 2 (Octets.toBytes ((← read).name ++ ": " ++ text ++ "\n"))

def fault (code : Nat) (text : Octets) : Program Unit := do
  warn text
  modify (fun s => { s with code })

def fail (code : Nat) (text : Octets) : Program α := do
  warn text
  exit code

def wordsFor : FileFault → Octets
  | .os e => e.words
  | other => other.message

def takeInput : Program Bytes := do
  let s ← get
  set { s with unread := [] }
  return s.unread

/-- The data of a file, `-` standing for the input; or the words for why there are none. -/
def contents (name : Octets) : Program (Except Octets Bytes) := do
  if name == "-" || name == "/dev/stdin" then
    if (← read).input.isSome then return .ok (← takeInput)
    else return .error "Bad file descriptor"
  else
    return ((← get).files.read (← read).cwd name.toPath).mapError wordsFor

def contentsOr (code : Nat) (complaint : Octets → Octets → Octets) (name : Octets) :
    Program (Option Bytes) := do
  match ← contents name with
  | .ok data => return some data
  | .error words =>
    fault code (complaint name words)
    return none

def nameAndWords (name words : Octets) : Octets :=
  name ++ ": " ++ words

def gather (code : Nat) (complaint : Octets → Octets → Octets) (names : List Octets) :
    Program Bytes := do
  let parts ← (if names.isEmpty then ["-"] else names).mapM (contentsOr code complaint)
  return parts.flatMap (·.getD [])

def change (f : FileTree → Place → Except FileFault FileTree) : Program (Option Octets) := do
  let s ← get
  match f s.files (← read).cwd with
  | .ok files =>
    set { s with files }
    return none
  | .error e => return some (wordsFor e)

/-- Write a file, or to the stream that a path leads to; behind what is there if `appends`. -/
def writeFile (appends : Bool) (name : Octets) (data : Bytes) : Program (Option Octets) := do
  let cwd := (← read).cwd
  match (← get).files.lookup cwd name.toPath with
  | .ok (.device (.stream n)) =>
    write n data
    return none
  | .ok (.file before _) =>
    change (fun files cwd =>
      files.write cwd name.toPath ((if appends then before else []) ++ data) false)
  | _ => change (fun files cwd => files.write cwd name.toPath data false)

def entry? (p : Octets) (follow : Bool) : Program (Option Entry) := do
  return ((← get).files.find (← read).cwd p.toPath follow).toOption.bind (·.entry)

def isDirectory (p : Octets) : Program Bool := do
  return (← get).files.isDirectory (← read).cwd p.toPath

end Program
end BuildFront.Tool
