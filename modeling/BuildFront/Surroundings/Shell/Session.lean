import BuildFront.Launch
import BuildFront.Surroundings.Execution
import BuildFront.Surroundings.Shell.Syntax

/-!
The state of a shell, and what a command does to it. What a shell shares with the shells it starts,
files and open streams, is kept apart from what each of them has for itself.
-/

namespace BuildFront.Shell

inductive Channel where
  /-- Bytes that wait to be read; what is written is put behind them. -/
  | held (data : Bytes)
  /-- A stream of whoever has called the shell. -/
  | outside (stream : Nat)
  | file (place : Place) (position : Nat) (appends : Bool)
  | nowhere

/-- What all shells of a call have in common. Channels go by their places in the list. -/
structure World where
  files : FileTree
  channels : List Channel
  /-- What has been written to streams outside, the last first. -/
  written : List (Nat × Bytes)
  /-- The signals that the first of the shells has been sent and has not acted on. -/
  pending : List Nat

structure Variable where
  value : Option Octets
  exported : Bool
  readOnly : Bool

structure Scope where
  name : Octets
  args : List Octets
  cwd : Place
  /-- The working directory as it was come to. -/
  directory : Octets
  vars : NameMap Variable
  functions : NameMap Command
  documents : List (Nat × Word)
  nextDocument : Nat
  options : List Char
  status : Nat
  line : Nat
  /-- The command that complains, if it is one of the shell's own. -/
  speaker : Option Octets
  streams : List (Nat × Nat)
  traps : List (Nat × Octets)
  /-- The exit code before what is done on a signal. -/
  statusBefore : Option Nat
  /-- The variables that functions have hidden, the innermost function first. -/
  hidden : List (List (Octets × Option Variable))
  /-- The number of loops around the present command. -/
  loops : Nat
  /-- The exit code of the last command that was run for its output. -/
  outputStatus : Option Nat
  /-- How many letters of an argument have been read as options, for an index of the argument. -/
  lettersRead : Octets × Nat
  /-- Whether this is the shell that was called, and not one that it has started. -/
  isFirst : Bool
  /-- Whether nobody waits for this shell any more. -/
  isLeft : Bool
  /-- The number of the last command that was left to run by itself. -/
  lastJob : Option Nat
  mask : Nat

inductive JobState where
  /-- Not run yet, with the shell it is to run in. -/
  | waiting (command : Command) (scope : Scope)
  | ended (status : ExitStatus)

structure Job where
  number : Nat
  state : JobState

structure Session extends Scope where
  world : World
  jobs : List Job

/-- How a command leaves what is around it. -/
inductive Flow where
  | leaveLoops (count : Nat)
  | nextRound (count : Nat)
  | leaveFunction
  /-- After an error, which ends a shell unless a command of its own is at fault. -/
  | failed
  | ended (status : ExitStatus)

abbrev Action := ExceptT Flow (StateM Session)

namespace Action

variable {α : Type}

def outcome (a : Action α) (s : Session) : Except Flow α × Session :=
  StateT.run (ExceptT.run a) s

/-- Do something, and then change the state, however it was left. -/
def finally' (a : Action α) (after : Session → Session) : Action α :=
  fun s =>
    let (r, s) := a.outcome s
    (r, after s)

def attempt (a : Action α) : Action (Except Flow α) :=
  fun s =>
    let (r, s) := a.outcome s
    (.ok r, s)

end Action

namespace Session

/-- The number that the shell goes by, and the first one that its jobs may have. -/
def processNumber : Nat := 100

/-- What the options are called where variables are kept. -/
def optionsName : Octets := "-"

def get? (s : Session) (name : Octets) : Option Octets :=
  (s.vars.get? name).bind (·.value)

def hasOption (s : Session) (c : Char) : Bool :=
  s.options.contains c

def exported (s : Session) : NameMap Octets :=
  NameMap.ofList (s.vars.entries.filterMap (fun e =>
    if e.2.exported then e.2.value.map (fun v => (e.1, v)) else none))

def channelOf? (s : Session) (stream : Nat) : Option Nat :=
  s.streams.lookup stream

def channel? (s : Session) (stream : Nat) : Option Channel :=
  (s.channelOf? stream).bind (fun i => s.world.channels[i]?)

def withFiles (s : Session) (files : FileTree) : Session :=
  { s with world := { s.world with files } }

def withChannel (s : Session) (i : Nat) (c : Channel) : Session :=
  { s with world := { s.world with channels := s.world.channels.set i c } }

def openChannel (s : Session) (c : Channel) : Session × Nat :=
  ({ s with world := { s.world with channels := s.world.channels ++ [c] } },
    s.world.channels.length)

def withStream (s : Session) (stream i : Nat) : Session :=
  { s with streams := (stream, i) :: s.streams.filter (fun e => e.1 != stream) }

def closeStream (s : Session) (stream : Nat) : Session :=
  { s with streams := s.streams.filter (fun e => e.1 != stream) }

def contents (files : FileTree) (place : Place) : Bytes :=
  match files.entryAt? place with
  | some (.file data _) => data
  | _ => []

def readable (s : Session) (stream : Nat) : Option Bytes :=
  (s.channel? stream).map (fun c => match c with
    | .held data => data
    | .file place position _ => (contents s.world.files place).drop position
    | .outside _ | .nowhere => [])

/-- The state after a reader has left the end of what can be read from a stream. -/
def readUpTo (s : Session) (stream : Nat) (unread : Bytes) : Session :=
  match s.channelOf? stream, s.channel? stream with
  | some i, some (.held _) => s.withChannel i (.held unread)
  | some i, some (.file place _ appends) =>
    s.withChannel i (.file place ((contents s.world.files place).length - unread.length) appends)
  | _, _ => s

/-- Data with other data over it from a position on. -/
def overlay (data : Bytes) (position : Nat) (bs : Bytes) : Bytes :=
  data.take position ++ List.replicate (position - data.length) 0 ++ bs ++
    data.drop (position + bs.length)

def writeTo (s : Session) (i : Nat) (bs : Bytes) : Session :=
  match s.world.channels[i]? with
  | some (.held data) => s.withChannel i (.held (data ++ bs))
  | some (.outside stream) =>
    { s with world := { s.world with written := (stream, bs) :: s.world.written } }
  | some (.file place position appends) =>
    match s.world.files.entryAt? place with
    | some (.file data executable) =>
      let position := if appends then data.length else position
      let data := overlay data position bs
      (s.withFiles (s.world.files.put place (.file data executable))).withChannel
        i (.file place (position + bs.length) appends)
    | _ => s
  | _ => s

def emit (s : Session) (stream : Nat) (bs : Bytes) : Session :=
  match s.channelOf? stream with
  | some i => s.writeTo i bs
  | none => s

def preamble (s : Session) : Octets :=
  s.name ++ ": " ++ toString s.line ++ ": " ++ (match s.speaker with
    | some name => name ++ ": "
    | none => "")

def warn (s : Session) (text : Octets) : Session :=
  s.emit 2 (Octets.toBytes (s.preamble ++ text ++ "\n"))

def codeOf : ExitStatus → Nat
  | .code n => n
  | .signal n => 128 + n

end Session

namespace Action

open Session

def setStatus (n : Nat) : Action Unit :=
  modify (fun s => { s with status := n })

def fail {α : Type} (text : Octets) (code : Nat) : Action α := do
  modify (fun s => { s.warn text with status := code })
  throw .failed

def complain (text : Octets) (code : Nat) : Action Unit :=
  modify (fun s => { s.warn text with status := code })

def print (text : Octets) : Action Unit :=
  modify (fun s => s.emit 1 (Octets.toBytes text))

def changeVariable (name : Octets) (change : Variable → Variable) : Action Unit := do
  let s ← get
  let old := (s.vars.get? name).getD ⟨none, false, false⟩
  set { s with vars := s.vars.insert name (change old) }

def assign (name value : Octets) : Action Unit := do
  let s ← get
  if (s.vars.get? name).any (·.readOnly) then fail (name ++ ": is read only") 2
  else changeVariable name (fun v =>
    { v with value := some value, exported := v.exported || s.hasOption 'a' })

/-- Keep a variable as it is, to be brought back at the end of the innermost function; the options
go by a name of their own. -/
def hide (name : Octets) : Action Unit :=
  modify (fun s =>
    let now := if name == optionsName then some ⟨some (String.ofList s.options), false, false⟩
      else s.vars.get? name
    match s.hidden with
    | frame :: rest =>
      if frame.any (·.1 == name) then s else { s with hidden := (frame ++ [(name, now)]) :: rest }
    | [] => s)

end Action

namespace Session

def reveal (s : Session) (frame : List (Octets × Option Variable)) : Session :=
  frame.foldl (fun s e =>
    if e.1 == optionsName then
      { s with options := ((e.2.bind (·.value)).getD "").toList }
    else
      { s with vars := match e.2 with
          | some v => s.vars.insert e.1 v
          | none => s.vars.erase e.1 }) s

end Session
end BuildFront.Shell
