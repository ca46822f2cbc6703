import BuildFront.Surroundings.Shell.Builtin

/-!
Sending signals, and saying what is to be done when one arrives.
-/

namespace BuildFront.Shell.Builtin

open Shell.Action Session

/-- What is done on a signal; nothing at all if the text is empty. -/
def setTrap (n : Nat) (text : Option Octets) : Action Unit :=
  modify (fun s =>
    let before := s.traps.filter (·.1 < n)
    let after := s.traps.filter (n < ·.1)
    { s with traps := before ++ (match text with
        | some t => (n, t) :: after
        | none => after) })

def setTraps (text : Option Octets) : List Octets → Action Unit
  | [] => setStatus 0
  | arg :: rest => do
    match Signal.ofText? 0 arg with
    | some n =>
      setTrap n text
      setTraps text rest
    | none =>
      modify (fun s => s.emit 2 (Octets.toBytes ("trap: " ++ arg ++ ": bad trap\n")))
      setStatus 1

def trap (args : List Octets) : Action Unit := do
  let (_, args) ← takeOptions "" args
  match args with
  | [] =>
    (← get).traps.forM (fun t =>
      print ("trap -- " ++ quoted t.2 ++ " " ++ Signal.nameOf t.1 ++ "\n"))
    setStatus 0
  | [arg] => setTraps none [arg]
  | text :: signals => setTraps (if text == "-" then none else some text) signals

/-- Let a signal come to the shell that was called. It ends that shell at once if nothing else is to
be done; a shell that it has started only leaves it a message. -/
def receive (n : Nat) : Action Unit := do
  let s ← get
  match if Signal.isCertain n then none else s.traps.lookup n with
  | some text =>
    if !text.isEmpty then
      set { s with world := { s.world with pending := s.world.pending ++ [n] } }
  | none =>
    if Signal.isHarmless n then return
    else if s.isFirst then throw (.ended (.signal n))
    else set { s with world := { s.world with pending := s.world.pending ++ [n] } }

def send (n target : Nat) : Action Bool := do
  let s : Session ← get
  if target = processNumber || target = 0 then
    receive n
    return true
  else
    match s.jobs.find? (fun j => j.number == target) with
    | some ⟨_, .waiting _ _⟩ =>
      if !Signal.isHarmless n then
        set { s with jobs := s.jobs.map (fun (j : Job) =>
          if j.number == target then ⟨target, .ended (.signal n)⟩ else j) }
      return true
    | _ => return false

def targetOf (arg : Octets) : Action Nat := do
  match arg.toList with
  | '%' :: cs =>
    let jobs := (← get).jobs
    let job := match (String.ofList cs).toNat? with
      | some n => if n = 0 then none else jobs[n - 1]?
      | none => if cs.isEmpty || cs == ['%'] || cs == ['+'] then jobs.getLast? else none
    match job with
    | some j => return j.number
    | none => fail ("No such job: " ++ arg) 2
  | '-' :: cs => numberIn (String.ofList cs)
  | _ => numberIn arg

/-- A wish that is expressed by options: a signal to be sent, or a list of signals. -/
structure SignalWish where
  lists : Bool
  signal : Option Nat

def signalWish : SignalWish → List Octets → Action (SignalWish × List Octets)
  | wish, [] => return (wish, [])
  | wish, arg :: rest => do
    let named (s : Octets) : Action Nat := do
      match Signal.ofText? 1 s with
      | some n => return n
      | none => fail ("invalid signal number or name: " ++ s) 2
    match arg.toList with
    | ['-', '-'] => return (wish, rest)
    | '-' :: c :: cs =>
      match c, cs with
      | 'l', [] => signalWish { wish with lists := true } rest
      | 's', [] =>
        match rest with
        | [] => fail "No arg for -s option" 2
        | s :: rest =>
          let n ← named s
          signalWish { wish with signal := some n } rest
      | 's', cs =>
        let n ← named (String.ofList cs)
        signalWish { wish with signal := some n } rest
      | c, _ => fail ("Illegal option -" ++ c.toString) 2
    | _ => return (wish, arg :: rest)
  termination_by _ args => args.length

def listSignals (args : List Octets) : Action Unit := do
  match args with
  | [] =>
    (List.range Signal.limit).forM (fun n =>
      print ((if n = 0 then "0" else Signal.nameOf n) ++ "\n"))
  | arg :: _ =>
    let code ← numberIn arg
    let n := if 128 < code then code - 128 else code
    if 0 < n && n < Signal.limit then print (Signal.nameOf n ++ "\n")
    else fail ("invalid signal number or exit status: " ++ arg) 2
  setStatus 0

def kill (args : List Octets) : Action Unit := do
  let (wish, targets) ← match args with
    | [] => pure (⟨false, none⟩, [])
    | arg :: rest =>
      let direct := match arg.toList with
        | '-' :: cs => Signal.ofText? 1 (String.ofList cs)
        | _ => none
      match direct with
      | some n => pure (⟨false, some n⟩, rest)
      | none => signalWish ⟨false, none⟩ (arg :: rest)
  if wish.lists then listSignals targets
  else if targets.isEmpty then
    fail "Usage: kill [-s sigspec | -signum | -sigspec] [pid | job]... or\nkill -l [exitstatus]" 2
  else
    setStatus 0
    targets.forM (fun target => do
      if !(← send (wish.signal.getD 15) (← targetOf target)) then complain "No such process\n" 1)

end BuildFront.Shell.Builtin
