import BuildFront.Surroundings.Shell.Grammar
import BuildFront.Surroundings.Shell.Launching
import BuildFront.Surroundings.Shell.Trap
import BuildFront.Surroundings.Tool.Condition
import BuildFront.Surroundings.Tool.Wording

/-!
Running commands. A command is run by going through its parts; what does not lie in it, such as the
body of a function or a text that is read as a script, is run by a function that is given.
-/

namespace BuildFront.Shell

structure Position where
  /-- Whether it is asked about when the command fails. -/
  tested : Bool
  /-- Whether its shell has nothing else to do. -/
  last : Bool

structure Means where
  runner : Runner
  deeper : Position → Command → Action Unit

inductive Round where
  | complete
  | cutShort
  | leaves

inductive Outlet where
  | file (opening : Opening) (name : Octets)
  | document (text : Octets)
  | copy (source : Session.Source)

inductive Kind where
  | nothing
  | special
  | function (body : Command)
  | regular
  | program

namespace Session

def fork (s : Session) : Session :=
  { s with
    isFirst := false, traps := s.traps.filter (·.2.isEmpty), jobs := [], statusBefore := none }

def hasTraps (s : Session) : Bool :=
  s.traps.any (fun t => !t.2.isEmpty)

/-- What a name is as a command. A `direct` one is no function. -/
def kindOf (s : Session) (direct : Bool) : List Octets → Kind
  | [] => .nothing
  | name :: _ =>
    if Builtin.specials.contains name then .special
    else match if direct then none else s.functions.get? name with
      | some body => .function body
      | none => if Builtin.regulars.contains name then .regular else .program

end Session

def commandOperands : Nat → List Octets → Option (List Octets)
  | 0, args => some args
  | _, [] => some []
  | n + 1, arg :: rest =>
    match arg.toList with
    | ['-', '-'] => some rest
    | '-' :: c :: cs => if (c :: cs).all (· == 'p') then commandOperands n rest else none
    | _ => some (arg :: rest)

def withoutCommand : Nat → List Octets → List Octets × Bool
  | n + 1, "command" :: rest =>
    match commandOperands rest.length rest with
    | some (name :: args) => ((withoutCommand n (name :: args)).1, true)
    | _ => ("command" :: rest, false)
  | _, words => (words, false)

namespace Means

open Shell.Action Session

variable (m : Means)

def wordDepth : Nat := 1000

def maxRounds : Nat := 100000000

/-- Run a text as a script: its lines one after another, each before the next is read. -/
def runText (pos : Position) (text : Octets) : Action Unit := do
  go (text.length + 2) false (Reader.start text (← get).nextDocument)
where
  go : Nat → Bool → Reader → Action Unit
    | 0, _, _ => return
    | n + 1, begun, r => do
      match entry r with
      | .error fault =>
        modify (fun s => { s with line := fault.line })
        fail fault.text 2
      | .ok (e, r) =>
        modify (fun s =>
          { s with documents := r.documents ++ s.documents, nextDocument := r.next })
        let rest := { r with documents := [] }
        match e with
        | .ended => if !begun then setStatus 0
        | .blank => go n begun rest
        | .command c =>
          let isLast := match r.ahead with
            | some (.symbol .endOfScript) => true
            | _ => false
          m.deeper { pos with last := pos.last && isLast } c
          go n true rest

/-- How a shell ends that does certain things: what it does on its end is done before. -/
def wholeShell (body : Action Unit) : Action ExitStatus := do
  let status ← match ← attempt body with
    | .error (.ended status) => pure status
    | _ => do pure (.code ((← get).status % 256))
  match status with
  | .signal n => return .signal n
  | .code n =>
    match (← get).traps.lookup 0 with
    | none | some "" => return .code n
    | some text =>
      modify (fun s => { s with status := n, statusBefore := some n })
      Builtin.setTrap 0 none
      match ← attempt (m.runText ⟨false, false⟩ text) with
      | .error (.ended status) => return status
      | _ => return .code n

def inState (inner : Session → Session) (body : Action Unit) : Action ExitStatus :=
  fun s =>
    let (result, after) := (m.wholeShell body).outcome (inner s)
    let status := match result with
      | .ok status => status
      | .error _ => .code after.status
    let channels := after.world.channels.take s.world.channels.length
    (.ok status, { s with world := { after.world with channels } })

def runJob (command : Command) (scope : Scope) : Action ExitStatus :=
  m.inState (fun s => { s with toScope := scope, jobs := [] })
    (m.deeper ⟨false, true⟩ command)

/-- Run a job unless it has ended; what has ended it is worth saying only once. -/
def awaitJob (speaks : Bool) (job : Job) : Action Nat := do
  let status ← match job.state with
    | .ended status => pure status
    | .waiting command scope => m.runJob command scope
  if speaks then announce status
  let code := codeOf status
  modify (fun s => { s with jobs := s.jobs.map (fun (j : Job) =>
    if j.number == job.number then ⟨j.number, .ended (.code code)⟩ else j) })
  return code

def runJobs : Action Unit := do
  (← get).jobs.forM (fun job => do
    match job.state with
    | .waiting _ _ => discard (m.awaitJob false job)
    | .ended _ => pure ())

def outputOf (c : Command) : Action Octets := do
  let s ← get
  let (opened, i) := s.openChannel (.held [])
  set opened
  let status ← m.inState (fun s => s.fork.withStream 1 i) (m.deeper ⟨false, true⟩ c)
  let data := match (← get).world.channels[i]? with
    | some (.held data) => data
    | _ => []
  modify (fun s => { s with
    outputStatus := some (codeOf status)
    world := { s.world with channels := s.world.channels.take i } })
  announce status
  let text := (data.reverse.dropWhile (· == 0x0A)).reverse
  return Octets.ofBytes (text.filter (· != 0))

def textOf (assigned : Bool) (w : Word) : Action Octets :=
  Expansion.text m.outputOf wordDepth assigned w

/-- The words of a command. Behind the name of one that declares variables, what is written like an
assignment is expanded like one. -/
def expandWords (words : List Word) : Action (List Octets) :=
  words.foldlM (fun args w => do
    let declares := ((withoutCommand args.length args).1.head?).any Builtin.assigning.contains
    match if declares then Level.assignment? w else none with
    | some (name, value) => return args ++ [name ++ "=" ++ (← m.textOf true value)]
    | none => return args ++ (← Expansion.fields m.outputOf wordDepth w)) []

def expandRedirect : Redirect → Action (Nat × Outlet)
  | .redirect stream (.file opening name) => do
    return (stream, .file opening (← m.textOf false name))
  | .redirect stream (.document number) => do
    return (stream, .document (← m.textOf false (((← get).documents.lookup number).getD [])))
  | .redirect stream (.copy source) => do
    match Source.ofText? (← m.textOf false source) with
    | some source => return (stream, .copy source)
    | none => fail "Syntax error: Bad fd number" 2

def openOutlets : List (Nat × Outlet) → Action Bool
  | [] => return true
  | (stream, outlet) :: rest => do
    let s ← get
    let opened := match outlet with
      | .file opening name => s.openFile stream opening name
      | .document text => .ok (s.lead stream (.held (Octets.toBytes text)))
      | .copy source => s.copyStream stream source
    match opened with
    | .ok s =>
      set s
      openOutlets rest
    | .error text =>
      complain text 2
      return false

/-- A strict shell ends with a command that fails, unless it is asked about that. -/
def check (pos : Position) : Action Unit := do
  let s ← get
  if s.hasOption 'e' && !pos.tested && s.status != 0 then throw (.ended (.code (s.status % 256)))

def deliver : Action Unit := do
  let s ← get
  if s.isFirst && !s.world.pending.isEmpty then
    set { s with world := { s.world with pending := [] } }
    s.world.pending.forM (fun n => do
      let s ← get
      match if Signal.isCertain n then none else s.traps.lookup n with
      | none => if !Signal.isHarmless n then throw (.ended (.signal n))
      | some text =>
        set { s with statusBefore := some s.status }
        m.runText ⟨false, false⟩ text
        modify (fun after =>
          { after with status := s.status, statusBefore := s.statusBefore }))

def settleStatus (pos : Position) (status : ExitStatus) : Action Unit := do
  match status with
  | .code n => setStatus n
  | .signal n =>
    if pos.last && !(← get).hasTraps then throw (.ended (.signal n))
    else
      announce status
      setStatus (codeOf status)

def callFunction (pos : Position) (body : Command) (args : List Octets) : Action Unit := do
  let before ← get
  set { before with args, loops := 0, lettersRead := ("", 0), hidden := [] :: before.hidden }
  let result ← attempt (m.deeper ⟨pos.tested, false⟩ body)
  modify (fun s =>
    { s.reveal (s.hidden.headD []) with
      args := before.args, loops := before.loops, lettersRead := before.lettersRead
      hidden := before.hidden })
  match result with
  | .ok _ | .error .leaveFunction => return
  | .error flow => throw flow

def readScript (args : List Octets) : Action Unit := do
  match args with
  | [] => setStatus 0
  | name :: _ =>
    let s ← get
    let isFile (p : Path) : Bool :=
      match s.world.files.lookup s.cwd p with
      | .ok (.file _ _) => true
      | _ => false
    let found := if isBare name then
        (s.searchPath.map (fun dir => dir.join (Octets.toPath name))).find? isFile
      else some (Octets.toPath name)
    match found with
    | none => fail (name ++ ": not found") 2
    | some p =>
      match s.world.files.read s.cwd p with
      | .error (.os .isDirectory) => setStatus 0
      | .error _ => fail ("cannot open " ++ Octets.ofPath p ++ ": No such file") 2
      | .ok data =>
        modify (fun s => { s with speaker := some (Octets.ofPath p) })
        match ← attempt (m.runText ⟨false, false⟩ (Octets.ofBytes data)) with
        | .ok _ | .error .leaveFunction => return
        | .error flow => throw flow

def exec (args : List Octets) : Action Unit := do
  match args with
  | [] => setStatus 0
  | name :: args =>
    match (← get).imageOf name args with
    | .error (text, code) =>
      complain text code
      throw (.ended (.code code))
    | .ok image =>
      let status ← runImage m.runner image
      modify (fun s => { s with traps := [] })
      throw (.ended status)

/-- Wait for jobs; the exit code is that of the last one asked for. -/
def wait (args : List Octets) : Action Unit := do
  match args with
  | [] =>
    (← get).jobs.forM (fun job => discard (m.awaitJob false job))
    setStatus 0
  | args =>
    args.forM (fun arg => do
      let n ← Builtin.targetOf arg
      match (← get).jobs.find? (fun j => j.number == n) with
      | some job => setStatus (← m.awaitJob true job)
      | none => setStatus 127)

def describe (inWords : Bool) (name : Octets) : Action Bool := do
  let s ← get
  let say (short long : Octets) : Action Bool := do
    print ((if inWords then name ++ " is " ++ long else short) ++ "\n")
    return true
  if Token.keywords.contains name then say name "a shell keyword"
  else match s.kindOf false [name] with
    | .special => say name "a special shell builtin"
    | .function _ => say name "a shell function"
    | .regular => say name "a shell builtin"
    | _ =>
      match s.locate name with
      | some path => say path path
      | none =>
        if inWords then print (name ++ ": not found\n")
        return false

def describeAll (inWords : Bool) (names : List Octets) : Action Unit := do
  let known ← names.mapM (describe inWords)
  setStatus (if known.all (·) then 0 else 127)

def describeCommand (args : List Octets) : Action Unit := do
  let (options, names) ← Builtin.takeOptions "pvV" args
  match options.getLast? with
  | some 'v' => describeAll false (names.take 1)
  | some 'V' => describeAll true (names.take 1)
  | _ => setStatus 0

def builtin (pos : Position) (name : Octets) (args : List Octets) : Action Unit :=
  match name with
  | "eval" => m.runText ⟨pos.tested, false⟩ (" ".intercalate args)
  | "." => m.readScript args
  | "exec" => m.exec args
  | "wait" => m.wait args
  | "command" => describeCommand args
  | "type" => describeAll true args
  | "echo" => runInside Tool.shellEcho args
  | "printf" => runInside (Tool.printf .shell) args
  | "test" => runInside (Tool.test false) args
  | "[" => runInside (Tool.test true) args
  | "break" => Builtin.loopControl false args
  | "continue" => Builtin.loopControl true args
  | "return" => Builtin.giveBack args
  | "exit" => Builtin.exit args
  | "export" =>
    Builtin.declaration "export" (·.exported) (fun v => { v with exported := true }) args
  | "readonly" =>
    Builtin.declaration "readonly" (·.readOnly) (fun v => { v with readOnly := true }) args
  | "local" => Builtin.declareLocal args
  | "unset" => Builtin.unset args
  | "set" => Builtin.setOptions args
  | "shift" => Builtin.shift args
  | "trap" => Builtin.trap args
  | "kill" => Builtin.kill args
  | "cd" | "chdir" => Builtin.changeDirectory args
  | "pwd" => Builtin.printDirectory args
  | "read" => Builtin.read args
  | "getopts" => Builtin.nextOption args
  | "umask" => Builtin.changeMask args
  | "false" => setStatus 1
  | _ => setStatus 0

/-- Run a command of the shell's own. Only a special one leaves the shell when it fails. -/
def asBuiltin (name : Octets) (isSpecial : Bool) (body : Action Unit) : Action Unit := do
  let before := (← get).speaker
  modify (fun s => { s with speaker := some name })
  let result ← attempt body
  modify (fun s => { s with speaker := before })
  match result with
  | .ok _ => return
  | .error .failed => if isSpecial then throw .failed
  | .error flow => throw flow

def tracePrompt : Action Octets := do
  let text := ((← get).get? "PS4").getD ""
  if text.toList.all (fun c => c != '$' && c.toNat != 0x60) then return text
  else
    let nesting := text.length + 1
    let level : Level := ⟨list nesting, nesting⟩
    match pieces level.script nesting .document (Reader.start text (← get).nextDocument) with
    | .ok (w, _) =>
      let options := (← get).options
      modify (fun s => { s with options := options.filter (· != 'x') })
      let shown ← m.textOf false w
      modify (fun s => { s with options })
      return shown
    | .error _ => return text

def trace (channel : Option Nat) (texts : List Octets) : Action Unit := do
  if (← get).hasOption 'x' && !texts.isEmpty then
    let line := (← m.tracePrompt) ++ " ".intercalate texts ++ "\n"
    match channel with
    | some i => modify (fun s => s.writeTo i (Octets.toBytes line))
    | none => return

def assignAll (forAWhile : Bool) (assignments : List (Octets × Word)) : Action (List Octets) :=
  assignments.mapM (fun a => do
    let value ← m.textOf true a.2
    if forAWhile then hide a.1
    assign a.1 value
    if forAWhile then changeVariable a.1 (fun v => { v with exported := true })
    return a.1 ++ "=" ++ value)

/-- Run a program and wait for it. A shell for which nobody waits does not sleep. -/
def runProgram (name : Octets) (args : List Octets) : Action ExitStatus := do
  match (← get).imageOf name args with
  | .error (text, code) =>
    complain text code
    return .code code
  | .ok image =>
    if image.tool == "sleep" then
      if (← get).isLeft then throw (.ended (.code 0))
      m.runJobs
    runImage m.runner image

def dispatch (pos : Position) (kind : Kind) (words : List Octets) : Action ExitStatus := do
  match kind, words with
  | .nothing, _ | _, [] => setStatus ((← get).outputStatus.getD 0)
  | .special, name :: args => asBuiltin name true (m.builtin pos name args)
  | .regular, name :: args => asBuiltin name false (m.builtin pos name args)
  | .function body, _ :: args => m.callFunction pos body args
  | .program, name :: args => return ← m.runProgram name args
  return .code (← get).status

def simple (pos : Position) (line : Nat) (assignments : List (Octets × Word)) (words : List Word)
    (redirects : List Redirect) : Action Unit := do
  modify (fun s => { s with line, outputStatus := none })
  let all ← m.expandWords words
  let (args, direct) := withoutCommand all.length all
  let kind := (← get).kindOf direct args
  let isSpecial := match kind with
    | .special => true
    | _ => false
  let outlets ← redirects.mapM m.expandRedirect
  let before ← get
  let restore (s : Session) : Session := s.restoreStreams before (outlets.map (·.1))
  if !(← openOutlets outlets) then
    modify restore
    if isSpecial && !direct then throw .failed
  else
    let forAWhile := !args.isEmpty && (!isSpecial || direct)
    let body : Action Unit := do
      if forAWhile then modify (fun s => { s with hidden := [] :: s.hidden })
      let result ← attempt (do
        let shown ← m.assignAll forAWhile assignments
        m.trace (before.channelOf? 2) (shown ++ all)
        if isSpecial && direct then
          match args with
          | name :: rest =>
            asBuiltin name false (m.builtin pos name rest)
            return .code (← get).status
          | [] => return .code 0
        else m.dispatch pos kind args)
      if forAWhile then
        modify (fun s => { s.reveal (s.hidden.headD []) with hidden := before.hidden })
      match result with
      | .ok status => settleStatus pos status
      | .error flow => throw flow
    if args.head? == some "exec" then body else finally' body restore

def round (body : Action Unit) : Action Round := do
  match ← attempt body with
  | .ok _ => return .complete
  | .error (.leaveLoops n) => if n ≤ 1 then return .leaves else throw (.leaveLoops (n - 1))
  | .error (.nextRound n) => if n ≤ 1 then return .cutShort else throw (.nextRound (n - 1))
  | .error flow => throw flow

def inLoop (body : Action Unit) : Action Unit := do
  let loops := (← get).loops
  modify (fun s => { s with loops := loops + 1 })
  finally' body (fun s => { s with loops })

/-- A body again and again, depending on a condition. `code` is the exit code so far. -/
def rounds (untilSuccess : Bool) (condition body : Action Unit) : Nat → Nat → Action Unit
  | 0, code => setStatus code
  | n + 1, code => do
    match ← round condition with
    | .leaves => return
    | .cutShort => rounds untilSuccess condition body n code
    | .complete =>
      if ((← get).status == 0) == untilSuccess then setStatus code
      else
        match ← round body with
        | .leaves => return
        | .cutShort | .complete => rounds untilSuccess condition body n (← get).status

def roundsOver (name : Octets) (body : Action Unit) : List Octets → Action Unit
  | [] => return
  | w :: rest => do
    assign name w
    match ← round body with
    | .leaves => return
    | .cutShort | .complete => roundsOver name body rest

/-- Do something with redirected streams. Only if `own` they stay redirected. -/
def withRedirects (redirects : List Redirect) (stay : Bool) (body : Action Unit) : Action Unit := do
  let outlets ← redirects.mapM m.expandRedirect
  let before ← get
  let restore (s : Session) : Session :=
    if stay then s else s.restoreStreams before (outlets.map (·.1))
  if ← openOutlets outlets then finally' body restore
  else modify restore

mutual

def run (pos : Position) : Command → Action Unit
  | .nothing => setStatus 0
  | .simple line assignments words redirects => do
    if (← get).hasOption 'n' then return
    m.simple pos line assignments words redirects
    check pos
    m.deliver
  | .redirected line body redirects => do
    modify (fun s => { s with line })
    m.withRedirects redirects false (run ⟨pos.tested, false⟩ body)
    check pos
  | .own line body redirects => do
    modify (fun s => { s with line })
    if pos.last && !(← get).hasTraps then
      m.withRedirects redirects true (run pos body)
      throw (.ended (.code ((← get).status % 256)))
    else
      let status ← m.inState fork
        (m.withRedirects redirects true (run ⟨pos.tested, true⟩ body))
      settleStatus pos status
      check pos
      m.deliver
  | .background body => do
    let s ← get
    let number := (s.lastJob.getD processNumber) + 1
    let (opened, i) := s.openChannel .nowhere
    let scope := (opened.fork.withStream 0 i).toScope
    let job : Job := ⟨number, .waiting body scope⟩
    set { opened with jobs := s.jobs ++ [job], lastJob := some number, status := 0 }
  | .pipe parts => do
    let status ← runParts pos none parts
    settleStatus ⟨pos.tested, false⟩ status
    check pos
    m.deliver
  | .negate body => do
    run ⟨true, false⟩ body
    modify (fun s => { s with status := if s.status == 0 then 1 else 0 })
  | .both left right => do
    run ⟨true, false⟩ left
    if (← get).status == 0 then run pos right
  | .either left right => do
    run ⟨true, false⟩ left
    if (← get).status != 0 then run pos right
  | .sequence first second => do
    run ⟨pos.tested, false⟩ first
    run pos second
  | .choose condition yes no => do
    run ⟨true, false⟩ condition
    if (← get).status == 0 then run pos yes else run pos no
  | .repeated untilSuccess condition body =>
    inLoop (rounds untilSuccess (run ⟨true, false⟩ condition) (run ⟨pos.tested, false⟩ body)
      maxRounds 0)
  | .each line name words body => do
    modify (fun s => { s with line })
    let fields ← words.mapM (Expansion.fields m.outputOf wordDepth)
    setStatus 0
    inLoop (roundsOver name (run ⟨pos.tested, false⟩ body) fields.flatten)
  | .select line subject arms => do
    modify (fun s => { s with line })
    let text ← m.textOf false subject
    runArms pos text.toList arms
  | .function name body => do
    modify (fun s => { s with functions := s.functions.insert name body, status := 0 })

def runParts (pos : Position) (input : Option Nat) : List Command → Action ExitStatus
  | [] => return .code 0
  | c :: rest => do
    let inlet (s : Session) : Session := match input with
      | some i => s.withStream 0 i
      | none => s
    match rest with
    | [] => m.inState (fun s => inlet s.fork) (run ⟨pos.tested, true⟩ c)
    | _ :: _ =>
      let (opened, i) := (← get).openChannel (.held [])
      set opened
      let status ← m.inState (fun s => (inlet s.fork).withStream 1 i) (run ⟨pos.tested, true⟩ c)
      announce status
      runParts pos (some i) rest

def runArms (pos : Position) (text : List Char) : List (List Word × Command) → Action Unit
  | [] => setStatus 0
  | arm :: rest => do
    if ← runArm pos text arm then return else runArms pos text rest

def runArm (pos : Position) (text : List Char) : List Word × Command → Action Bool
  | (patterns, body) => do
    let matched ← patterns.foldlM (fun found w => do
      if found then return true
      else
        let pattern ← Expansion.pattern m.outputOf wordDepth w
        return Glob.accepts (Glob.compile pattern) text) false
    if matched then run pos body
    return matched

end

end Means

/-- Run a command. `n` bounds how deep functions and scripts may call each other. -/
def evaluate (runner : Runner) : Nat → Position → Command → Action Unit
  | 0, _, _ => Action.fail "Maximum function recursion depth (1000) reached" 2
  | n + 1, pos, c => Means.run ⟨runner, evaluate runner n⟩ pos c

end BuildFront.Shell
