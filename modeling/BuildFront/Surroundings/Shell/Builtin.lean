import BuildFront.Surroundings.Shell.Expansion
import BuildFront.Surroundings.Shell.Signal
import BuildFront.Surroundings.Shell.Streams

/-!
Commands that act on the shell itself and on nothing that commands lie in: its variables, arguments,
options, directory and traps, and the signals it sends.
-/

namespace BuildFront.Shell

namespace Builtin

open Shell.Action Session

/-- Commands that end a shell when they fail, and whose assignments stay. -/
def specials : List String :=
  [".", ":", "break", "continue", "eval", "exec", "exit", "export", "local", "readonly", "return",
   "set", "shift", "times", "trap", "unset"]

def regulars : List String :=
  ["[", "alias", "bg", "cd", "chdir", "command", "echo", "false", "fg", "getopts", "hash", "jobs",
   "kill", "printf", "pwd", "read", "test", "true", "type", "ulimit", "umask", "unalias", "wait"]

/-- Commands whose arguments may be written like assignments. -/
def assigning : List String :=
  ["export", "local", "readonly"]

def numberIn (s : Octets) : Action Nat :=
  match if s.isEmpty || !s.toList.all Char.isDigit then none else s.toNat? with
  | some n => return n
  | none => fail ("Illegal number: " ++ s) 2

def splitAssignment (arg : Octets) : Octets × Option Octets :=
  let cs := arg.toList
  match cs.dropWhile (· != '=') with
  | _ :: value => (String.ofList (cs.takeWhile (· != '=')), some (String.ofList value))
  | [] => (arg, none)

def quoted (value : Octets) : Octets :=
  "'" ++ "'\"'\"'".intercalate (value.splitOn "'") ++ "'"

def listVariables (command : Octets) (kind : Variable → Bool) : Action Unit := do
  for e in (← get).vars.entries do
    if kind e.2 then
      print (command ++ e.1 ++ (match e.2.value with
        | some v => "=" ++ quoted v
        | none => "") ++ "\n")

def declare (mark : Variable → Variable) (args : List Octets) : Action Unit :=
  args.forM (fun arg => do
    let (name, value) := splitAssignment arg
    if !isName name then fail (name ++ ": bad variable name") 2
    match value with
    | some v => assign name v
    | none => pure ()
    changeVariable name mark)

def declaration (command : Octets) (kind : Variable → Bool) (mark : Variable → Variable)
    (args : List Octets) : Action Unit := do
  match args with
  | [] | ["-p"] => listVariables (command ++ " ") kind
  | args => declare mark (if args.head? == some "--" then args.drop 1 else args)
  setStatus 0

def declareLocal (args : List Octets) : Action Unit := do
  if (← get).hidden.isEmpty then fail "not in a function" 2
  args.forM (fun arg => do
    let (name, value) := splitAssignment arg
    if !isName name && arg != optionsName then fail (name ++ ": bad variable name") 2
    hide name
    match value with
    | some v => assign name v
    | none => pure ())
  setStatus 0

def unset (args : List Octets) : Action Unit := do
  let functions := args.head? == some "-f"
  let names := if functions || args.head? == some "-v" then args.drop 1 else args
  names.forM (fun name => do
    if functions then modify (fun s => { s with functions := s.functions.erase name })
    else if !isName name then fail (name ++ ": bad variable name") 2
    else if ((← get).vars.get? name).any (·.readOnly) then fail (name ++ ": is read only") 2
    else modify (fun s => { s with vars := s.vars.erase name }))
  setStatus 0

def optionNames : List (String × Char) :=
  [("errexit", 'e'), ("noglob", 'f'), ("ignoreeof", 'I'), ("interactive", 'i'), ("monitor", 'm'),
   ("noexec", 'n'), ("stdin", 's'), ("xtrace", 'x'), ("verbose", 'v'), ("vi", 'V'), ("emacs", 'E'),
   ("noclobber", 'C'), ("allexport", 'a'), ("notify", 'b'), ("nounset", 'u')]

def switch (options : List Char) (c : Char) (on : Bool) : List Char :=
  (optionNames.reverse.map (·.2)).filter (fun o => if o == c then on else options.contains o)

def readOptions : List Char → List Octets → Except Octets (List Char × List Octets × Bool)
  | options, [] => .ok (options, [], false)
  | options, arg :: rest =>
    match arg.toList with
    | ['-', '-'] => .ok (options, rest, true)
    | ['-'] => .ok (switch (switch options 'x' false) 'v' false, rest, !rest.isEmpty)
    | sign :: c :: cs =>
      if sign != '-' && sign != '+' then .ok (options, arg :: rest, true)
      else
        let on := sign == '-'
        match (c :: cs).find? (fun c => c != 'o' && !(optionNames.any (·.2 == c))) with
        | some c => .error ("Illegal option " ++ String.ofList ['-', c])
        | none =>
          let options := ((c :: cs).filter (· != 'o')).foldl (fun os c => switch os c on) options
          if (c :: cs).contains 'o' then
            match rest with
            | name :: rest =>
              match optionNames.lookup name with
              | some c => readOptions (switch options c on) rest
              | none => .error ("Illegal option -o " ++ name)
            | [] => .ok (options, [], false)
          else readOptions options rest
    | _ => .ok (options, arg :: rest, true)
  termination_by _ args => args.length

def setOptions (args : List Octets) : Action Unit := do
  match args with
  | [] => listVariables "" (fun v => v.value.isSome)
  | ["-o"] =>
    print "Current option settings\n"
    optionNames.forM (fun o => do
      let padding := String.ofList (List.replicate (16 - o.1.length) ' ')
      print (o.1 ++ padding ++ (if (← get).hasOption o.2 then "on" else "off") ++ "\n"))
  | args =>
    match readOptions (← get).options args with
    | .error text => fail text 2
    | .ok (options, rest, replaces) =>
      modify (fun s => { s with options, args := if replaces then rest else s.args })
  setStatus 0

def shift (args : List Octets) : Action Unit := do
  let n ← match args with
    | [] => pure 1
    | arg :: _ => numberIn arg
  let s ← get
  if s.args.length < n then fail "can't shift that many" 2
  else set { s with args := s.args.drop n, status := 0 }

/-- Leave as many loops as are asked for, or go on with the next round of one of them. -/
def loopControl (again : Bool) (args : List Octets) : Action Unit := do
  let n ← match args with
    | [] => pure 1
    | arg :: _ => numberIn arg
  if n = 0 then fail "Illegal number: 0" 2
  let s ← get
  set { s with status := 0 }
  if s.loops = 0 then return
  else
    let n := min n s.loops
    throw (if again then .nextRound n else .leaveLoops n)

/-- Leave a function with an exit code, or a script that was read by another one. -/
def giveBack (args : List Octets) : Action Unit := do
  match args with
  | [] => pure ()
  | arg :: _ => setStatus (← numberIn arg)
  throw .leaveFunction

/-- End the shell; while something is done on a signal, with the exit code from before. -/
def exit (args : List Octets) : Action Unit := do
  match args with
  | [] => modify (fun s => { s with status := s.statusBefore.getD s.status })
  | arg :: _ => setStatus (← numberIn arg)
  throw (.ended (.code ((← get).status % 256)))

def takeOptions (letters : String) : List Octets → Action (List Char × List Octets)
  | [] => return ([], [])
  | arg :: rest =>
    match arg.toList with
    | ['-', '-'] => return ([], rest)
    | '-' :: c :: cs => do
      match (c :: cs).find? (fun c => !letters.toList.contains c) with
      | some c => fail ("Illegal option -" ++ c.toString) 2
      | none =>
        let (more, args) ← takeOptions letters rest
        return (c :: cs ++ more, args)
    | _ => return ([], arg :: rest)

def folded (base path : Octets) : Octets :=
  let full := if path.startsWith "/" then path else base ++ "/" ++ path
  let parts := (full.splitOn "/").foldl (fun (stack : List String) part =>
    match part with
    | "" | "." => stack
    | ".." => stack.drop 1
    | name => name :: stack) []
  "/" ++ "/".intercalate parts.reverse

/-- The paths under which a directory is looked for, the variable for that used if it is
relative. -/
def directoryChoices (s : Session) (target : Octets) : List Octets :=
  let first := (target.splitOn "/").headD ""
  if target.isEmpty || first == "" || first == "." || first == ".." then [target]
  else match s.get? "CDPATH" with
    | none => [target]
    | some dirs => (dirs.splitOn ":").map (fun dir =>
        if dir.isEmpty then target
        else if dir.endsWith "/" then dir ++ target
        else dir ++ "/" ++ target)

def changeDirectory (args : List Octets) : Action Unit := do
  let (options, args) ← takeOptions "LP" args
  let s ← get
  let target := match args with
    | [] => (s.get? "HOME").getD ""
    | "-" :: _ => (s.get? "OLDPWD").getD s.directory
    | arg :: _ => arg
  let physical := options.getLast? == some 'P'
  let pathOf (choice : Octets) : Octets :=
    if !physical then folded s.directory choice
    else if choice.startsWith "/" then choice
    else s.directory ++ "/" ++ choice
  let placeOf? (path : Octets) : Option Place :=
    match s.world.files.find s.cwd (Octets.toPath path) true with
    | .ok ⟨place, some .directory⟩ => some place
    | _ => none
  match (directoryChoices s target).findSome? (fun choice =>
      (placeOf? (pathOf choice)).map (fun place => (choice, place))) with
  | some (choice, place) =>
    let directory := if physical then Octets.ofPath place.toPath else pathOf choice
    set { s with cwd := place, directory }
    assign "OLDPWD" s.directory
    assign "PWD" directory
    changeVariable "OLDPWD" (fun v => { v with exported := true })
    changeVariable "PWD" (fun v => { v with exported := true })
    if args.head? == some "-" || choice != target then print (directory ++ "\n")
    setStatus 0
  | none => fail ("can't cd to " ++ target) 2

def printDirectory (args : List Octets) : Action Unit := do
  let (options, _) ← takeOptions "LP" args
  let s ← get
  print ((if options.getLast? == some 'P' then Octets.ofPath s.cwd.toPath else s.directory) ++ "\n")
  setStatus 0

/-- What is left after the separators at the front of a line, one of them no blank. -/
def dropSeparators (separators : List Char) (cs : List Glyph) : List Glyph :=
  let isBlank (g : Glyph) : Bool :=
    !g.2 && separators.contains g.1 && (g.1 == ' ' || g.1 == '\t' || g.1 == '\n')
  let rest := cs.dropWhile isBlank
  match rest with
  | g :: more => if !g.2 && separators.contains g.1 then more.dropWhile isBlank else rest
  | [] => []

/-- The words of a line for some variables. The last one takes all that is left; if that is more
than a word, only blanks at its end are dropped. -/
def shareOut (separators : List Char) : Nat → List Glyph → List Octets
  | 0, _ => []
  | n + 1, cs =>
    let isSeparator (g : Glyph) : Bool := !g.2 && separators.contains g.1
    let isBlank (g : Glyph) : Bool :=
      isSeparator g && (g.1 == ' ' || g.1 == '\t' || g.1 == '\n')
    let cs := cs.dropWhile isBlank
    let word := cs.takeWhile (!isSeparator ·)
    let rest := dropSeparators separators (cs.dropWhile (!isSeparator ·))
    if n = 0 then
      [Glob.plain (if rest.isEmpty then word else (cs.reverse.dropWhile isBlank).reverse)]
    else Glob.plain word :: shareOut separators n rest

/-- The line at the front of some data, what follows it, and whether it is ended. A backslash joins
it with the next one and protects characters, unless they are read as they are. `line` is what has
been read of it, the last character first. -/
def lineAtFront (raw : Bool) (line : List Glyph) : Bytes → List Glyph × Bytes × Bool
  | [] => (line.reverse, [], false)
  | b :: rest =>
    let c := Char.ofNat b.toNat
    if c == '\n' then (line.reverse, rest, true)
    else if c == '\\' && !raw then
      match rest with
      | [] => (line.reverse, [], false)
      | e :: more =>
        let e := Char.ofNat e.toNat
        lineAtFront raw (if e == '\n' then line else (e, true) :: line) more
    else lineAtFront raw ((c, false) :: line) rest

def read (args : List Octets) : Action Unit := do
  let args ← match args with
    | "-p" :: _ :: rest => pure rest
    | args => pure args
  let (options, names) ← takeOptions "r" args
  if names.isEmpty then fail "arg count" 2
  let s ← get
  match s.readable 0 with
  | none => setStatus 1
  | some data =>
    let (line, rest, ended) := lineAtFront (options.contains 'r') [] data
    modify (fun s => s.readUpTo 0 rest)
    let words := shareOut s.separators names.length line
    names.zipIdx.forM (fun p => do
      if !isName p.1 then fail (p.1 ++ ": bad variable name") 2
      assign p.1 (words[p.2]?.getD ""))
    setStatus (if ended then 0 else 1)

def maskText (mask : Nat) : Octets :=
  let digits := String.ofList (Nat.toDigits 8 mask)
  "".pushn '0' (4 - digits.length) ++ digits

def maskLetters (mask : Nat) : Octets :=
  let rights (n : Nat) : Octets :=
    (if n / 4 % 2 = 0 then "r" else "") ++ (if n / 2 % 2 = 0 then "w" else "") ++
      (if n % 2 = 0 then "x" else "")
  "u=" ++ rights (mask / 64) ++ ",g=" ++ rights (mask / 8) ++ ",o=" ++ rights mask

def changeMask (args : List Octets) : Action Unit := do
  let (options, args) ← takeOptions "S" args
  let s ← get
  match args with
  | [] =>
    print ((if options.isEmpty then maskText s.mask else maskLetters s.mask) ++ "\n")
    setStatus 0
  | arg :: _ =>
    let cs := arg.toList
    if cs.all (fun c => '0' ≤ c && c ≤ '7') then
      let mask := cs.foldl (fun n c => n * 8 + (c.toNat - '0'.toNat)) 0
      set { s with mask := mask % 512, status := 0 }
    else setStatus 0

def nextOption (args : List Octets) : Action Unit := do
  match args with
  | letters :: name :: given =>
    let s ← get
    let args := if given.isEmpty then s.args else given
    let indexText := (s.get? "OPTIND").getD "1"
    let index := max 1 (indexText.toNat?.getD 1)
    let offset := if s.lettersRead.1 == indexText then max 1 s.lettersRead.2 else 1
    let silent := letters.startsWith ":"
    let advance (index offset : Nat) : Action Unit := do
      assign "OPTIND" (toString index)
      modify (fun s => { s with lettersRead := (toString index, offset) })
    let finish : Action Unit := do
      advance index 1
      assign name "?"
      modify (fun s => { s with vars := s.vars.erase "OPTARG" })
      setStatus 1
    match args[index - 1]? with
    | none => finish
    | some arg =>
      let cs := arg.toList
      if arg == "--" then
        advance (index + 1) 1
        assign name "?"
        setStatus 1
      else if cs.head? != some '-' || cs.length < 2 then finish
      else
        let c := (cs[offset]?).getD '?'
        let isLast := cs.length ≤ offset + 1
        let next : Action Unit :=
          if isLast then advance (index + 1) 1 else advance index (offset + 1)
        match letters.toList.dropWhile (fun l => l != c || c == ':') with
        | [] =>
          next
          if silent then
            assign name "?"
            assign "OPTARG" c.toString
          else
            modify (fun s => s.emit 2 (Octets.toBytes ("Illegal option -" ++ c.toString ++ "\n")))
            assign name "?"
            modify (fun s => { s with vars := s.vars.erase "OPTARG" })
          setStatus 0
        | _ :: ':' :: _ =>
          if !isLast then
            advance (index + 1) 1
            assign "OPTARG" (String.ofList (cs.drop (offset + 1)))
            assign name c.toString
          else
            match args[index]? with
            | some value =>
              advance (index + 2) 1
              assign "OPTARG" value
              assign name c.toString
            | none =>
              advance (index + 1) 1
              if silent then
                assign "OPTARG" c.toString
                assign name ":"
              else
                modify (fun s => s.emit 2
                  (Octets.toBytes ("No arg for -" ++ c.toString ++ " option\n")))
                modify (fun s => { s with vars := s.vars.erase "OPTARG" })
                assign name "?"
          setStatus 0
        | _ =>
          next
          assign "OPTARG" ""
          assign name c.toString
          setStatus 0
  | _ => fail "Usage: getopts optstring var [arg...]" 2

end Builtin
end BuildFront.Shell
