import BuildFront.Surroundings.Pattern
import BuildFront.Surroundings.Tool.Lines

/-!
Editing lines by a script. The script is a row of commands, each for the lines that its addresses
choose; a group of commands is passed over where it is not meant.
-/

namespace BuildFront.Tool

open Program

namespace Edit

/-- Which lines are meant. A pattern that is not given is the one used last. -/
inductive Address where
  | line (n : Nat)
  | lastLine
  | text (p : Option Pattern)
  | every (first step : Nat)
  | count (n : Nat)
  | multiple (n : Nat)

inductive Substitute where
  | char (c : Char)
  | group (n : Nat)
  /-- How the letters that follow are written. -/
  | case (mode : Char)

structure Substitution where
  pattern : Option Pattern
  parts : List Substitute
  all : Bool
  first : Nat
  shows : Bool
  file : Option Octets

inductive Action where
  /-- The front of a group, and the number of commands in it. -/
  | group (length : Nat)
  | groupEnd
  | label (name : Octets)
  | branch (condition : Option Bool) (name : Octets)
  | substitute (s : Substitution)
  | exchange (source target : List Char)
  | append (text : Octets)
  | insert (text : Octets)
  | change (text : Octets)
  | readFile (name : Octets)
  | writeFile (name : Octets)
  | quit (shows : Bool) (code : Nat)
  | plain (c : Char)

structure Command where
  addresses : List Address
  negated : Bool
  action : Action

/-- A script that is being read, the number of characters taken from it, and the groups that are
open, each with the number of commands before it. -/
structure Reader where
  rest : List Char
  taken : Nat
  commands : List Command
  groups : List Nat

abbrev Reading := StateT Reader (Except (Nat × String))

namespace Reading

variable {α : Type}

def fault (text : String) : Reading α := do
  throw ((← get).taken, text)

def peek? : Reading (Option Char) := do
  return (← get).rest.head?

def take? : Reading (Option Char) := do
  let r ← get
  match r.rest with
  | [] => return none
  | c :: rest =>
    set { r with rest, taken := r.taken + 1 }
    return some c

def takeWhile (p : Char → Bool) : Reading (List Char) := do
  let r ← get
  let front := r.rest.takeWhile p
  set { r with rest := r.rest.drop front.length, taken := r.taken + front.length }
  return front

def accept (c : Char) : Reading Bool := do
  if (← peek?) == some c then
    discard take?
    return true
  else return false

def isBlank (c : Char) : Bool :=
  c == ' ' || c == '\t'

def number : Reading (Option Nat) := do
  let digits ← takeWhile Char.isDigit
  return (String.ofList digits).toNat?

/-- The text up to a delimiter, which is taken. A backslash before it makes it a part of the text;
in a set of a pattern it is one anyway. `n` bounds the number of characters. -/
def delimited (end' : Char) (isPattern : Bool) :
    Nat → Bool → List Char → Reading (Option (List Char))
  | 0, _, _ => return none
  | n + 1, inSet, acc => do
    match ← take? with
    | none => return none
    | some c =>
      if c == end' && !inSet then return some acc.reverse
      else if c == '\n' && isPattern && !inSet then return none
      else if c == '\\' && !inSet then
        match ← take? with
        | none => return none
        | some e =>
          if e == end' then delimited end' isPattern n false (e :: acc)
          else if e == 'n' && isPattern then delimited end' isPattern n false ('\n' :: acc)
          else delimited end' isPattern n false (e :: '\\' :: acc)
      else if c == '[' && isPattern && !inSet then
        let front ← do
          let caret ← accept '^'
          let bracket ← accept ']'
          pure ((if bracket then [']'] else []) ++ (if caret then ['^'] else []))
        delimited end' isPattern n true (front ++ c :: acc)
      else if c == ']' && inSet then delimited end' isPattern n false (c :: acc)
      else delimited end' isPattern n inSet (c :: acc)

def untilDelimiter (end' : Char) (isPattern : Bool) : Reading (Option (List Char)) := do
  delimited end' isPattern ((← get).rest.length + 1) false []

def pattern (extended ignoresCase : Bool) (text : List Char) : Reading (Option Pattern) := do
  if text.isEmpty then return none
  else
    match Pattern.ofText extended ignoresCase text with
    | .ok p => return some p
    | .error e => fault e

def address? (extended : Bool) : Reading (Option Address) := do
  let textual (end' : Char) : Reading (Option Address) := do
    match ← untilDelimiter end' true with
    | none => fault "unterminated address regex"
    | some text =>
      let ignoresCase ← accept 'I'
      return some (.text (← pattern extended ignoresCase text))
  match ← peek? with
  | some '$' =>
    discard take?
    return some .lastLine
  | some '/' =>
    discard take?
    textual '/'
  | some '\\' =>
    discard take?
    match ← take? with
    | some c => textual c
    | none => fault "unexpected end of script"
  | some c =>
    if c.isDigit then
      let n := (← number).getD 0
      if ← accept '~' then return some (.every n ((← number).getD 0))
      else return some (.line n)
    else return none
  | none => return none

def second? (extended : Bool) : Reading (Option Address) := do
  if ← accept '+' then return (← number).map .count
  else if ← accept '~' then return (← number).map .multiple
  else address? extended

/-- What stands in the place of a match: its own text, that of a group, or characters. `n` bounds
the number of parts. -/
def substitutes : Nat → List Char → List Substitute
  | 0, _ | _, [] => []
  | n + 1, '&' :: rest => .group 0 :: substitutes n rest
  | n + 1, '\\' :: c :: rest =>
    let part : Substitute :=
      if c.isDigit then .group (c.toNat - '0'.toNat)
      else match c with
        | 'n' => .char '\n'
        | 't' => .char '\t'
        | 'U' | 'L' | 'u' | 'l' | 'E' => .case c
        | c => .char c
    part :: substitutes n rest
  | n + 1, c :: rest => .char c :: substitutes n rest

def flags : Nat → Substitution × Bool → Reading (Substitution × Bool)
  | 0, s => return s
  | n + 1, (s, ignoresCase) => do
    match ← peek? with
    | none => return (s, ignoresCase)
    | some c =>
      match c with
      | '\n' | ';' | '}' | '#' => return (s, ignoresCase)
      | c =>
        if c.isDigit then flags n ({ s with first := (← number).getD 1 }, ignoresCase)
        else
          discard take?
          match c with
          | 'g' => flags n ({ s with all := true }, ignoresCase)
          | 'p' => flags n ({ s with shows := true }, ignoresCase)
          | 'i' | 'I' => flags n (s, true)
          | 'm' | 'M' | ' ' | '\t' => flags n (s, ignoresCase)
          | 'w' =>
            discard (takeWhile isBlank)
            let name ← takeWhile (· != '\n')
            return ({ s with file := some (String.ofList name) }, ignoresCase)
          | _ => fault "unknown option to \x60s'"

def groupsIn (parts : List Substitute) : Nat :=
  parts.foldl (fun n p => match p with
    | .group m => max n m
    | _ => n) 0

def groupsOf : Regex → Nat
  | .group n r => max n (groupsOf r)
  | .sequence a b | .choice a b => max (groupsOf a) (groupsOf b)
  | .repeated _ _ r => groupsOf r
  | _ => 0

def substitution (extended : Bool) : Reading Action := do
  let unterminated {β : Type} : Reading β := fault "unterminated \x60s' command"
  match ← take? with
  | none => unterminated
  | some end' =>
    match ← untilDelimiter end' true with
    | none => unterminated
    | some text =>
      match ← untilDelimiter end' false with
      | none => unterminated
      | some replacement =>
        let parts := substitutes (replacement.length + 1) replacement
        let (s, ignoresCase) ← flags ((← get).rest.length + 1)
          (⟨none, parts, false, 1, false, none⟩, false)
        let p ← pattern extended ignoresCase text
        match p with
        | some p =>
          let n := groupsIn parts
          if groupsOf p.regex < n then
            fault ("invalid reference \\" ++ toString n ++ " on \x60s' command's RHS")
        | none => pure ()
        return .substitute { s with pattern := p }

/-- The text behind a command that adds lines: on the lines below, or on the same one. `n` bounds
the number of characters. -/
def addedText : Nat → List Char → Reading Octets
  | 0, acc => return String.ofList acc.reverse
  | n + 1, acc => do
    match ← take? with
    | none | some '\n' => return String.ofList acc.reverse
    | some '\\' =>
      match ← take? with
      | none => return String.ofList acc.reverse
      | some c => addedText n (c :: acc)
    | some c => addedText n (c :: acc)

def added : Reading Octets := do
  discard (takeWhile isBlank)
  match ← peek? with
  | none => fault "expected \\ after \x60a', \x60c' or \x60i'"
  | some c =>
    if c == '\\' then
      discard take?
      discard (takeWhile isBlank)
      discard (accept '\n')
    return (← addedText ((← get).rest.length + 1) []) ++ "\n"

def exchange : Reading Action := do
  let unterminated {β : Type} : Reading β := fault "unterminated \x60y' command"
  match ← take? with
  | none => unterminated
  | some end' =>
    match ← untilDelimiter end' true, ← untilDelimiter end' true with
    | some source, some target =>
      if source.length != target.length then
        fault "strings for \x60y' command are different lengths"
      else return .exchange source target
    | _, _ => unterminated

def isEnd (c : Char) : Bool :=
  c == '\n' || c == ';' || c == '}'

def word : Reading Octets := do
  discard (takeWhile isBlank)
  let cs ← takeWhile (fun c => c != '\n' && c != ';')
  return String.ofList ((cs.reverse.dropWhile isBlank).reverse)

def restOfLine : Reading Octets := do
  discard (takeWhile isBlank)
  return String.ofList (← takeWhile (· != '\n'))

def action (extended : Bool) (c : Char) : Reading Action := do
  match c with
  | 's' => substitution extended
  | 'y' => exchange
  | 'a' => return .append (← added)
  | 'i' => return .insert (← added)
  | 'c' => return .change (← added)
  | ':' => return .label (← word)
  | 'b' => return .branch none (← word)
  | 't' => return .branch (some true) (← word)
  | 'T' => return .branch (some false) (← word)
  | 'r' => return .readFile (← restOfLine)
  | 'w' => return .writeFile (← restOfLine)
  | 'q' | 'Q' =>
    discard (takeWhile isBlank)
    return .quit (c == 'q') ((← number).getD 0)
  | c =>
    if ['=', 'd', 'D', 'g', 'G', 'h', 'H', 'l', 'n', 'N', 'p', 'P', 'x', 'z'].contains c then
      return .plain c
    else fault ("unknown command: \x60" ++ c.toString ++ "'")

def command (extended : Bool) : Reading Bool := do
  discard (takeWhile (fun c => isBlank c || c == '\n' || c == ';'))
  if (← peek?).isNone then return false
  else
    let first ← address? extended
    discard (takeWhile isBlank)
    let addresses ← match first with
      | none => pure []
      | some a =>
        if ← accept ',' then
          discard (takeWhile isBlank)
          match ← second? extended with
          | some b => pure [a, b]
          | none => fault "unexpected \x60,'"
        else pure [a]
    discard (takeWhile isBlank)
    let negated ← accept '!'
    discard (takeWhile (fun c => isBlank c || c == '!'))
    let add (a : Action) : Reading Unit :=
      modify (fun r => { r with commands := r.commands ++ [⟨addresses, negated, a⟩] })
    match ← take? with
    | none => fault "missing command"
    | some '#' => discard (takeWhile (· != '\n'))
    | some '{' =>
      modify (fun r => { r with groups := r.commands.length :: r.groups })
      add (.group 0)
    | some '}' =>
      let r ← get
      match r.groups with
      | [] => fault "unexpected \x60\x7d'"
      | start :: groups =>
        let length := r.commands.length - start
        set { r with
          groups
          commands := r.commands.modify start (fun c => { c with action := .group length }) }
        add .groupEnd
    | some c =>
      add (← action extended c)
      discard (takeWhile isBlank)
      match ← peek? with
      | none => pure ()
      | some e =>
        if !isEnd e && e != '#' then
          match c with
          | 's' | 'y' | 'a' | 'i' | 'c' | ':' | 'b' | 't' | 'T' | 'r' | 'w' => pure ()
          | _ =>
            discard take?
            fault "extra characters after command"
    return true

def commands (extended : Bool) : Nat → Reading Unit
  | 0 => return
  | n + 1 => do
    if ← command extended then commands extended n

end Reading

def parse (extended : Bool) (script : Octets) : Except (Nat × String) (List Command) := do
  let ((), r) ← (Reading.commands extended (script.length + 1)).run ⟨script.toList, 0, [], []⟩
  if r.groups.isEmpty then return r.commands else throw (0, "unmatched \x60\x7b'")

structure Line where
  text : List Char
  ended : Bool

structure State where
  space : List Char
  ended : Bool
  hold : List Char
  number : Nat
  rest : List Line
  /-- What is put behind the line. -/
  behind : List Bytes
  replaced : Bool
  /-- The numbers of the commands whose range has begun, with the line at which it ends if that is
  known. -/
  ranges : List (Nat × Option Nat)
  lastPattern : Option Pattern
  output : List Bytes
  /-- Whether the end of a line is to be put out before anything else. -/
  owesEnd : Bool
  files : List (Octets × Bytes)

inductive Verdict where
  | done
  | deleted
  /-- The commands again, without a new line. -/
  | again
  | quits (shows : Bool) (code : Nat)

namespace State

def put (s : State) (bs : Bytes) : State :=
  { s with output := (if s.owesEnd then lineFeed :: bs else bs) :: s.output, owesEnd := false }

def emit (s : State) (text : List Char) (ended : Bool) : State :=
  let s := s.put (Octets.toBytes (String.ofList (if ended then text ++ ['\n'] else text)))
  { s with owesEnd := !ended }

def isLast (s : State) : Bool :=
  s.rest.isEmpty

/-- The match of a pattern in the line, and the pattern as the last one used. -/
def search (s : State) (p : Option Pattern) : Option Pattern.Found × State :=
  match p.or s.lastPattern with
  | some p => (p.find? s.space, { s with lastPattern := some p })
  | none => (none, s)

def matchesOne (s : State) (a : Address) : Bool × State :=
  match a with
  | .line n => (s.number == n, s)
  | .lastLine => (s.isLast, s)
  | .text p =>
    let (f, s) := s.search p
    (f.isSome, s)
  | .every first step =>
    (if step = 0 then s.number == first else first ≤ s.number && (s.number - first) % step == 0, s)
  | _ => (false, s)

/-- Whether a range that begins at this line ends at it, and where it ends if that is known. -/
def rangeFrom (s : State) (second : Address) : Bool × Option Nat :=
  match second with
  | .line n => (n ≤ s.number, some n)
  | .lastLine => (s.isLast, none)
  | .count n => (n == 0, some (s.number + n))
  | .multiple n =>
    let stop := if n = 0 then s.number else (s.number + n - 1) / n * n
    (stop ≤ s.number, some stop)
  | _ => (false, none)

def chosen (s : State) (index : Nat) (c : Command) : Bool × State :=
  match c.addresses with
  | [a] => s.matchesOne a
  | [first, second] =>
    match s.ranges.lookup index with
    | some stop =>
      let (ended, s) : Bool × State := match second, stop with
        | .text _, _ => s.matchesOne second
        | .lastLine, _ => (s.isLast, s)
        | _, some n => (n ≤ s.number, s)
        | _, none => (false, s)
      let isPast : Bool := match second with
        | .line n => n < s.number
        | _ => false
      let s := if ended then { s with ranges := s.ranges.filter (·.1 != index) } else s
      if isPast then (match first with
        | .line n => s.number == n
        | _ => false, s)
      else (true, s)
    | none =>
      let fromStart := match first with
        | .line 0 => s.number == 1
        | _ => false
      let (begins, s) := if fromStart then (true, s) else s.matchesOne first
      if !begins then (false, s)
      else
        let (ended, s) : Bool × State :=
          if fromStart then s.matchesOne second else ((s.rangeFrom second).1, s)
        if ended then (true, s)
        else (true, { s with ranges := (index, (s.rangeFrom second).2) :: s.ranges })
  | _ => (true, s)

/-- Take the next line into the place of this one, or behind it. -/
def nextLine? (s : State) (joins : Bool) : Option State :=
  match s.rest with
  | [] => none
  | line :: rest =>
    some { s with
      space := if joins then s.space ++ '\n' :: line.text else line.text
      ended := line.ended, number := s.number + 1, rest }

def flush (s : State) : State :=
  { s.behind.foldl put s with behind := [] }

def replacement (f : Pattern.Found) (parts : List Substitute) : List Char :=
  let step (acc : List Char × Char × Char) (p : Substitute) : List Char × Char × Char :=
    let (out, mode, once) := acc
    let shape (cs : List Char) : List Char :=
      let body := match mode with
        | 'U' => cs.map Char.toUpper
        | 'L' => cs.map Char.toLower
        | _ => cs
      match once, body with
      | 'u', c :: rest => c.toUpper :: rest
      | 'l', c :: rest => c.toLower :: rest
      | _, body => body
    let put (cs : List Char) : List Char × Char × Char :=
      (out ++ shape cs, mode, if cs.isEmpty then once else 'E')
    match p with
    | .char c => put [c]
    | .group 0 => put f.text
    | .group n => put ((f.groups.lookup n).getD [])
    | .case m => if m == 'u' || m == 'l' then (out, mode, m) else (out, m, 'E')
  (parts.foldl step ([], 'E', 'E')).1

def substitute (s : State) (sub : Substitution) : State :=
  match sub.pattern.or s.lastPattern with
  | none => s
  | some p =>
    let s := { s with lastPattern := some p }
    let found := p.findAll (fun _ => true) (s.space.length + 2) [] s.space
    let meant := (found.drop (sub.first - 1)).take (if sub.all then found.length else 1)
    match meant with
    | [] => s
    | first :: _ =>
      let replaceOne (acc : List Char × Nat) (f : Pattern.Found) : List Char × Nat :=
        let start := f.before.length
        (acc.1 ++ (s.space.drop acc.2).take (start - acc.2) ++ replacement f sub.parts,
          start + f.text.length)
      let (front, stop) := meant.foldl replaceOne (first.before, first.before.length)
      let s := { s with space := front ++ s.space.drop stop, replaced := true }
      let s := if sub.shows then s.emit s.space true else s
      match sub.file with
      | some name =>
        { s with files := (name, Octets.toBytes (String.ofList (s.space ++ ['\n']))) :: s.files }
      | none => s

/-- A line as it can be seen without doubt. -/
def unambiguous (cs : List Char) : Octets :=
  let shown (c : Char) : Octets :=
    match c with
    | '\\' => "\\\\"
    | '\n' => "\\n"
    | '\t' => "\\t"
    | '\r' => "\\r"
    | c =>
      if ' ' ≤ c && c ≤ '~' then c.toString
      else
        let digits := String.ofList (Nat.toDigits 8 c.toNat)
        "\\" ++ "".pushn '0' (3 - digits.length) ++ digits
  String.join (cs.map shown) ++ "$"

end State

abbrev Contents := Octets → Option Bytes

def target (commands : List Command) (name : Octets) : Nat :=
  if name.isEmpty then commands.length
  else (commands.findIdx? (fun c => match c.action with
    | .label l => l == name
    | _ => false)).getD commands.length

/-- Run commands from one of them on. `n` bounds their number; `quiet` tells whether lines are only
shown when that is asked for. -/
def runFrom (contents : Contents) (quiet : Bool) (commands : List Command) :
    Nat → Nat → State → State × Verdict
  | 0, _, s => (s, .done)
  | n + 1, index, s =>
    match commands[index]? with
    | none => (s, .done)
    | some c =>
      let go (index : Nat) (s : State) : State × Verdict :=
        runFrom contents quiet commands n index s
      let (chosen, s) := s.chosen index c
      if chosen == c.negated then
        match c.action with
        | .group length => go (index + length + 1) s
        | _ => go (index + 1) s
      else
        let next (s : State) : State × Verdict := go (index + 1) s
        match c.action with
        | .group _ | .groupEnd | .label _ => next s
        | .branch none name => go (target commands name) s
        | .branch (some wanted) name =>
          if s.replaced == wanted then go (target commands name) { s with replaced := false }
          else next { s with replaced := false }
        | .substitute sub => next (s.substitute sub)
        | .exchange source target =>
          next { s with space := s.space.map (fun c =>
            ((source.zip target).lookup c).getD c) }
        | .append text => next { s with behind := s.behind ++ [Octets.toBytes text] }
        | .insert text => next (s.put (Octets.toBytes text))
        | .change text =>
          let inRange := c.addresses.length == 2 && !c.negated && (s.ranges.lookup index).isSome
          ((if inRange then s else s.put (Octets.toBytes text)), .deleted)
        | .readFile name => next { s with behind := s.behind ++ ((contents name).toList) }
        | .writeFile name =>
          let line := Octets.toBytes (String.ofList (s.space ++ ['\n']))
          next { s with files := (name, line) :: s.files }
        | .quit shows code => (s, .quits shows code)
        | .plain c =>
          match c with
          | '=' => next (s.put (Octets.toBytes (toString s.number ++ "\n")))
          | 'd' => (s, .deleted)
          | 'D' =>
            if s.space.contains '\n' then
              ({ s with space := (s.space.dropWhile (· != '\n')).drop 1 }, .again)
            else (s, .deleted)
          | 'g' => next { s with space := s.hold }
          | 'G' => next { s with space := s.space ++ '\n' :: s.hold }
          | 'h' => next { s with hold := s.space }
          | 'H' => next { s with hold := s.hold ++ '\n' :: s.space }
          | 'x' => next { s with hold := s.space, space := s.hold }
          | 'l' => next (s.emit (State.unambiguous s.space).toList true)
          | 'n' =>
            if s.isLast then (s, .quits true 0)
            else
              let s := (if quiet then s else s.emit s.space s.ended).flush
              match s.nextLine? false with
              | some s => next s
              | none => (s, .done)
          | 'N' =>
            match s.flush.nextLine? true with
            | some s => next s
            | none => (s, .quits true 0)
          | 'p' => next (s.emit s.space true)
          | 'P' => next (s.emit (s.space.takeWhile (· != '\n')) true)
          | 'z' => next { s with space := [] }
          | _ => next s

def runAll (contents : Contents) (quiet : Bool) (commands : List Command) :
    Nat → Bool → State → State × Nat
  | 0, _, s => (s, 0)
  | n + 1, fresh, s =>
    match if fresh then s.nextLine? false else some s with
    | none => (s, 0)
    | some s =>
      let steps := 1000 * (commands.length + s.rest.length + s.space.length + 1)
      let (s, verdict) := runFrom contents quiet commands steps 0 { s with replaced := false }
      let shown (s : State) : State := (if quiet then s else s.emit s.space s.ended).flush
      match verdict with
      | .done => runAll contents quiet commands n true (shown s)
      | .deleted => runAll contents quiet commands n true s.flush
      | .again => runAll contents quiet commands n false s.flush
      | .quits shows code => (if shows then shown s else s, code)

def linesFrom (data : Bytes) : List Line :=
  let (lines, ended) := linesOf data
  lines.zipIdx.map (fun e =>
    ⟨(Octets.ofBytes e.1).toList, ended || e.2 + 1 < lines.length⟩)

/-- Edit some data: what comes of it, what was written to files, and the exit code. -/
def apply (contents : Contents) (quiet : Bool) (commands : List Command) (lines : List Line) :
    Bytes × List (Octets × Bytes) × Nat :=
  let start : State := ⟨[], true, [], 0, lines, [], false, [], none, [], false, []⟩
  let size := lines.foldl (fun n l => n + l.text.length + 1) 1
  let (s, code) := runAll contents quiet commands (2 * size) true start
  (s.output.reverse.flatten, s.files.reverse, code)

def optionTable : OptionTable where
  plain := "nErsuz"
  valued := "efl"
  long := [("quiet", 'n'), ("silent", 'n'), ("expression", 'e'), ("file", 'f'),
    ("regexp-extended", 'E'), ("separate", 's'), ("unbuffered", 'u'), ("posix", 'u')]

end Edit

open Edit

def sed : Program Unit := do
  let args := (← read).args
  let isInPlace (a : Octets) : Bool := a.startsWith "-i" || a.startsWith "--in-place"
  let inPlace := args.any isInPlace
  let g ← OptionTable.read Edit.optionTable 1 (args.filter (fun a => !isInPlace a))
  let files ← (g.values 'f').mapM (fun name => do
    match ← contents name with
    | .ok data => return Octets.ofBytes data
    | .error words => fail 4 ("couldn't open file " ++ name ++ ": " ++ words))
  let given := g.has 'e' || g.has 'f'
  let scripts := if given then g.values 'e' ++ files else g.operands.take 1
  if scripts.isEmpty then
    write 2 (Octets.toBytes
      "Usage: sed [OPTION]... \x7bscript-only-if-no-other-script\x7d [input-file]...\n")
    exit 1
  match Edit.parse (g.has 'E' || g.has 'r') ("\n".intercalate scripts) with
  | .error (n, text) => fail 1 ("-e expression #1, char " ++ toString n ++ ": " ++ text)
  | .ok commands =>
    let labels := commands.filterMap (fun c => match c.action with
      | .label name => some name
      | _ => none)
    commands.forM (fun c => match c.action with
      | .branch _ name =>
        if name.isEmpty || labels.contains name then pure ()
        else fail 4 ("can't find label for jump to \x60" ++ name ++ "'")
      | .writeFile name => discard (writeFile false name [])
      | .substitute sub =>
        match sub.file with
        | some name => discard (writeFile false name [])
        | none => pure ()
      | _ => pure ())
    let names := if given then g.operands else g.operands.drop 1
    let data ← (if names.isEmpty then ["-"] else names).mapM (fun name => do
      match ← contents name with
      | .ok data => return some (name, data)
      | .error words =>
        if words == "Is a directory" then
          if inPlace then fault 4 ("couldn't edit " ++ name ++ ": not a regular file")
          else fault 4 ("read error on " ++ name ++ ": " ++ words)
        else fault 2 ("can't read " ++ name ++ ": " ++ words)
        return none)
    let s ← get
    let cwd := (← read).cwd
    let look (name : Octets) : Option Bytes := (s.files.read cwd (Octets.toPath name)).toOption
    let separate := inPlace || g.has 's'
    let parts := data.filterMap id
    let groups : List (Option Octets × List Line) :=
      if separate then parts.map (fun p => (some p.1, linesFrom p.2))
      else [(none, parts.flatMap (fun p => linesFrom p.2))]
    groups.forM (fun group => do
      let (output, written, code) := Edit.apply look (g.has 'n') commands group.2
      match group.1 with
      | some name => if inPlace then discard (writeFile false name output) else write 1 output
      | none => write 1 output
      let outlets := (written.map (·.1)).eraseDups
      outlets.forM (fun name => discard (writeFile false name
        (written.flatMap (fun w => if w.1 == name then w.2 else []))))
      if code != 0 then exit code)

end BuildFront.Tool
