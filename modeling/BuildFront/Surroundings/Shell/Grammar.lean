import BuildFront.Surroundings.Shell.Words

/-!
Reading commands. Each kind of command is read by a function that is given how the lists of commands
inside of it are read; only these lie in each other without end.
-/

namespace BuildFront.Shell

inductive Extent where
  /-- To the end of the line. -/
  | line
  /-- To a word that closes it, with a command at least. -/
  | body
  /-- To whatever is no command. -/
  | rest
  deriving DecidableEq

/-- How what lies inside a command is read, and how deep it may go on. -/
structure Level where
  list : Extent → Reading (Option Command)
  nesting : Nat

namespace Level

variable (l : Level)

def unexpected {α : Type} (t : Token) (awaited : Option Token) : Reading α :=
  Reading.fault ("Syntax error: " ++ t.label ++ " unexpected" ++ (match awaited with
    | some e => " (expecting " ++ e.label ++ ")"
    | none => ""))

def giveBack (t : Token) : Reading Unit :=
  modify (fun r => { r with ahead := some t })

def skipBlanks : Reading Unit :=
  Reading.loop (fun _ => do
    match ← Reading.peekJoined? with
    | some c =>
      if c == ' ' || c == '\t' then
        discard Reading.take?
        return .inl ()
      else if c == '#' then
        discard (Reading.takeWhile (· != '\n'))
        return .inr ()
      else return .inr ()
    | none => return .inr ()) ()

def documentText (a : Awaited) : Reading Octets :=
  Reading.loop (fun (acc : Octets × Bool) => do
    let (text, joined) := acc
    if !joined && a.dropsTabs then
      discard (Reading.takeWhile (· == '\t'))
    let line ← Reading.takeWhile (· != '\n')
    let ended := (← Reading.take?).isSome
    if !joined && line == a.delimiter then return .inr text
    else if !ended then return .inr (text ++ line)
    else
      let backslashes := (line.toList.reverse.takeWhile (· == '\\')).length
      return .inl (text ++ line ++ "\n", !a.isLiteral && backslashes % 2 == 1)) ("", false)

def closing : Token :=
  .symbol .closeGroup

def rawToken (scripts : Bool → Reading Command) : Reading Token := do
  let r ← get
  match r.ahead with
  | some t =>
    set { r with ahead := none }
    return t
  | none =>
    skipBlanks
    let arrow (stream : Nat) : Reading Token := do
      if ← Reading.accept '<' then
        if ← Reading.accept '<' then
          return .arrow stream (.document (← Reading.accept '-'))
        else if ← Reading.accept '&' then return .arrow stream .copy
        else if ← Reading.accept '>' then return .arrow stream (.opening .readWrite)
        else return .arrow stream (.opening .read)
      else
        discard (Reading.accept '>')
        if ← Reading.accept '>' then return .arrow stream (.opening .append)
        else if ← Reading.accept '|' then return .arrow stream (.opening .overwrite)
        else if ← Reading.accept '&' then return .arrow stream .copy
        else return .arrow stream (.opening .write)
    let symbol (s : Symbol) : Reading Token := do
      discard Reading.take?
      return .symbol s
    let longer (c : Char) (s longer : Symbol) : Reading Token := do
      discard Reading.take?
      if ← Reading.accept c then return .symbol longer else return .symbol s
    match (← get).rest with
    | [] => return .symbol .endOfScript
    | '\n' :: _ => symbol .newline
    | '&' :: _ => longer '&' .background .both
    | '|' :: _ => longer '|' .bar .either
    | ';' :: _ => longer ';' .semicolon .endOfCase
    | '(' :: _ => symbol .openGroup
    | ')' :: _ => symbol .closeGroup
    | '<' :: _ => arrow 0
    | '>' :: _ => arrow 1
    | c :: d :: _ =>
      if c.isDigit && (d == '<' || d == '>') then
        discard Reading.take?
        arrow (c.toNat - '0'.toNat)
      else return .word (← pieces scripts l.nesting .blanks)
    | _ => return .word (← pieces scripts l.nesting .blanks)

/-- A script inside of a word, up to the parenthesis that closes it or to its end. Texts that it
awaits may follow the parenthesis. -/
def script (closed : Bool) : Reading Command := do
  let c ← l.list .rest
  if closed then
    let t := (← get).ahead.getD (.symbol .endOfScript)
    modify (fun r => { r with ahead := none })
    match t with
    | .symbol .closeGroup => return c.getD .nothing
    | t => unexpected t (some closing)
  else return c.getD .nothing

/-- Read the texts that were awaited until the end of the line. -/
def readDocuments : Reading Unit := do
  let awaited := (← get).awaited
  modify (fun r => { r with awaited := [] })
  awaited.forM (fun a => do
    let text ← documentText a
    let word ←
      if a.isLiteral then pure [Piece.text true text]
      else Reading.within text (pieces l.script l.nesting .document)
    modify (fun r => { r with documents := (a.number, word) :: r.documents }))

/-- The next token. Ends of lines are passed over if `lines`, and a word may be a keyword if
`keywords`. -/
def token (lines keywords : Bool) : Reading Token :=
  Reading.loop (fun _ => do
    let t ← l.rawToken l.script
    match t with
    | .symbol .newline =>
      l.readDocuments
      if lines then return .inl () else return .inr t
    | .symbol .endOfScript =>
      l.readDocuments
      return .inr t
    | t => return .inr (if keywords then t.asKeyword else t)) ()

def expectKeyword (word : String) : Reading Unit := do
  match ← l.token false false with
  | .keyword s => if s == word then return else unexpected (.keyword s) (some (.keyword word))
  | t => unexpected t (some (.keyword word))

def delimiter : Reading (Octets × Bool) :=
  Reading.loop (fun (acc : Octets × Bool) => do
    let (s, quoted) := acc
    match ← Reading.peekJoined? with
    | none => return .inr acc
    | some c =>
      if endsWord c then return .inr acc
      else
        discard Reading.take?
        match c with
        | '\'' => return .inl (s ++ (← singleQuotation), true)
        | '"' =>
          let inner ← Reading.takeWhile (· != '"')
          match ← Reading.take? with
          | some _ => return .inl (s ++ inner, true)
          | none => Reading.fault "Syntax error: Unterminated quoted string"
        | '\\' => return .inl (s ++ ((← Reading.take?).map Char.toString).getD "\\", true)
        | c => return .inl (s.push c, quoted)) ("", false)

def target (stream : Nat) (arrow : Arrow) : Reading Redirect := do
  let word : Reading Word := do
    match ← l.token false false with
    | .word w => return w
    | t => unexpected t none
  match arrow with
  | .opening o => return .redirect stream (.file o (← word))
  | .copy => return .redirect stream (.copy (← word))
  | .document dropsTabs =>
    skipBlanks
    match ← Reading.peekJoined? with
    | none => unexpected (.symbol .endOfScript) none
    | some c =>
      if endsWord c then
        discard word
      let (delimiter, isLiteral) ← delimiter
      let number := (← get).next
      modify (fun r => { r with
        next := number + 1
        awaited := r.awaited ++ [⟨number, delimiter, isLiteral, dropsTabs⟩] })
      return .redirect stream (.document number)

def redirects : Reading (List Redirect) :=
  Reading.loop (fun acc => do
    match ← l.token false true with
    | .arrow stream a => return .inl (acc ++ [← l.target stream a])
    | t =>
      giveBack t
      return .inr acc) []

def assignment? : Word → Option (Octets × Word)
  | .text false s :: rest =>
    let cs := s.toList
    let name := String.ofList (cs.takeWhile isNameChar)
    match cs.dropWhile isNameChar with
    | '=' :: value =>
      if isName name then
        some (name, if value.isEmpty then rest else .text false (String.ofList value) :: rest)
      else none
    | _ => none
  | _ => none

def reservedNames : List String :=
  [".", ":", "break", "continue", "eval", "exec", "exit", "export", "readonly", "return", "set",
   "shift", "times", "trap", "unset"]

structure Words where
  assignments : List (Octets × Word)
  words : List Word
  redirects : List Redirect

/-- A command that begins with a word or a redirection, and which may turn out to define a function.
`body` reads what a function does. -/
def simple (body : Reading Command) (first : Token) : Reading Command := do
  let line := (← get).line
  giveBack first
  Reading.loop (fun (d : Words) => do
    match ← l.token false false with
    | .word w =>
      match d.words, assignment? w with
      | [], some a => return .inl { d with assignments := d.assignments ++ [a] }
      | _, _ => return .inl { d with words := d.words ++ [w] }
    | .arrow stream a => return .inl { d with redirects := d.redirects ++ [← l.target stream a] }
    | .symbol .openGroup =>
      match d with
      | ⟨[], [name], []⟩ =>
        match ← l.token false false with
        | .symbol .closeGroup =>
          match Word.plain? name with
          | some s =>
            if isName s && !reservedNames.contains s then return .inr (.function s (← body))
            else Reading.fault "Syntax error: Bad function name"
          | none => Reading.fault "Syntax error: Bad function name"
        | t => unexpected t (some closing)
      | _ =>
        giveBack (.symbol .openGroup)
        return .inr (.simple line d.assignments d.words d.redirects)
    | t =>
      giveBack t
      return .inr (.simple line d.assignments d.words d.redirects)) ⟨[], [], []⟩

def listOrNothing (extent : Extent) : Reading Command := do
  return (← l.list extent).getD .nothing

def choice : Reading Command := do
  let case : Reading (Command × Command) := do
    let condition ← l.listOrNothing .body
    l.expectKeyword "then"
    return (condition, ← l.listOrNothing .body)
  let first ← case
  let (cases, otherwise) ← Reading.loop (fun (cases : List (Command × Command)) => do
    match ← l.token false false with
    | .keyword "elif" => return .inl ((← case) :: cases)
    | .keyword "else" => return .inr (cases, ← l.listOrNothing .body)
    | t =>
      giveBack t
      return .inr (cases, Command.nothing)) [first]
  l.expectKeyword "fi"
  return cases.foldl (fun rest c => .choose c.1 c.2 rest) otherwise

def repetition (untilSuccess : Bool) : Reading Command := do
  let condition ← l.listOrNothing .body
  l.expectKeyword "do"
  let body ← l.listOrNothing .body
  l.expectKeyword "done"
  return .repeated untilSuccess condition body

def eachWords : Reading (List Word) := do
  match ← l.token true true with
  | .keyword "in" =>
    Reading.loop (fun words => do
      match ← l.token false false with
      | .word w => return .inl (words ++ [w])
      | .symbol .newline | .symbol .semicolon => return .inr words
      | t => unexpected t none) []
  | t =>
    match t with
    | .symbol .semicolon => pure ()
    | t => giveBack t
    return [[.parameter true "@" .value]]

def iteration (line : Nat) : Reading Command := do
  let name ← match ← l.token false false with
    | .word w =>
      match Word.plain? w with
      | some s =>
        if isName s then pure s else Reading.fault "Syntax error: Bad for loop variable"
      | none => Reading.fault "Syntax error: Bad for loop variable"
    | _ => Reading.fault "Syntax error: Bad for loop variable"
  let words ← l.eachWords
  match ← l.token true true with
  | .keyword "do" =>
    let body ← l.listOrNothing .body
    l.expectKeyword "done"
    return .each line name words body
  | t => unexpected t (some (.keyword "do"))

/-- The patterns of one arm, up to the parenthesis behind them. -/
def patterns (first : Token) : Reading (List Word) := do
  let first ← match first with
    | .symbol .openGroup => l.token false false
    | t => pure t
  let wordOf (t : Token) : Reading Word := do
    match t with
    | .word w => return w
    | .keyword s => return [.text false s]
    | _ => unexpected (← l.token false false) (some closing)
  Reading.loop (fun words => do
    match ← l.token false false with
    | .symbol .bar => return .inl (words ++ [← wordOf (← l.token false false)])
    | .symbol .closeGroup => return .inr words
    | t => unexpected t (some closing)) [← wordOf first]

def selection (line : Nat) : Reading Command := do
  let subject ← match ← l.token false false with
    | .word w => pure w
    | t => unexpected t (some (.word []))
  match ← l.token true true with
  | .keyword "in" => pure ()
  | t => unexpected t (some (.keyword "in"))
  let arms ← Reading.loop (fun (arms : List (List Word × Command)) => do
    match ← l.token true true with
    | .keyword "esac" => return .inr arms
    | t =>
      let words ← l.patterns t
      let body ← l.listOrNothing .rest
      let arms := arms ++ [(words, body)]
      match ← l.token true true with
      | .symbol .endOfCase => return .inl arms
      | .keyword "esac" => return .inr arms
      | t => unexpected t (some (.symbol .endOfCase))) []
  return .select line subject arms

def redirected (line : Nat) (rs : List Redirect) (c : Command) : Command :=
  match rs, c with
  | [], c => c
  | rs, .own line body _ => .own line body rs
  | rs, c => .redirected line c rs

/-- A command, by its first token. A function has one as its body, which lies deeper. -/
def command : Nat → Token → Reading Command
  | 0, _ => Reading.fault "Syntax error: too deep"
  | depth + 1, first => do
    let line := (← get).line
    let compound (c : Command) : Reading Command := do
      return redirected line (← l.redirects) c
    match first with
    | .keyword "if" => compound (← l.choice)
    | .keyword "while" => compound (← l.repetition false)
    | .keyword "until" => compound (← l.repetition true)
    | .keyword "for" => compound (← l.iteration line)
    | .keyword "case" => compound (← l.selection line)
    | .keyword "\x7b" =>
      let body ← l.listOrNothing .body
      l.expectKeyword "\x7d"
      compound body
    | .symbol .openGroup =>
      let body ← l.listOrNothing .body
      match ← l.token false false with
      | .symbol .closeGroup => compound (.own line body [])
      | t => unexpected t (some closing)
    | .word _ | .arrow _ _ =>
      l.simple (do command depth (← l.token true true)) first
    | t => unexpected t none

def pipeline (first : Token) : Reading Command := do
  let (negated, first) ← match first with
    | .keyword "!" => do pure (true, ← l.token false true)
    | t => pure (false, t)
  let head ← l.command l.nesting first
  let parts ← Reading.loop (fun parts => do
    match ← l.token false false with
    | .symbol .bar => return .inl (parts ++ [← l.command l.nesting (← l.token true true)])
    | t =>
      giveBack t
      return .inr parts) [head]
  let c := match parts with
    | [c] => c
    | parts => .pipe parts
  return if negated then .negate c else c

def chain (first : Token) : Reading Command := do
  Reading.loop (fun left => do
    match ← l.token false false with
    | .symbol .both => return .inl (.both left (← l.pipeline (← l.token true true)))
    | .symbol .either => return .inl (.either left (← l.pipeline (← l.token true true)))
    | t =>
      giveBack t
      return .inr left) (← l.pipeline first)

def closes : Token → Bool
  | .symbol .closeGroup | .symbol .endOfCase | .symbol .endOfScript => true
  | .keyword s => ["do", "done", "elif", "else", "esac", "fi", "then", "\x7d"].contains s
  | _ => false

def items (extent : Extent) : Reading (Option Command) :=
  Reading.loop (fun (acc : Option Command × Bool) => do
    let (before, begun) := acc
    let inLine := extent == .line
    match ← l.token (!inLine) true with
    | .symbol .newline => return .inr before
    | .symbol .endOfScript =>
      giveBack (.symbol .endOfScript)
      return .inr before
    | first =>
      if !inLine && (begun || extent == .rest) && closes first then
        giveBack first
        return .inr before
      else
        let c ← l.chain first
        let t ← l.token false false
        let c := match t with
          | .symbol .background => .background c
          | _ => c
        let all := match before with
          | none => c
          | some b => .sequence b c
        match t with
        | .symbol .background | .symbol .semicolon => return .inl (some all, true)
        | .symbol .newline =>
          if inLine then return .inr (some all) else return .inl (some all, true)
        | .symbol .endOfScript =>
          giveBack t
          return .inr (some all)
        | t =>
          if inLine then unexpected t none
          else
            giveBack t
            return .inr (some all)) (none, false)

end Level

def list : Nat → Extent → Reading (Option Command)
  | 0, _ => Reading.fault "Syntax error: too deep"
  | nesting + 1, extent => Level.items ⟨list nesting, nesting + 1⟩ extent

inductive Entry where
  | ended
  | blank
  | command (c : Command)

/-- Read the commands of one line, which may go on over several. -/
def entry : Reading Entry := do
  let r ← get
  match ← list (r.rest.length + 1) .line with
  | some c => return .command c
  | none =>
    match (← get).ahead with
    | some (.symbol .endOfScript) => return .ended
    | _ => return .blank

end BuildFront.Shell
