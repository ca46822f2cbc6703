import BuildFront.Surroundings.Shell.Reader

/-!
Reading words. What a word is made of depends on what surrounds it: between blanks, between quotes,
between braces, in a text of several lines, or in an expression.
-/

namespace BuildFront.Shell

inductive Surroundings where
  | blanks
  | quotes
  | braces (quoted : Bool)
  | document
  | parentheses
  deriving DecidableEq

namespace Surroundings

def isQuoted : Surroundings → Bool
  | .blanks | .braces false => false
  | _ => true

def hasSingleQuotes (s : Surroundings) : Bool :=
  !s.isQuoted

def canEscape (s : Surroundings) (c : Char) : Bool :=
  !s.isQuoted || c == '\\' || c == '$' || c.toNat == 0x60 || (c == '"' && s != .document) ||
    (c == '}' && s == .braces true)

end Surroundings

def endsWord (c : Char) : Bool :=
  c == ' ' || c == '\t' || c == '\n' || c == '<' || c == '>' || c == ';' || c == '&' || c == '|' ||
    c == '(' || c == ')'

def isSpecial (c : Char) : Bool :=
  c.isDigit || c == '#' || c == '*' || c == '@' || c == '?' || c == '$' || c == '!' || c == '-'

/-- A word that is being read, its last piece first, and the number of parentheses that are open. -/
structure Draft where
  pieces : List Piece
  depth : Nat

namespace Draft

def empty : Draft :=
  ⟨[], 0⟩

def add (d : Draft) (piece : Piece) : Draft :=
  { d with pieces := piece :: d.pieces }

def addText (d : Draft) (quoted : Bool) (s : Octets) : Draft :=
  match d.pieces with
  | .text q before :: rest =>
    if q == quoted then { d with pieces := .text q (before ++ s) :: rest }
    else d.add (.text quoted s)
  | _ => d.add (.text quoted s)

/-- Add a quotation, which is there even if it is empty. Only all arguments at once may come to
nothing at all. -/
def addQuotation (d : Draft) (pieces : List Piece) : Draft :=
  match pieces with
  | [.parameter true "@" .value] => d.add (.parameter true "@" .value)
  | _ => { d with pieces := pieces.reverse ++ .text true "" :: d.pieces }

def word (d : Draft) : Word :=
  d.pieces.reverse

end Draft

/-- The characters that stand for themselves wherever they are. -/
def isOrdinary (c : Char) : Bool :=
  isNameChar c || ['/', '.', ',', ':', '=', '+', '-', '%', '@', '_'].contains c

def singleQuotation : Reading Octets := do
  let s ← Reading.takeWhile (· != '\'')
  match ← Reading.take? with
  | some _ => return s
  | none => Reading.fault "Syntax error: Unterminated quoted string"

def backwardQuotation (quoted : Bool) : Reading Octets :=
  Reading.loop (fun (s : Octets) => do
    match ← Reading.takeJoined? with
    | none => Reading.fault "Syntax error: EOF in backquote substitution"
    | some '\\' =>
      match ← Reading.take? with
      | none => return .inl (s ++ "\\")
      | some c =>
        let bare := c == '\\' || c == '$' || c.toNat == 0x60 || (quoted && c == '"')
        return .inl (s ++ (if bare then c.toString else "\\" ++ c.toString))
    | some c =>
      if c.toNat == 0x60 then return .inr s
      else return .inl (s.push c)) ""

def bracedName : Reading (Option (Octets × Bool)) := do
  match ← Reading.peekJoined? with
  | none | some '}' => return none
  | some c =>
    if isNameStart c then return some (← Reading.takeJoinedWhile isNameChar, false)
    else if c.isDigit then return some (← Reading.takeJoinedWhile Char.isDigit, false)
    else
      discard Reading.take?
      let next ← Reading.peekJoined?
      if c == '#' then
        match next with
        | none | some '}' => return some ("#", false)
        | some n =>
          if isNameStart n then return some (← Reading.takeJoinedWhile isNameChar, true)
          else if n.isDigit then return some (← Reading.takeJoinedWhile Char.isDigit, true)
          else
            let r ← get
            match r.rest with
            | _ :: '}' :: _ =>
              if isSpecial n then
                discard Reading.take?
                return some (n.toString, true)
              else return none
            | _ => return some ("#", false)
      else if isSpecial c then return some (c.toString, false)
      else return none

/-- The pieces of a word up to where its surroundings end. `nesting` bounds how deep they may lie in
each other, and `commands` reads a script up to a closing parenthesis or up to its end. -/
def pieces (commands : Bool → Reading Command) : Nat → Surroundings → Reading (List Piece)
  | 0, _ => Reading.fault "Syntax error: too deep"
  | nesting + 1, around => do
    let quoted := around.isQuoted
    -- A parameter between braces, what is done with it, and the closing brace.
    let braced : Reading Piece := do
      let closed (name : Octets) (use : Use) : Reading Piece := do
        discard Reading.take?
        return .parameter quoted name use
      let unknown : Reading Piece := do
        discard (pieces commands nesting (.braces quoted))
        return .parameter quoted "" .unknown
      match ← bracedName with
      | none => unknown
      | some (name, true) =>
        if (← Reading.peekJoined?) == some '}' then closed name .length else unknown
      | some (name, false) =>
        match ← Reading.peekJoined? with
        | some '}' => closed name .value
        | some '%' =>
          discard Reading.take?
          let longest ← Reading.accept '%'
          return .parameter quoted name
            (.trim true longest (← pieces commands nesting (.braces false)))
        | some '#' =>
          discard Reading.take?
          let longest ← Reading.accept '#'
          return .parameter quoted name
            (.trim false longest (← pieces commands nesting (.braces false)))
        | _ =>
          let emptyToo ← Reading.accept ':'
          let remedied (r : Remedy) : Reading Piece := do
            discard Reading.take?
            return .parameter quoted name
              (.remedy r emptyToo (← pieces commands nesting (.braces quoted)))
          match ← Reading.peekJoined? with
          | some '-' => remedied .substitute
          | some '=' => remedied .assign
          | some '?' => remedied .refuse
          | some '+' => remedied .replace
          | some '}' => closed name .value
          | _ => unknown
    -- What follows a dollar sign.
    let dollar (d : Draft) : Reading Draft := do
      match ← Reading.peekJoined? with
      | some '(' =>
        discard Reading.take?
        if ← Reading.accept '(' then
          return d.add (.number quoted (← pieces commands nesting .parentheses))
        else
          let outer := (← get).awaited
          modify (fun r => { r with awaited := [] })
          let c ← commands true
          modify (fun r => { r with awaited := outer })
          return d.add (.output quoted c)
      | some '{' =>
        discard Reading.take?
        return d.add (← braced)
      | some c =>
        if isNameStart c then
          return d.add (.parameter quoted (← Reading.takeJoinedWhile isNameChar) .value)
        else if isSpecial c then
          discard Reading.take?
          return d.add (.parameter quoted c.toString .value)
        else return d.addText quoted "$"
      | none => return d.addText quoted "$"
    Reading.loop (fun d => do
      let ordinary ← Reading.takeWhile isOrdinary
      let d := if ordinary.isEmpty then d else d.addText quoted ordinary
      match ← Reading.peek? with
      | none =>
        match around with
        | .blanks | .document => return .inr d.word
        | .parentheses => Reading.fault "Syntax error: Missing '))'"
        | .braces false => Reading.fault "Syntax error: Missing '\x7d'"
        | .quotes | .braces true => Reading.fault "Syntax error: Unterminated quoted string"
      | some c =>
        if around == .blanks && endsWord c then return .inr d.word
        else
          discard Reading.take?
          match c with
          | '\\' =>
            match ← Reading.take? with
            | none => return .inl (d.addText true "\\")
            | some '\n' => return .inl d
            | some e =>
              return .inl (d.addText true
                (if around.canEscape e then e.toString else "\\" ++ e.toString))
          | '\'' =>
            if around.hasSingleQuotes then
              return .inl ((d.addText true "").addText true (← singleQuotation))
            else return .inl (d.addText quoted "'")
          | '"' =>
            match around with
            | .blanks | .braces false =>
              return .inl (d.addQuotation (← pieces commands nesting .quotes))
            | .quotes => return .inr d.word
            | .braces true =>
              let inner ← pieces commands nesting .quotes
              return .inl { d with pieces := inner.reverse ++ d.pieces }
            | .document | .parentheses => return .inl (d.addText quoted "\"")
          | '$' => return .inl (← dollar d)
          | '}' =>
            match around with
            | .braces _ => return .inr d.word
            | _ => return .inl (d.addText quoted "\x7d")
          | '(' =>
            return .inl { d.addText quoted "(" with
              depth := if around == .parentheses then d.depth + 1 else d.depth }
          | ')' =>
            if around == .parentheses then
              if 0 < d.depth then return .inl { d.addText quoted ")" with depth := d.depth - 1 }
              else if ← Reading.accept ')' then return .inr d.word
              else return .inl (d.addText quoted ")")
            else return .inl (d.addText quoted ")")
          | c =>
            if c.toNat == 0x60 then
              let text ← backwardQuotation quoted
              return .inl (d.add (.output quoted (← Reading.within text (commands false))))
            else return .inl (d.addText quoted c.toString)) Draft.empty

end BuildFront.Shell
