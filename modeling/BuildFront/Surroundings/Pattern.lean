import BuildFront.Surroundings.CharSet
import BuildFront.Surroundings.Octets

/-!
Regular expressions, basic and extended. Of the matches that begin first the longest is taken. A
match is looked for by following all ways at once: each step leads from a state to the states that
may come after it, the preferred ones first.
-/

namespace BuildFront

inductive Regex where
  | nothing
  | char (set : CharSet)
  | any
  | lineStart
  | lineEnd
  | wordStart
  | wordEnd
  /-- A place between a word and what is no word, or none such. -/
  | wordEdge (negated : Bool)
  | sequence (first second : Regex)
  | choice (left right : Regex)
  | repeated (least : Nat) (most : Option Nat) (body : Regex)
  | group (number : Nat) (body : Regex)
  /-- What a group has matched, once more. -/
  | again (number : Nat)

structure Pattern where
  ignoresCase : Bool
  regex : Regex

namespace Pattern

structure State where
  before : Option Char
  taken : Nat
  rest : List Char
  groups : List (Nat × List Char)

/-- A match: the text before it, its own text and those of its groups, and the text behind it. -/
structure Found where
  before : List Char
  text : List Char
  groups : List (Nat × List Char)
  rest : List Char

def isWordChar (c : Char) : Bool :=
  c.isAlphanum || c == '_'

namespace State

def step? (s : State) (accepts : Char → Bool) : Option State :=
  match s.rest with
  | c :: rest =>
    if accepts c then some { s with before := some c, taken := s.taken + 1, rest } else none
  | [] => none

def steps? (same : Char → Char → Bool) : List Char → State → Option State
  | [], s => some s
  | c :: cs, s => (s.step? (same c)).bind (steps? same cs)

def distinct (states : List State) : List State :=
  (states.foldl (fun (acc : List State) s =>
    if acc.any (fun t => t.taken == s.taken && t.groups == s.groups) then acc
    else s :: acc) []).reverse

/-- All states after up to `n` more rounds, those after the most rounds first. -/
def rounds (f : State → List State) : Nat → List State → List State → List State
  | 0, _, found => found
  | n + 1, current, found =>
    let next := (distinct (current.flatMap f)).filter (fun s => !found.any (·.taken == s.taken))
    if next.isEmpty then found else rounds f n next (next ++ found)

def exactly (f : State → List State) : Nat → List State → List State
  | 0, states => states
  | n + 1, states => exactly f n (distinct (states.flatMap f))

end State

def follow (ignoresCase : Bool) : Regex → State → List State
  | .nothing, s => [s]
  | .char set, s => (s.step? (set.acceptsCased ignoresCase)).toList
  | .any, s => (s.step? (fun _ => true)).toList
  | .lineStart, s => if s.before.all (· == '\n') then [s] else []
  | .lineEnd, s => if s.rest.head?.all (· == '\n') then [s] else []
  | .wordStart, s =>
    if !s.before.any isWordChar && s.rest.head?.any isWordChar then [s] else []
  | .wordEnd, s =>
    if s.before.any isWordChar && !s.rest.head?.any isWordChar then [s] else []
  | .wordEdge negated, s =>
    if (s.before.any isWordChar != s.rest.head?.any isWordChar) != negated then [s] else []
  | .sequence a b, s => State.distinct ((follow ignoresCase a s).flatMap (follow ignoresCase b))
  | .choice a b, s => State.distinct (follow ignoresCase a s ++ follow ignoresCase b s)
  | .repeated least most body, s =>
    let begun := State.exactly (follow ignoresCase body) least [s]
    State.rounds (follow ignoresCase body)
      ((most.map (· - least)).getD (s.rest.length + 1)) begun begun
  | .group number body, s =>
    (follow ignoresCase body s).map (fun t =>
      { t with groups := (number, s.rest.take (t.taken - s.taken)) ::
          t.groups.filter (·.1 != number) })
  | .again number, s =>
    let same (a b : Char) : Bool := a == b || (ignoresCase && a.toLower == b.toLower)
    match s.groups.lookup number with
    | some text => (State.steps? same text s).toList
    | none => []

/-- The longest match that is accepted and begins at a place. `skipped` is the text before, the last
character first. -/
def findHere (p : Pattern) (accepts : Found → Bool) (skipped rest : List Char) : Option Found :=
  let states := follow p.ignoresCase p.regex ⟨skipped.head?, 0, rest, []⟩
  let found := (states.mergeSort (fun a b => b.taken ≤ a.taken)).map (fun s =>
    (⟨skipped.reverse, rest.take s.taken, s.groups, s.rest⟩ : Found))
  found.find? accepts

/-- The first match that is accepted, the longest one if there are several at its place. -/
def findFrom (p : Pattern) (accepts : Found → Bool) (skipped : List Char) :
    List Char → Option Found
  | [] => p.findHere accepts skipped []
  | c :: rest =>
    match p.findHere accepts skipped (c :: rest) with
    | some f => some f
    | none => findFrom p accepts (c :: skipped) rest

def find? (p : Pattern) (line : List Char) : Option Found :=
  p.findFrom (fun _ => true) [] line

def findAll (p : Pattern) (accepts : Found → Bool) : Nat → List Char → List Char → List Found
  | 0, _, _ => []
  | n + 1, skipped, line =>
    match p.findFrom accepts skipped line with
    | none => []
    | some f =>
      let behind := f.text.reverse ++ f.before.reverse
      match f.text, f.rest with
      | [], [] => [f]
      | [], c :: rest => f :: findAll p accepts n (c :: behind) rest
      | _, rest =>
        if rest.isEmpty then [f]
        else f :: (findAll p accepts n behind rest).filter (fun g =>
          !(g.text.isEmpty && g.before.length == behind.length))

def literal (ignoresCase : Bool) (text : List Char) : Pattern :=
  ⟨ignoresCase, text.foldr (fun c r => .sequence (.char (.single c)) r) .nothing⟩

inductive Token where
  | atom (r : Regex)
  | repetition (least : Nat) (most : Option Nat)
  | opening
  | closing
  | bar

def kindAtFront? : List Char → Option (String × List Char)
  | ':' :: rest =>
    let name := rest.takeWhile (· != ':')
    match rest.drop name.length with
    | ':' :: ']' :: rest => some (String.ofList name, rest)
    | _ => none
  | _ => none

def rangesAtFront (n : Nat) (first : Bool) (cs : List Char) :
    Except String (List CharRange × List Char) :=
  match n, cs with
  | 0, _ | _, [] => .error "Unmatched [, [^, [:, [., or [="
  | n + 1, c :: rest =>
    let go (r : CharRange) (rest : List Char) : Except String (List CharRange × List Char) :=
      (rangesAtFront n false rest).map (fun t => (r :: t.1, t.2))
    if c == ']' && !first then .ok ([], rest)
    else
      match if c == '[' then kindAtFront? rest else none, rest with
      | some (name, rest), _ =>
        if (CharRange.kinds.lookup name).isSome then go (.kind name) rest
        else .error "Invalid character class name"
      | none, '-' :: high :: more =>
        if high == ']' then go (.between c c) rest
        else if high < c then .error "Invalid range end"
        else go (.between c high) more
      | none, rest => go (.between c c) rest

def setAtFront (cs : List Char) : Except String (CharSet × List Char) :=
  let (negated, cs) := match cs with
    | '^' :: rest => (true, rest)
    | cs => (false, cs)
  (rangesAtFront (cs.length + 1) true cs).map (fun t => (⟨negated, t.1⟩, t.2))

def boundsAtFront? (closing cs : List Char) : Option ((Nat × Option Nat) × List Char) :=
  let number (ds : List Char) : Nat := (String.ofList ds).toNat?.getD 0
  let low := cs.takeWhile Char.isDigit
  match cs.drop low.length with
  | ',' :: rest =>
    let high := rest.takeWhile Char.isDigit
    let rest := rest.drop high.length
    if closing.isPrefixOf rest then
      let most := if high.isEmpty then none else some (number high)
      some ((number low, most), rest.drop closing.length)
    else none
  | rest =>
    if closing.isPrefixOf rest && !low.isEmpty then
      some ((number low, some (number low)), rest.drop closing.length)
    else none

/-- What a backslash and a character stand for in patterns of both kinds. -/
def escaped? : Char → Option Regex
  | 'w' => some (.char ⟨false, [.kind "alnum", .between '_' '_']⟩)
  | 'W' => some (.char ⟨true, [.kind "alnum", .between '_' '_']⟩)
  | 's' => some (.char ⟨false, [.kind "space"]⟩)
  | 'S' => some (.char ⟨true, [.kind "space"]⟩)
  | '<' => some .wordStart
  | '>' => some .wordEnd
  | 'b' => some (.wordEdge false)
  | 'B' => some (.wordEdge true)
  | 'n' => some (.char (.single '\n'))
  | 't' => some (.char (.single '\t'))
  | c => if '1' ≤ c && c ≤ '9' then some (.again (c.toNat - '0'.toNat)) else none

/-- The tokens of a pattern. `fresh` tells whether an expression begins here; `n` bounds their
number. -/
def tokens (extended : Bool) : Nat → Bool → List Char → Except String (List Token)
  | 0, _, _ | _, _, [] => .ok []
  | n + 1, fresh, c :: rest =>
    let add (t : Token) (fresh : Bool) (rest : List Char) : Except String (List Token) :=
      (tokens extended n fresh rest).map (t :: ·)
    let plain (c : Char) (rest : List Char) : Except String (List Token) :=
      add (.atom (.char (.single c))) false rest
    let repetition (least : Nat) (most : Option Nat) (rest : List Char) :
        Except String (List Token) :=
      add (.repetition least most) false rest
    let bounds (closing : List Char) (rest : List Char) : Except String (List Token) :=
      match boundsAtFront? closing rest with
      | some ((least, most), rest) =>
        if most.any (· < least) then .error "Invalid content of \\\x7b\\\x7d"
        else repetition least most rest
      | none =>
        if extended then plain '\x7b' rest
        else if rest.contains '}' then .error "Invalid content of \\\x7b\\\x7d"
        else .error "Unmatched \\\x7b"
    let endsHere : Bool :=
      match rest with
      | [] => true
      | '\\' :: ')' :: _ | '\\' :: '|' :: _ => !extended
      | _ => false
    match c with
    | '.' => add (.atom .any) false rest
    | '[' => do
      let (set, rest) ← setAtFront rest
      add (.atom (.char set)) false rest
    | '*' => if fresh then plain '*' rest else repetition 0 none rest
    | '^' => if extended || fresh then add (.atom .lineStart) true rest else plain '^' rest
    | '$' => if extended || endsHere then add (.atom .lineEnd) false rest else plain '$' rest
    | '\\' =>
      match rest with
      | [] => .error "Trailing backslash"
      | e :: rest =>
        match if extended then none else some e with
        | some '(' => add .opening true rest
        | some ')' => add .closing false rest
        | some '|' => add .bar true rest
        | some '+' => if fresh then plain '+' rest else repetition 1 none rest
        | some '?' => if fresh then plain '?' rest else repetition 0 (some 1) rest
        | some '{' => if fresh then .error "Invalid preceding regular expression"
          else bounds ['\\', '}'] rest
        | _ =>
          match escaped? e with
          | some r => add (.atom r) false rest
          | none => plain e rest
    | c =>
      match if extended then some c else none with
      | some '(' => add .opening true rest
      | some ')' => add .closing false rest
      | some '|' => add .bar true rest
      | some '+' => if fresh then plain '+' rest else repetition 1 none rest
      | some '?' => if fresh then plain '?' rest else repetition 0 (some 1) rest
      | some '{' => if fresh then plain '{' rest else bounds ['}'] rest
      | _ => plain c rest

/-- An expression that is being read: the alternatives before, and the sequence so far, its last
part first. -/
structure Draft where
  alternatives : List Regex
  parts : List Regex

namespace Draft

def empty : Draft :=
  ⟨[], []⟩

def sequence (parts : List Regex) : Regex :=
  match parts.reverse with
  | [] => .nothing
  | first :: rest => rest.foldl .sequence first

def add (d : Draft) (r : Regex) : Draft :=
  { d with parts := r :: d.parts }

def regex (d : Draft) : Regex :=
  d.alternatives.foldl (fun right left => .choice left right) (sequence d.parts)

end Draft

/-- The groups that are open, each with its number and with what has been read before it, and the
number of groups so far. -/
structure Reader where
  outer : List (Nat × Draft)
  inner : Draft
  groups : Nat

def Reader.take (extended : Bool) (r : Reader) : Token → Except String Reader
  | .atom (.again n) =>
    if n ≤ r.groups && !r.outer.any (·.1 == n) then
      .ok { r with inner := r.inner.add (.again n) }
    else .error "Invalid back reference"
  | .atom a => .ok { r with inner := r.inner.add a }
  | .repetition least most =>
    match r.inner.parts with
    | part :: rest =>
      .ok { r with inner := { r.inner with parts := .repeated least most part :: rest } }
    | [] => .ok r
  | .opening =>
    .ok ⟨(r.groups + 1, r.inner) :: r.outer, .empty, r.groups + 1⟩
  | .closing =>
    match r.outer with
    | (n, before) :: outer => .ok { r with outer, inner := before.add (.group n r.inner.regex) }
    | [] =>
      if extended then .ok { r with inner := r.inner.add (.char (.single ')')) }
      else .error "Unmatched ) or \\)"
  | .bar =>
    .ok { r with inner := ⟨Draft.sequence r.inner.parts :: r.inner.alternatives, []⟩ }

def ofText (extended ignoresCase : Bool) (text : List Char) : Except String Pattern := do
  let ts ← tokens extended (text.length + 1) true text
  let r ← ts.foldlM (Reader.take extended) ⟨[], .empty, 0⟩
  if r.outer.isEmpty then return ⟨ignoresCase, r.inner.regex⟩ else throw "Unmatched ( or \\("

end Pattern
end BuildFront
