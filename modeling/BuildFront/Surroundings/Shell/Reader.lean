import BuildFront.Surroundings.Shell.Syntax

/-!
Reading a script from front to back: where a reader stands, and what it has put off. A step takes
characters from the front of the script, or gives up with a complaint about the line it is at.
-/

namespace BuildFront.Shell

structure SyntaxFault where
  line : Nat
  text : String

/-- A text that begins on the next line, up to a line that holds a delimiter alone. -/
structure Awaited where
  number : Nat
  delimiter : Octets
  /-- Whether nothing is put in the place of parts of it. -/
  isLiteral : Bool
  dropsTabs : Bool

structure Reader where
  rest : List Char
  line : Nat
  /-- A token that was read too early. -/
  ahead : Option Token
  awaited : List Awaited
  documents : List (Nat × Word)
  next : Nat

namespace Reader

def start (script : Octets) (next : Nat) : Reader :=
  ⟨script.toList, 1, none, [], [], next⟩

end Reader

abbrev Reading := StateT Reader (Except SyntaxFault)

namespace Reading

variable {α σ ρ : Type}

def fault (text : String) : Reading α := do
  throw ⟨(← get).line, text⟩

/-- Repeat a step until it has an answer. Every step takes a character or a token, so that there are
not more of them than there are characters left. -/
def loop (step : σ → Reading (σ ⊕ ρ)) (s : σ) : Reading ρ := do
  go ((← get).rest.length + 2) s
where
  go : Nat → σ → Reading ρ
    | 0, _ => fault "no end"
    | n + 1, s => do
      match ← step s with
      | .inl s => go n s
      | .inr r => return r

/-- A backslash before the end of a line joins it with the next one. -/
def skipJoints : Reading Unit :=
  loop (fun _ => do
    let r ← get
    match r.rest with
    | '\\' :: '\n' :: rest =>
      set { r with rest, line := r.line + 1 }
      return .inl ()
    | _ => return .inr ()) ()

def peek? : Reading (Option Char) := do
  return (← get).rest.head?

def take? : Reading (Option Char) := do
  let r ← get
  match r.rest with
  | [] => return none
  | c :: rest =>
    set { r with rest, line := if c == '\n' then r.line + 1 else r.line }
    return some c

def peekJoined? : Reading (Option Char) := do
  skipJoints
  peek?

def takeJoined? : Reading (Option Char) := do
  skipJoints
  take?

def accept (c : Char) : Reading Bool := do
  if (← peekJoined?) == some c then
    discard take?
    return true
  else return false

def takeWhile (p : Char → Bool) : Reading Octets := do
  let r ← get
  let taken := r.rest.takeWhile p
  set { r with rest := r.rest.dropWhile p, line := r.line + taken.count '\n' }
  return String.ofList taken

def takeJoinedWhile (p : Char → Bool) : Reading Octets :=
  loop (fun s => do
    match ← peekJoined? with
    | some c =>
      if p c then
        let s := s ++ (← takeWhile p)
        return .inl s
      else return .inr s
    | none => return .inr s) ""

/-- Read another text, with what has been put off so far, and go on with this one. -/
def within (text : Octets) (step : Reading α) : Reading α := do
  let outer ← get
  set { outer with rest := text.toList, ahead := none, awaited := [] }
  let a ← step
  let inner ← get
  set { outer with documents := inner.documents, next := inner.next }
  return a

end Reading
end BuildFront.Shell
