/-!
Readers of text: each takes what it understands from the front and leaves the rest, or fails. The
document grammar needs no more than one way to fail, so a failure carries no reason.
-/

namespace BuildFront.Toml

abbrev Reader := StateT (List Char) Option

namespace Reader

variable {α : Type}

def fail : Reader α :=
  fun _ => none

def peek : Reader (Option Char) :=
  fun cs => some (cs.head?, cs)

def satisfy (p : Char → Bool) : Reader Char
  | c :: cs => if p c then some (c, cs) else none
  | [] => none

def char (c : Char) : Reader Unit :=
  fun cs => (satisfy (· == c) cs).map (fun r => ((), r.2))

def word : List Char → Reader Unit
  | [] => pure ()
  | c :: cs => do char c; word cs

/-- The longest run of such characters, possibly none. -/
def run (p : Char → Bool) : Reader (List Char) :=
  fun cs => some (cs.takeWhile p, cs.dropWhile p)

def exactly (p : Char → Bool) : Nat → Reader (List Char)
  | 0 => pure []
  | n + 1 => do return (← satisfy p) :: (← exactly p n)

def manyUpTo (r : Reader α) : Nat → Reader (List α)
  | 0 => pure []
  | n + 1 => do
    match ← optional r with
    | none => return []
    | some a => return a :: (← manyUpTo r n)

/-- As often as `r` reads something. Each time takes a character, so the length of the text is often
enough. -/
def many (r : Reader α) : Reader (List α) :=
  fun cs => manyUpTo r cs.length cs

/-- One or more, with `sep` between them. A separator that nothing follows is left. -/
def sepBy1 (r : Reader α) (sep : Reader Unit) : Reader (List α) := do
  return (← r) :: (← many (do sep; r))

def sepBy (r : Reader α) (sep : Reader Unit) : Reader (List α) := do
  return (← optional (sepBy1 r sep)).getD []

def atEnd : Reader Unit
  | [] => some ((), [])
  | _ => none

end Reader
end BuildFront.Toml
