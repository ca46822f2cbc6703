import BuildFront.Surroundings.Tool.Program

/-!
Conditions on texts, numbers and files, written as the arguments of a program.
-/

namespace BuildFront.Tool

open Program

namespace Condition

inductive Lexeme where
  | ended
  | operand
  | unary (c : Char)
  | binary (op : String)
  | not
  | both
  | either
  | opening
  | closing
  deriving DecidableEq

def unaries : String := "rwxefdcbpugksztnhOGLS"

def binaries : List String :=
  ["=", "!=", "<", ">", "-eq", "-ne", "-ge", "-gt", "-le", "-lt", "-nt", "-ot", "-ef"]

def operator? (s : Octets) : Option Lexeme :=
  match s with
  | "!" => some .not
  | "-a" => some .both
  | "-o" => some .either
  | "(" => some .opening
  | ")" => some .closing
  | s =>
    if binaries.contains s then some (.binary s)
    else match s.toList with
      | ['-', c] => if unaries.toList.contains c then some (.unary c) else none
      | _ => none

/-- Whether a unary operator is an operand after all, by what follows it. -/
def isOperand : List Octets → Bool
  | [] => true
  | [_] => false
  | s :: _ =>
    match operator? s with
    | some (.binary _) => true
    | _ => false

def lexeme : List Octets → Lexeme
  | [] => .ended
  | s :: rest =>
    match operator? s with
    | some (.unary c) => if isOperand rest then .operand else .unary c
    | some .opening => if rest.isEmpty then .operand else .opening
    | some l => l
    | none => .operand

def integer (s : Octets) : Program Int := do
  let isBlank (c : Char) : Bool := c == ' ' || ('\t' ≤ c && c ≤ '\r')
  let cs := ((s.toList.dropWhile isBlank).reverse.dropWhile isBlank).reverse
  let (negative, digits) := match cs with
    | '-' :: rest => (true, rest)
    | '+' :: rest => (false, rest)
    | cs => (false, cs)
  if digits.isEmpty || !digits.all Char.isDigit then fail 2 ("Illegal number: " ++ s)
  else
    let n := (String.ofList digits).toNat?.getD 0
    return if negative then -(n : Int) else (n : Int)

def unaryHolds (c : Char) (s : Octets) : Program Bool := do
  match c with
  | 'z' => return s.isEmpty
  | 'n' => return !s.isEmpty
  | 't' =>
    discard (integer s)
    return false
  | 'h' | 'L' =>
    match ← entry? s false with
    | some (.link _) => return true
    | _ => return false
  | c =>
    match ← entry? s true with
    | none => return false
    | some e =>
      match c with
      | 'e' | 'r' | 'w' | 'O' | 'G' => return true
      | 'd' => return e == .directory
      | 'f' =>
        match e with
        | .file _ _ | .tool _ => return true
        | _ => return false
      | 'x' =>
        match e with
        | .file _ executable => return executable
        | .directory | .tool _ => return true
        | _ => return false
      | 's' =>
        match e with
        | .file data _ => return !data.isEmpty
        | .device _ => return false
        | _ => return true
      | 'c' =>
        match e with
        | .device _ => return true
        | _ => return false
      | _ => return false

def placeOf? (s : Octets) : Program (Option Place) := do
  match (← get).files.find (← read).cwd (Octets.toPath s) true with
  | .ok ⟨place, some _⟩ => return some place
  | _ => return none

def binaryHolds (op : String) (a b : Octets) : Program Bool := do
  match op with
  | "=" => return a == b
  | "!=" => return a != b
  | "<" => return a < b
  | ">" => return b < a
  | "-nt" | "-ot" => return false
  | "-ef" =>
    match ← placeOf? a, ← placeOf? b with
    | some x, some y => return x == y
    | _, _ => return false
  | op =>
    let x ← integer a
    let y ← integer b
    match op with
    | "-eq" => return x == y
    | "-ne" => return x != y
    | "-lt" => return x < y
    | "-le" => return x ≤ y
    | "-gt" => return x > y
    | _ => return x ≥ y

inductive Layer where
  | disjunction
  | conjunction
  | negation
  | operand

/-- The truth of the part of a condition at the front of some arguments, and the arguments from the
last one of it on. `l` is what the first is taken for; `n` bounds the nesting. -/
def holds : Nat → Layer → Lexeme → List Octets → Program (Bool × List Octets)
  | 0, _, _, ws => return (false, ws)
  | n + 1, layer, l, ws => do
    match layer with
    | .disjunction =>
      let (a, ws) ← holds n .conjunction l ws
      if lexeme (ws.drop 1) = .either then
        let (b, ws) ← holds n .disjunction (lexeme (ws.drop 2)) (ws.drop 2)
        return (a || b, ws)
      else return (a, ws)
    | .conjunction =>
      let (a, ws) ← holds n .negation l ws
      if lexeme (ws.drop 1) = .both then
        let (b, ws) ← holds n .conjunction (lexeme (ws.drop 2)) (ws.drop 2)
        return (a && b, ws)
      else return (a, ws)
    | .negation =>
      if l = .not then
        let next := lexeme (ws.drop 1)
        let (a, ws) ← holds n .negation next (if next = .ended then ws else ws.drop 1)
        return (!a, ws)
      else holds n .operand l ws
    | .operand =>
      match l with
      | .ended => return (false, ws)
      | .opening =>
        let ws := ws.drop 1
        if lexeme ws = .closing then return (false, ws)
        else
          let (a, ws) ← holds n .disjunction (lexeme ws) ws
          let ws := ws.drop 1
          if lexeme ws = .closing then return (a, ws)
          else fail 2 "closing paren expected"
      | .unary c =>
        match ws.drop 1 with
        | [] => fail 2 (String.ofList ['-', c] ++ ": argument expected")
        | s :: rest => return (← unaryHolds c s, s :: rest)
      | _ =>
        match ws, lexeme (ws.drop 1) with
        | a :: _, .binary op =>
          match ws.drop 2 with
          | [] => fail 2 (op ++ ": argument expected")
          | b :: rest => return (← binaryHolds op a b, b :: rest)
        | ws, _ => return (!(ws.headD "").isEmpty, ws)

def whole (first : Lexeme) (args : List Octets) : Program Bool := do
  let (a, rest) ← holds (8 * (args.length + 1)) .disjunction first args
  match rest with
  | s :: _ :: _ => fail 2 ((if s.isEmpty then "" else s ++ ": ") ++ "unexpected operator")
  | _ => return a

/-- The truth of a condition. Short ones are understood by the number of their arguments. -/
def truth : List Octets → Program Bool
  | [] => return false
  | [a, b, c] => do
    match operator? b with
    | some (.binary _) => whole .operand [a, b, c]
    | _ =>
      if a == "(" && c == ")" then whole (lexeme [b]) [b]
      else if a == "!" then return !(← whole (lexeme [b, c]) [b, c])
      else whole (lexeme [a, b, c]) [a, b, c]
  | [a, b, c, d] => do
    if a == "(" && d == ")" then whole (lexeme [b, c]) [b, c]
    else if a == "!" then
      match operator? c with
      | some (.binary _) => return !(← whole .operand [b, c, d])
      | _ =>
        if b == "(" && d == ")" then return !(← whole (lexeme [c]) [c])
        else if b == "!" then return !(← whole (lexeme [c, d]) [c, d])
        else return !(← whole (lexeme [b, c, d]) [b, c, d])
    else whole (lexeme [a, b, c, d]) [a, b, c, d]
  | args => whole (lexeme args) args

end Condition

/-- Tell by the exit code whether a condition holds. Between brackets the last one must be there. -/
def test (bracketed : Bool) : Program Unit := do
  let args := (← read).args
  if bracketed && args.getLast? != some "]" then fail 2 "missing ]"
  else if ← Condition.truth (if bracketed then args.dropLast else args) then exit 0
  else exit 1

end BuildFront.Tool
