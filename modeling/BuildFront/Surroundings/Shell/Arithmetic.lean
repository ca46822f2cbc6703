import BuildFront.Surroundings.Octets

/-!
Arithmetic of a shell: expressions over whole numbers of 64 bits and over variables that hold such
numbers. An expression is read from its text and then evaluated; only the branch of a choice that is
taken, and only as much of a conjunction as is needed, takes effect.
-/

namespace BuildFront.Shell.Arithmetic

inductive Operator where
  | mul | div | rem | add | sub | shiftLeft | shiftRight
  | less | lessEq | greater | greaterEq | equal | unequal
  | bitAnd | bitXor | bitOr
  deriving DecidableEq

inductive Expr where
  | number (n : Int64)
  | variable (name : Octets)
  | assign (name : Octets) (op : Option Operator) (e : Expr)
  | negate (e : Expr)
  | invert (e : Expr)
  | isZero (e : Expr)
  | binary (op : Operator) (left right : Expr)
  | both (left right : Expr)
  | either (left right : Expr)
  | choose (condition yes no : Expr)

inductive Token where
  | number (n : Int64)
  | name (s : Octets)
  | mark (s : String)
  | ended
  | other
  deriving DecidableEq

def marks : List String :=
  ["<<=", ">>=", "<=", ">=", "==", "!=", "&&", "||", "<<", ">>", "+=", "-=", "*=", "/=", "%=", "&=",
   "|=", "^=", "<", ">", "=", "!", "&", "|", "^", "~", "+", "-", "*", "/", "%", "(", ")", "?", ":"]

def isBlank (c : Char) : Bool :=
  c == ' ' || c == '\t' || c == '\n'

def digitValue (c : Char) : Nat :=
  if c.isDigit then c.toNat - '0'.toNat
  else if 'a' ≤ c ∧ c ≤ 'z' then c.toNat - 'a'.toNat + 10
  else if 'A' ≤ c ∧ c ≤ 'Z' then c.toNat - 'A'.toNat + 10
  else 255

def digitsIn (base : Nat) (cs : List Char) : Nat :=
  cs.foldl (fun n c => n * base + digitValue c) 0

/-- A number as large as there is stands for all that are larger. -/
def bounded (n : Nat) : Int64 :=
  Int64.ofNat (min n 9223372036854775807)

/-- The number at the front of a text: hexadecimal after `0x`, octal after `0`, decimal
otherwise. -/
def numberAtFront (cs : List Char) : Nat × List Char :=
  match cs with
  | '0' :: x :: d :: rest =>
    if (x == 'x' || x == 'X') && digitValue d < 16 then
      let digits := (d :: rest).takeWhile (digitValue · < 16)
      (digitsIn 16 digits, (d :: rest).drop digits.length)
    else
      let digits := cs.takeWhile (digitValue · < 8)
      (digitsIn 8 digits, cs.drop digits.length)
  | '0' :: _ =>
    let digits := cs.takeWhile (digitValue · < 8)
    (digitsIn 8 digits, cs.drop digits.length)
  | _ =>
    let digits := cs.takeWhile Char.isDigit
    (digitsIn 10 digits, cs.drop digits.length)

def number? (s : Octets) : Option Int64 :=
  let cs := s.toList.dropWhile isBlank
  let (negative, cs) := match cs with
    | '-' :: rest => (true, rest)
    | '+' :: rest => (false, rest)
    | cs => (false, cs)
  if !cs.head?.any Char.isDigit then none
  else
    let (n, rest) := numberAtFront cs
    if rest.all isBlank then
      some (if negative then -(bounded n) else bounded n)
    else none

def isNameChar (c : Char) : Bool :=
  c.isAlphanum || c == '_'

def nextToken (cs : List Char) : Token × List Char :=
  match cs.dropWhile isBlank with
  | [] => (.ended, [])
  | c :: rest =>
    if c.isDigit then
      let (n, rest) := numberAtFront (c :: rest)
      (.number (bounded n), rest)
    else if isNameChar c then
      let name := (c :: rest).takeWhile isNameChar
      (.name (String.ofList name), (c :: rest).drop name.length)
    else
      match marks.find? (fun m => m.toList.isPrefixOf (c :: rest)) with
      | some m => (.mark m, (c :: rest).drop m.length)
      | none => (.other, rest)

def tokens : Nat → List Char → List Token
  | 0, _ => []
  | n + 1, cs =>
    match nextToken cs with
    | (.ended, _) => []
    | (t, rest) => t :: tokens n rest

/-- The binary operators with their strength, the weakest having the least number. -/
def binaries : List (String × Nat × Operator) :=
  [("|", 1, .bitOr), ("^", 2, .bitXor), ("&", 3, .bitAnd), ("==", 4, .equal), ("!=", 4, .unequal),
   ("<", 5, .less), ("<=", 5, .lessEq), (">", 5, .greater), (">=", 5, .greaterEq),
   ("<<", 6, .shiftLeft), (">>", 6, .shiftRight), ("+", 7, .add), ("-", 7, .sub), ("*", 8, .mul),
   ("/", 8, .div), ("%", 8, .rem)]

def assignments : List (String × Option Operator) :=
  [("=", none), ("*=", some .mul), ("/=", some .div), ("%=", some .rem), ("+=", some .add),
   ("-=", some .sub), ("<<=", some .shiftLeft), (">>=", some .shiftRight), ("&=", some .bitAnd),
   ("^=", some .bitXor), ("|=", some .bitOr)]

abbrev Reading := StateT (List Token) (Except String)

def peek : Reading Token := do
  return (← get).head?.getD .ended

def skip : Reading Unit :=
  modify (·.drop 1)

def expect (mark complaint : String) : Reading Unit := do
  if (← peek) == .mark mark then skip else throw complaint

inductive Layer where
  | assignment
  | choice
  | disjunction
  | conjunction
  | binary (strength : Nat)
  | operand

/-- Read the operators of a strength and their operands as far as they go, those on the left bound
first. The last number bounds how many there are. -/
def operations (operand : Reading Expr) (strength : Nat) : Nat → Expr → Reading Expr
  | 0, left => return left
  | n + 1, left => do
    match ← peek with
    | .mark m =>
      match binaries.lookup m with
      | some (s, op) =>
        if s == strength then
          skip
          operations operand strength n (.binary op left (← operand))
        else return left
      | none => return left
    | _ => return left

def expression : Nat → Layer → Reading Expr
  | 0, _ => throw "expression recursion level exceeded"
  | n + 1, layer => do
    match layer with
    | .assignment =>
      match ← get with
      | .name s :: .mark m :: rest =>
        match assignments.lookup m with
        | some op =>
          set rest
          return .assign s op (← expression n .assignment)
        | none => expression n .choice
      | _ => expression n .choice
    | .choice =>
      let condition ← expression n .disjunction
      if (← peek) == .mark "?" then
        skip
        let yes ← expression n .assignment
        expect ":" "expecting ':'"
        return .choose condition yes (← expression n .choice)
      else return condition
    | .disjunction =>
      let left ← expression n .conjunction
      if (← peek) == .mark "||" then
        skip
        return .either left (← expression n .disjunction)
      else return left
    | .conjunction =>
      let left ← expression n (.binary 1)
      if (← peek) == .mark "&&" then
        skip
        return .both left (← expression n .conjunction)
      else return left
    | .binary strength =>
      if 8 < strength then expression n .operand
      else
        let operand := expression n (.binary (strength + 1))
        let first ← operand
        operations operand strength (← get).length first
    | .operand =>
      let t ← peek
      skip
      match t with
      | .number v => return .number v
      | .name s => return .variable s
      | .mark "(" =>
        let e ← expression n .assignment
        expect ")" "expecting ')'"
        return e
      | .mark "+" => expression n .operand
      | .mark "-" => return .negate (← expression n .operand)
      | .mark "~" => return .invert (← expression n .operand)
      | .mark "!" => return .isZero (← expression n .operand)
      | _ => throw "expecting primary"

/-- The expression of a text. A text without tokens is refused. -/
def parse (text : Octets) : Except String Expr := do
  let ts := tokens (text.length + 1) text.toList
  let (e, rest) ← (expression (16 * (ts.length + 1)) .assignment).run ts
  if rest.isEmpty then return e else throw "expecting EOF"

inductive Fault where
  | divisionByZero
  | noNumber (value : Octets)
  | malformed (complaint : String)

def ofBool (b : Bool) : Int64 :=
  if b then 1 else 0

def Operator.apply (op : Operator) (a b : Int64) : Except Fault Int64 :=
  match op with
  | .mul => .ok (a * b)
  | .div => if b == 0 then .error .divisionByZero else .ok (a / b)
  | .rem => if b == 0 then .error .divisionByZero else .ok (a % b)
  | .add => .ok (a + b)
  | .sub => .ok (a - b)
  | .shiftLeft => .ok (a <<< b)
  | .shiftRight => .ok (a >>> b)
  | .less => .ok (ofBool (a < b))
  | .lessEq => .ok (ofBool (a ≤ b))
  | .greater => .ok (ofBool (b < a))
  | .greaterEq => .ok (ofBool (b ≤ a))
  | .equal => .ok (ofBool (a == b))
  | .unequal => .ok (ofBool (a != b))
  | .bitAnd => .ok (a &&& b)
  | .bitXor => .ok (a ^^^ b)
  | .bitOr => .ok (a ||| b)

/-- The values that variables have got, the last first. -/
abbrev Changes := List (Octets × Int64)

/-- The value of a variable; one that is unset or empty counts as zero. -/
def valueOf (vars : Octets → Option Octets) (changes : Changes) (name : Octets) :
    Except Fault Int64 :=
  match changes.lookup name with
  | some v => .ok v
  | none =>
    match vars name with
    | none | some "" => .ok 0
    | some s =>
      match number? s with
      | some v => .ok v
      | none => .error (.noNumber s)

namespace Expr

def eval (vars : Octets → Option Octets) : Expr → Changes → Except Fault (Int64 × Changes)
  | .number v, changes => .ok (v, changes)
  | .variable name, changes => do return (← valueOf vars changes name, changes)
  | .assign name op e, changes => do
    let (v, changes) ← e.eval vars changes
    let v ← match op with
      | none => pure v
      | some op => op.apply (← valueOf vars changes name) v
    return (v, (name, v) :: changes)
  | .negate e, changes => do
    let (v, changes) ← e.eval vars changes
    return (-v, changes)
  | .invert e, changes => do
    let (v, changes) ← e.eval vars changes
    return (~~~v, changes)
  | .isZero e, changes => do
    let (v, changes) ← e.eval vars changes
    return (ofBool (v == 0), changes)
  | .binary op a b, changes => do
    let (x, changes) ← a.eval vars changes
    let (y, changes) ← b.eval vars changes
    return (← op.apply x y, changes)
  | .both a b, changes => do
    let (x, changes) ← a.eval vars changes
    if x == 0 then return (0, changes)
    else
      let (y, changes) ← b.eval vars changes
      return (ofBool (y != 0), changes)
  | .either a b, changes => do
    let (x, changes) ← a.eval vars changes
    if x != 0 then return (1, changes)
    else
      let (y, changes) ← b.eval vars changes
      return (ofBool (y != 0), changes)
  | .choose c a b, changes => do
    let (x, changes) ← c.eval vars changes
    if x != 0 then a.eval vars changes else b.eval vars changes

end Expr

def evaluate (vars : Octets → Option Octets) (text : Octets) : Except Fault (Int64 × Changes) := do
  let e ← (parse text).mapError .malformed
  let (v, changes) ← e.eval vars []
  return (v, changes.reverse)

def Fault.message (text : Octets) : Fault → Octets
  | .divisionByZero => "arithmetic expression: division by zero: \"" ++ text ++ "\""
  | .noNumber value => "Illegal number: " ++ value
  | .malformed complaint => "arithmetic expression: " ++ complaint ++ ": \"" ++ text ++ "\""

end BuildFront.Shell.Arithmetic
