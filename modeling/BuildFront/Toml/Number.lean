import BuildFront.Toml.Text

/-!
Integers in four bases and floats. Single underscores may stand between digits. Integers have to fit
in 64 bits with a sign, and a positive float must not be too large for a double.
-/

namespace BuildFront.Toml.Number

open Reader Toml.Text

def digits (p : Char → Bool) : Reader (List Char) := do
  let first ← satisfy p
  let rest ← many (do discard <| optional (char '_'); satisfy p)
  return first :: rest

/-- Decimal digits without a leading zero, zero itself apart. -/
def wholePart : Reader (List Char) :=
  (do char '0'; return ['0']) <|> (do
    match ← peek with
    | some '0' => fail
    | _ => digits Char.isDigit)

def sign : Reader Bool := do
  return (← optional (satisfy (fun c => c == '+' || c == '-'))) == some '-'

/-- Whether a number fits into 64 bits with a sign. -/
def inRange (n : Int) : Bool :=
  decide (-9223372036854775808 ≤ n) && decide (n ≤ 9223372036854775807)

def checked (n : Int) : Reader Int :=
  if inRange n then return n else fail

def decimal : Reader Int := do
  let negative ← sign
  let n : Int := ofDigits 10 (← wholePart)
  checked (if negative then -n else n)

def based (letter : Char) (base : Nat) (p : Char → Bool) : Reader Int := do
  word ['0', letter]
  checked (ofDigits base (← digits p))

def integer : Reader Int :=
  based 'x' 16 isHex <|> based 'o' 8 (fun c => '0' ≤ c && c ≤ '7') <|>
    based 'b' 2 (fun c => c == '0' || c == '1') <|> decimal

/-- A float's parts: its sign, its digits without the point, and the power of ten by which they are
scaled. -/
structure Scaled where
  negative : Bool
  digits : Nat
  exponent : Int

/-- The least number that is rounded beyond the largest double. -/
def overflowBound : Nat :=
  Nat.pow 2 1024 - Nat.pow 2 970

/-- Whether the number is too large for a double. Far from the bound the count of digits decides. -/
def Scaled.tooLarge (s : Scaled) : Bool :=
  let magnitude : Int := (Nat.repr s.digits).length + s.exponent
  if s.digits = 0 ∨ magnitude ≤ 308 then false
  else if magnitude ≥ 310 then true
  else if 0 ≤ s.exponent then overflowBound ≤ s.digits * Nat.pow 10 s.exponent.toNat
  else overflowBound * Nat.pow 10 (-s.exponent).toNat ≤ s.digits

def exponentPart : Reader Int := do
  discard <| satisfy (fun c => c == 'e' || c == 'E')
  let negative ← sign
  let n : Int := ofDigits 10 (← digits Char.isDigit)
  return if negative then -n else n

/-- A whole part followed by a fraction, an exponent, or both. -/
def ordinaryFloat : Reader Unit := do
  let negative ← sign
  let whole ← wholePart
  let fraction ← optional (do char '.'; digits Char.isDigit)
  let power ← match fraction with
    | some _ => optional exponentPart
    | none => some <$> exponentPart
  let fractionDigits := fraction.getD []
  let s : Scaled :=
    ⟨negative, ofDigits 10 (whole ++ fractionDigits), power.getD 0 - fractionDigits.length⟩
  if !negative && s.tooLarge then fail else return ()

def specialFloat : Reader Unit := do
  discard sign
  word ['i', 'n', 'f'] <|> word ['n', 'a', 'n']

/-- A float, given as it is written. -/
def float : Reader String := fun cs =>
  ((ordinaryFloat <|> specialFloat) cs).map
    (fun r => (String.ofList (cs.take (cs.length - r.2.length)), r.2))

end BuildFront.Toml.Number
