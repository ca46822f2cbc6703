import BuildFront.Toml.Text

/-!
Dates and times. What is read is given back in canonical spelling: a capital `T` between date and
time, fractions of a second without trailing zeros and cut after the ninth digit.
-/

namespace BuildFront.Toml.DateTime

open Reader Toml.Text

/-- A number of exactly `width` digits within bounds. -/
def field (width low high : Nat) : Reader Nat := do
  let n := ofDigits 10 (← exactly Char.isDigit width)
  if low ≤ n ∧ n ≤ high then return n else fail

def padded (width n : Nat) : String :=
  let ds := Nat.repr n
  String.ofList (List.replicate (width - ds.length) '0') ++ ds

def isLeap (year : Nat) : Bool :=
  year % 4 == 0 && (year % 100 != 0 || year % 400 == 0)

def daysIn (year month : Nat) : Nat :=
  if month = 2 then if isLeap year then 29 else 28
  else if month = 4 ∨ month = 6 ∨ month = 9 ∨ month = 11 then 30
  else 31

def date : Reader String := do
  let year ← field 4 0 9999
  char '-'
  let month ← field 2 1 12
  char '-'
  let day ← field 2 1 (daysIn year month)
  return padded 4 year ++ "-" ++ padded 2 month ++ "-" ++ padded 2 day

/-- The digits after the point as they are kept. -/
def fractionText (ds : List Char) : String :=
  match ((ds.take 9).reverse.dropWhile (· == '0')).reverse with
  | [] => ""
  | kept => "." ++ String.ofList kept

def time : Reader String := do
  let hour ← field 2 0 23
  char ':'
  let minute ← field 2 0 59
  char ':'
  let second ← field 2 0 60
  let fraction ← optional (do
    char '.'
    let d ← satisfy Char.isDigit
    return d :: (← run Char.isDigit))
  return padded 2 hour ++ ":" ++ padded 2 minute ++ ":" ++ padded 2 second ++
    (fraction.map fractionText).getD ""

def offset : Reader String :=
  (do
    discard <| satisfy (fun c => c == 'Z' || c == 'z')
    return "Z") <|> (do
    let s ← satisfy (fun c => c == '+' || c == '-')
    let hour ← field 2 0 23
    char ':'
    let minute ← field 2 0 59
    let mark := if s == '-' && hour + minute != 0 then "-" else "+"
    return mark ++ padded 2 hour ++ ":" ++ padded 2 minute)

def dateTime : Reader String :=
  (do
    let d ← date
    let t ← optional (do
      discard <| satisfy (fun c => c == 'T' || c == 't' || c == ' ')
      let t ← time
      return t ++ (← optional offset).getD "")
    return match t with
      | some t => d ++ "T" ++ t
      | none => d) <|> time

end BuildFront.Toml.DateTime
