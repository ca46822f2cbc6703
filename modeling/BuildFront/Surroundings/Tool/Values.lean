import BuildFront.Surroundings.Pattern
import BuildFront.Surroundings.Tool.Files

/-!
Programs that work out a value from their arguments: numbers in a row, expressions, and the parts of
paths.
-/

namespace BuildFront.Tool

open Program

def integer? (s : Octets) : Option Int :=
  match s.toList with
  | '-' :: cs => if cs.isEmpty || !cs.all Char.isDigit then none
    else (String.ofList cs).toNat?.map (fun n => -(n : Int))
  | '+' :: cs => if cs.isEmpty || !cs.all Char.isDigit then none
    else (String.ofList cs).toNat?.map (fun n => (n : Int))
  | cs => if cs.isEmpty || !cs.all Char.isDigit then none
    else (String.ofList cs).toNat?.map (fun n => (n : Int))

def seq : Program Unit := do
  let isNumber (a : Octets) : Bool := (integer? a).isSome
  let args := (← read).args
  let front := args.takeWhile (fun a => !isNumber a)
  let marked := if front.contains "--" || front == ["-s"] then front else front ++ ["--"]
  let g ← OptionTable.read
    ⟨"w", "sf", [("equal-width", 'w'), ("separator", 's'), ("format", 'f')]⟩ 1
    (marked ++ args.drop front.length)
  let number (s : Octets) : Program Int := do
    match integer? s with
    | some n => return n
    | none => misuse 1 ("invalid floating point argument: '" ++ s ++ "'")
  let (first, step, last) ← match g.operands with
    | [] => misuse 1 "missing operand"
    | [last] => do pure (1, 1, ← number last)
    | [first, last] => do pure (← number first, 1, ← number last)
    | [first, step, last] => do pure (← number first, ← number step, ← number last)
    | _ :: _ :: _ :: extra :: _ => misuse 1 ("extra operand '" ++ extra ++ "'")
  if step = 0 then misuse 1 "invalid Zero increment value: '0'"
  let count := if 0 < step then (if last < first then 0 else ((last - first) / step).toNat + 1)
    else (if first < last then 0 else ((first - last) / (-step)).toNat + 1)
  let values := (List.range count).map (fun (i : Nat) => toString (first + step * (i : Int)))
  let width := if g.has 'w' then max (toString first).length (toString last).length else 0
  let padded (v : Octets) : Octets :=
    let fill (n : Nat) : Octets := "".pushn '0' n
    if v.startsWith "-" then "-" ++ fill (width - v.length) ++ String.ofList (v.toList.drop 1)
    else fill (width - v.length) ++ v
  if !values.isEmpty then
    print (((g.value? 's').getD "\n").intercalate (values.map padded) ++ "\n")

namespace Expression

/-- What may be read at a place of an expression: the operators by their strength, the weakest
first. -/
def layers : List (List String) :=
  [["|"], ["&"], ["<", "<=", "=", "==", "!=", ">=", ">"], ["+", "-"], ["*", "/", "%"], [":"]]

def isTrue (s : Octets) : Bool :=
  !s.isEmpty && integer? s != some 0

def ofBool (b : Bool) : Octets :=
  if b then "1" else "0"

def matched (s pattern : Octets) : Program Octets := do
  match Pattern.ofText false false pattern.toList with
  | .error text => fail 2 text
  | .ok p =>
    let hasGroup := (pattern.splitOn "\\(").length != 1
    match p.findHere (fun _ => true) [] s.toList with
    | none => return if hasGroup then "" else "0"
    | some f =>
      return if hasGroup then String.ofList ((f.groups.lookup 1).getD [])
        else toString f.text.length

def apply (op : String) (a b : Octets) : Program Octets := do
  let integers : Program (Int × Int) := do
    match integer? a, integer? b with
    | some x, some y => return (x, y)
    | _, _ => fail 2 "non-integer argument"
  let compared (test : Ordering → Bool) : Program Octets :=
    match integer? a, integer? b with
    | some x, some y => return ofBool (test (compare x y))
    | _, _ => return ofBool (test (compare a b))
  match op with
  | "|" => return if isTrue a then a else if b.isEmpty then "0" else b
  | "&" => return if isTrue a && isTrue b then a else "0"
  | "<" => compared (· == .lt)
  | "<=" => compared (· != .gt)
  | "=" | "==" => compared (· == .eq)
  | "!=" => compared (· != .eq)
  | ">=" => compared (· != .lt)
  | ">" => compared (· == .gt)
  | ":" => matched a b
  | op =>
    let (x, y) ← integers
    match op with
    | "+" => return toString (x + y)
    | "-" => return toString (x - y)
    | "*" => return toString (x * y)
    | op =>
      if y = 0 then fail 2 "division by zero"
      else return toString (if op == "/" then x.tdiv y else x.tmod y)

/-- A value with the operators behind it applied, as far as there are such, and the words behind
them. `operand` reads what follows an operator. -/
def applied (ops : List String) (operand : List Octets → Program (Octets × List Octets)) :
    Nat → Octets → List Octets → Program (Octets × List Octets)
  | n + 1, a, op :: rest => do
    if ops.contains op then
      if rest.isEmpty then fail 2 ("syntax error: missing argument after '" ++ op ++ "'")
      let (b, rest) ← operand rest
      applied ops operand n (← apply op a b) rest
    else return (a, op :: rest)
  | _, a, ws => return (a, ws)

/-- The value of an expression at the front of some words, and the words behind it. `n` bounds the
nesting. -/
def value : Nat → List (List String) → List Octets → Program (Octets × List Octets)
  | 0, _, _ => fail 2 "syntax error"
  | n + 1, ops :: weaker, ws => do
    let (first, ws) ← value n weaker ws
    applied ops (value n weaker) ws.length first ws
  | n + 1, [], ws => do
    match ws with
    | [] => fail 2 "syntax error: unexpected end"
    | "(" :: rest =>
      let (v, rest) ← value n layers rest
      match rest with
      | ")" :: rest => return (v, rest)
      | [] => fail 2 ("syntax error: expecting ')' after '" ++ v ++ "'")
      | w :: _ => fail 2 ("syntax error: expecting ')' instead of '" ++ w ++ "'")
    | ")" :: _ => fail 2 "syntax error: unexpected ')'"
    | ["length"] | ["index"] | ["substr"] | ["match"] | ["+"] =>
      fail 2 ("syntax error: missing argument after '" ++ ws.headD "" ++ "'")
    | "length" :: s :: rest => return (toString s.length, rest)
    | "index" :: s :: set :: rest =>
      let index := s.toList.findIdx? (fun c => set.toList.contains c)
      return (toString ((index.map (· + 1)).getD 0), rest)
    | "substr" :: s :: start :: count :: rest =>
      match integer? start, integer? count with
      | some i, some k =>
        let text := if i < 1 || k < 1 then ""
          else String.ofList ((s.toList.drop (i.toNat - 1)).take k.toNat)
        return (text, rest)
      | _, _ => return ("", rest)
    | "match" :: s :: p :: rest => return (← matched s p, rest)
    | "+" :: w :: rest => return (w, rest)
    | w :: rest => return (w, rest)

end Expression

def expr : Program Unit := do
  let args := match (← read).args with
    | "--" :: rest => rest
    | args => args
  match args with
  | [] => misuse 2 "missing operand"
  | args =>
    let (v, rest) ← Expression.value (8 * (args.length + 1)) Expression.layers args
    match rest with
    | w :: _ => fail 2 ("syntax error: unexpected argument '" ++ w ++ "'")
    | [] =>
      print (v ++ "\n")
      exit (if Expression.isTrue v then 0 else 1)

def trimmed (p : Octets) : Octets :=
  String.ofList (p.toList.reverse.dropWhile (· == '/')).reverse

/-- The last name of a path as it is written, without an ending. -/
def baseOf (ending p : Octets) : Octets :=
  let t := trimmed p
  if t.isEmpty then (if p.isEmpty then "" else "/")
  else
    let name := (t.splitOn "/").getLast?.getD t
    if name != ending && name.endsWith ending then
      String.ofList (name.toList.take (name.length - ending.length))
    else name

def basename : Program Unit := do
  let g ← OptionTable.read ⟨"az", "s", [("multiple", 'a'), ("suffix", 's')]⟩ 1 (← read).args
  let ending := (g.value? 's').getD ""
  if g.operands.isEmpty then misuse 1 "missing operand"
  if g.has 'a' || g.has 's' then
    g.operands.forM (fun p => print (baseOf ending p ++ "\n"))
  else
    match g.operands with
    | [p] => print (baseOf "" p ++ "\n")
    | [p, e] => print (baseOf e p ++ "\n")
    | _ :: _ :: extra :: _ => misuse 1 ("extra operand '" ++ extra ++ "'")
    | [] => pure ()

def directoryOf (p : Octets) : Octets :=
  let t := trimmed p
  if t.isEmpty then (if p.isEmpty then "." else "/")
  else if !t.toList.contains '/' then "."
  else
    let front := trimmed (String.ofList (t.toList.reverse.dropWhile (· != '/')).reverse)
    if front.isEmpty then "/" else front

def dirname : Program Unit := do
  let g ← OptionTable.read ⟨"z", "", []⟩ 1 (← read).args
  if g.operands.isEmpty then misuse 1 "missing operand"
  g.operands.forM (fun p => print (directoryOf p ++ "\n"))

end BuildFront.Tool
