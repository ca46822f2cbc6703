import BuildFront.Surroundings.Tool.Options

/-!
Programs that pass lines on: all of them, those at one end, or all in another order.
-/

namespace BuildFront.Tool

open Program

def lineFeed : UInt8 := 0x0A

def linesOf (bs : Bytes) : List Bytes × Bool :=
  let pieces := bs.splitOn lineFeed
  if pieces.getLast? == some [] then (pieces.dropLast, true) else (pieces, false)

def ofLines (lines : List Bytes) : Bytes :=
  lines.flatMap (· ++ [lineFeed])

/-- Lines one after another, the last of them ended only if it was. -/
def unlines (lines : List Bytes) (ended : Bool) : Bytes :=
  if ended then ofLines lines else [lineFeed].intercalate lines

def padded (width n : Nat) : Octets :=
  let digits := toString n
  "".pushn ' ' (width - digits.length) ++ digits

def visible (b : UInt8) : Octets :=
  let low (n : Nat) : Octets :=
    if n < 32 then "^" ++ (Char.ofNat (n + 64)).toString
    else if n = 127 then "^?"
    else (Char.ofNat n).toString
  if b.toNat < 128 then low b.toNat else "M-" ++ low (b.toNat - 128)

structure Display where
  numbers : Bool
  numbersFilled : Bool
  squeezes : Bool
  ends : Bool
  tabs : Bool
  marks : Bool

namespace Display

def ofGiven (g : Given) : Display where
  numbers := g.has 'n'
  numbersFilled := g.has 'b'
  squeezes := g.has 's'
  ends := g.has 'E' || g.has 'A' || g.has 'e'
  tabs := g.has 'T' || g.has 'A' || g.has 't'
  marks := g.has 'v' || g.has 'A' || g.has 'e' || g.has 't'

def isPlain (d : Display) : Bool :=
  !(d.numbers || d.numbersFilled || d.squeezes || d.ends || d.tabs || d.marks)

def showByte (d : Display) (b : UInt8) : Bytes :=
  if b == 0x09 then (if d.tabs then Octets.toBytes "^I" else [b])
  else if d.marks then Octets.toBytes (visible b)
  else [b]

/-- Lines without all but the first of empty ones in a row. -/
def squeeze : Bool → List Bytes → List Bytes
  | _, [] => []
  | before, line :: rest =>
    if line.isEmpty && before then squeeze true rest else line :: squeeze line.isEmpty rest

def showLines (d : Display) : Nat → List Bytes → List Bytes
  | _, [] => []
  | n, line :: rest =>
    let counts := (d.numbers && !d.numbersFilled) || (d.numbersFilled && !line.isEmpty)
    let front := if counts then Octets.toBytes (padded 6 n ++ "\t") else []
    (front ++ line.flatMap d.showByte) :: showLines d (if counts then n + 1 else n) rest

def apply (d : Display) (data : Bytes) : Bytes :=
  if d.isPlain then data
  else
    let (lines, ended) := linesOf data
    let shown := d.showLines 1 (if d.squeezes then squeeze false lines else lines)
    let mark := if d.ends then Octets.toBytes "$" else []
    if ended then (shown.map (· ++ mark)).flatMap (· ++ [lineFeed])
    else (shown.dropLast.map (· ++ mark)).flatMap (· ++ [lineFeed]) ++ shown.getLast?.getD []

end Display

def cat : Program Unit := do
  let g ← OptionTable.read
    ⟨"nbsEATvetu", "", [("number", 'n'), ("number-nonblank", 'b'), ("squeeze-blank", 's'),
      ("show-ends", 'E'), ("show-all", 'A'), ("show-tabs", 'T'), ("show-nonprinting", 'v')]⟩
    1 (← read).args
  let d := Display.ofGiven g
  let names := if g.operands.isEmpty then ["-"] else g.operands
  if d.isPlain then
    names.forM (fun name => do
      match ← contentsOr 1 nameAndWords name with
      | some data => write 1 data
      | none => pure ())
  else write 1 (d.apply (← gather 1 nameAndWords g.operands))
  if names.contains "-" && (← read).input.isNone then
    fault 1 "closing standard input: Bad file descriptor"

/-- How much of something is meant: what is at its front, or at its end; all but so much of the
other end; or all from a number on. -/
inductive Amount where
  | some (n : Nat)
  | allBut (n : Nat)
  | start (n : Nat)

def sized? (s : Octets) : Option Nat :=
  let digits := s.toList.takeWhile Char.isDigit
  let unit : Option Nat := match s.toList.drop digits.length with
    | [] => .some 1
    | ['b'] => .some 512
    | ['k'] | ['K'] => .some 1024
    | ['k', 'B'] | ['K', 'B'] => .some 1000
    | ['m'] | ['M'] => .some 1048576
    | _ => none
  if digits.isEmpty then none
  else unit.map ((String.ofList digits).toNat?.getD 0 * ·)

def Amount.ofText? (s : Octets) : Option Amount :=
  match s.toList with
  | '-' :: cs => (sized? (String.ofList cs)).map .allBut
  | '+' :: cs => (sized? (String.ofList cs)).map .start
  | _ => (sized? s).map .some

/-- A first argument written as a dash and a number, put as the option for lines. -/
def expandCount : List Octets → List Octets
  | [] => []
  | arg :: rest =>
    match arg.toList with
    | '-' :: c :: cs =>
      if c.isDigit then ("-n" ++ String.ofList (c :: cs)) :: rest else arg :: rest
    | _ => arg :: rest

def cannotOpen (name words : Octets) : Octets :=
  "cannot open '" ++ name ++ "' for reading: " ++ words

structure Portion where
  bytes : Bool
  amount : Amount
  titles : Bool
  names : List Octets

def portion (fromEnd : Bool) : Program Portion := do
  let g ← OptionTable.read
    ⟨"qvfF", "nc", [("lines", 'n'), ("bytes", 'c'), ("quiet", 'q'), ("silent", 'q'),
      ("verbose", 'v')]⟩
    1 (expandCount (← read).args)
  let last := (g.options.filter (fun o => o.1 == 'n' || o.1 == 'c')).getLast?
  let names := if g.operands.isEmpty then ["-"] else g.operands
  let titles := g.has 'v' || (1 < names.length && !g.has 'q')
  match last with
  | none => return ⟨false, .some 10, titles, names⟩
  | some (c, s) =>
    let amount := match Amount.ofText? s with
      | some (.allBut n) => if fromEnd then some (.some n) else some (.allBut n)
      | some (.start n) => if fromEnd then some (.start n) else some (.some n)
      | other => other
    match amount with
    | some a => return ⟨c == 'c', a, titles, names⟩
    | none =>
      fail 1 ("invalid number of " ++ (if c == 'c' then "bytes" else "lines") ++ ": '" ++ s ++ "'")

def eachPortion (p : Portion) (show' : Octets → Program Unit) : Program Unit :=
  p.names.zipIdx.forM (fun e => do
    let name := e.1
    let title := if name == "-" then "standard input" else name
    let reachable ← if name == "-" then pure true
      else do
        match ← contents name with
        | .ok _ => pure true
        | .error words =>
          if words == "Is a directory" then
            if p.titles then print ((if e.2 = 0 then "" else "\n") ++ "==> " ++ title ++ " <==\n")
            fault 1 ("error reading '" ++ name ++ "': " ++ words)
          else fault 1 (cannotOpen name words)
          pure false
    if reachable then
      if p.titles then print ((if e.2 = 0 then "" else "\n") ++ "==> " ++ title ++ " <==\n")
      show' name)

def lengthOfLines : Nat → Bytes → Nat
  | 0, _ => 0
  | n + 1, data =>
    let line := data.takeWhile (· != lineFeed)
    if line.length < data.length then
      line.length + 1 + lengthOfLines n (data.drop (line.length + 1))
    else data.length

def blockSize : Nat := 8192

/-- The first lines or bytes. Of an input in which it cannot go back it has read more than it
shows. -/
def head : Program Unit := do
  let p ← portion false
  let rewinds := (← read).rewinds
  eachPortion p (fun name => do
    let before := (← get).unread
    match ← contents name with
    | .error words => fault 1 (cannotOpen name words)
    | .ok data =>
      let wanted := match p.amount, p.bytes with
        | .some n, true | .start n, true => min n data.length
        | .allBut n, true => data.length - n
        | .some n, false | .start n, false => lengthOfLines n data
        | .allBut n, false =>
          let (lines, _) := linesOf data
          lengthOfLines (lines.length - n) data
      write 1 (data.take wanted)
      if name == "-" then
        let used := match p.amount with
          | .allBut _ => data.length
          | _ =>
            if p.bytes || rewinds then wanted
            else if wanted = 0 then 0
            else (wanted + blockSize - 1) / blockSize * blockSize
        modify (fun s => { s with unread := before.drop used }))

def tail : Program Unit := do
  let p ← portion true
  eachPortion p (fun name => do
    match ← contents name with
    | .error words => fault 1 (cannotOpen name words)
    | .ok data =>
      let (lines, ended) := linesOf data
      let shown := match p.amount, p.bytes with
        | .some n, true | .allBut n, true => data.drop (data.length - n)
        | .start n, true => data.drop (n - 1)
        | .some n, false | .allBut n, false => unlines (lines.drop (lines.length - n)) ended
        | .start n, false => unlines (lines.drop (n - 1)) ended
      write 1 shown)

def tac : Program Unit := do
  let g ← OptionTable.read ⟨"", "", []⟩ 1 (← read).args
  (if g.operands.isEmpty then ["-"] else g.operands).forM (fun name => do
    match ← contents name with
    | .error words => fault 1 ("failed to open '" ++ name ++ "' for reading: " ++ words)
    | .ok data =>
      let (lines, ended) := linesOf data
      let parts := if ended then lines.map (· ++ [lineFeed])
        else lines.dropLast.map (· ++ [lineFeed]) ++ [lines.getLast?.getD []]
      write 1 parts.reverse.flatten)

def rev : Program Unit := do
  let g ← OptionTable.read ⟨"", "", []⟩ 1 (← read).args
  let data ← gather 1 (fun name words => "cannot open " ++ name ++ ": " ++ words) g.operands
  let (lines, ended) := linesOf data
  write 1 (unlines (lines.map List.reverse) ended)

def tee : Program Unit := do
  let g ← OptionTable.read ⟨"aip", "", [("append", 'a'), ("ignore-interrupts", 'i')]⟩ 1
    (← read).args
  let data ← takeInput
  write 1 data
  g.operands.forM (fun name => do
    match ← writeFile (g.has 'a') name data with
    | none => pure ()
    | some words => fault 1 (nameAndWords name words))

end BuildFront.Tool
