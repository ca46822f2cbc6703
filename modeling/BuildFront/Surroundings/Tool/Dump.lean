import BuildFront.Digest
import BuildFront.Surroundings.Tool.Files
import BuildFront.Surroundings.Tool.Table

/-!
Programs that show bytes in other forms, digest them, or compare them.
-/

namespace BuildFront.Tool

open Program

def sha256sum : Program Unit := do
  let g ← OptionTable.read ⟨"btz", "", [("binary", 'b'), ("text", 't')]⟩ 1 (← read).args
  (if g.operands.isEmpty then ["-"] else g.operands).forM (fun name => do
    match ← contentsOr 1 nameAndWords name with
    | some data =>
      print (Digest.sha256Hex data ++ (if g.has 'b' then " *" else "  ") ++ name ++ "\n")
    | none => pure ())

/-- How `od` shows an item: its size in bytes, its width, and its text. -/
structure DumpFormat where
  size : Nat
  width : Nat
  text : List UInt8 → Octets

def digitsIn (base width n : Nat) : Octets :=
  let digits := String.ofList (Nat.toDigits base n)
  "".pushn '0' (width - digits.length) ++ digits

def dumpChar (b : UInt8) : Octets :=
  match b.toNat with
  | 0 => "\\0"
  | 7 => "\\a"
  | 8 => "\\b"
  | 9 => "\\t"
  | 10 => "\\n"
  | 11 => "\\v"
  | 12 => "\\f"
  | 13 => "\\r"
  | n => if 32 ≤ n && n < 127 then (Char.ofNat n).toString else digitsIn 8 3 n

def littleEndian (bs : List UInt8) : Nat :=
  bs.reverse.foldl (fun n b => n * 256 + b.toNat) 0

def limitOf (size : Nat) : Nat :=
  (List.replicate size 256).foldl (· * ·) 1

def DumpFormat.ofText? (s : Octets) : Option DumpFormat :=
  let sized (cs : List Char) (otherwise : Nat) : Nat :=
    match cs with
    | ['C'] | ['1'] => 1
    | ['S'] | ['2'] => 2
    | ['I'] | ['4'] => 4
    | ['L'] | ['8'] => 8
    | _ => otherwise
  match s.toList with
  | 'c' :: _ => some ⟨1, 3, fun bs => dumpChar (bs.headD 0)⟩
  | 'x' :: cs =>
    let n := sized cs 4
    some ⟨n, 2 * n, fun bs => digitsIn 16 (2 * n) (littleEndian bs)⟩
  | 'o' :: cs =>
    let n := sized cs 4
    let w := (8 * n + 2) / 3
    some ⟨n, w, fun bs => digitsIn 8 w (littleEndian bs)⟩
  | 'u' :: cs =>
    let n := sized cs 4
    some ⟨n, (toString (limitOf n - 1)).length, fun bs => toString (littleEndian bs)⟩
  | 'd' :: cs =>
    let n := sized cs 4
    let top := limitOf n
    some ⟨n, (toString (top / 2)).length + 1, fun bs =>
      let v := littleEndian bs
      if v < top / 2 then toString v else toString ((v : Int) - (top : Int))⟩
  | _ => none

def chunked {α : Type} (size : Nat) : Nat → List α → List (List α)
  | 0, _ | _, [] => []
  | n + 1, items => items.take size :: chunked size n (items.drop size)

/-- Rows of sixteen bytes each, in a form that is asked for. -/
def od : Program Unit := do
  let g ← OptionTable.read
    ⟨"vbcdxos", "AtNjw", [("address-radix", 'A'), ("format", 't'), ("read-bytes", 'N'),
      ("skip-bytes", 'j')]⟩
    1 (← read).args
  let formats := g.options.filterMap (fun o => match o.1 with
    | 't' => DumpFormat.ofText? o.2
    | 'c' => DumpFormat.ofText? "c"
    | 'b' => DumpFormat.ofText? "o1"
    | 'x' => DumpFormat.ofText? "x2"
    | 'o' => DumpFormat.ofText? "o2"
    | 'd' => DumpFormat.ofText? "u2"
    | 's' => DumpFormat.ofText? "d2"
    | _ => none)
  let formats := if formats.isEmpty then (DumpFormat.ofText? "o2").toList else formats
  let number (c : Char) : Option Nat := (g.value? c).bind String.toNat?
  let all ← gather 1 nameAndWords g.operands
  let skipped := (number 'j').getD 0
  let rest := all.drop skipped
  let data := match number 'N' with
    | some n => rest.take n
    | none => rest
  let address (n : Nat) : Octets :=
    match g.value? 'A' with
    | some "n" => ""
    | some "d" => digitsIn 10 7 n
    | some "x" => digitsIn 16 6 n
    | _ => digitsIn 8 7 n
  let blank := "".pushn ' ' (address 0).length
  let rows := chunked 16 (data.length + 1) data
  let row (r : List UInt8) (i : Nat) : Octets :=
    String.join (formats.zipIdx.map (fun f =>
      let items := chunked f.1.size (r.length + 1) r
      let front := if f.2 = 0 then address (skipped + 16 * i) else blank
      front ++ String.join (items.map (fun item =>
        let text := f.1.text item
        " " ++ "".pushn ' ' (f.1.width - text.length) ++ text)) ++ "\n"))
  let shown := rows.zipIdx.map (fun e =>
    let same := 0 < e.2 && !g.has 'v' && rows[e.2 - 1]? == some e.1 && e.1.length == 16
    let sameBefore := 1 < e.2 && rows[e.2 - 2]? == some e.1
    if !same then row e.1 e.2 else if sameBefore then "" else "*\n")
  print (String.join shown)
  let last := address (skipped + data.length)
  if !last.isEmpty then print (last ++ "\n")

def base64Digits : List Char :=
  "ABCDEFGHIJKLMNOPQRSTUVWXYZabcdefghijklmnopqrstuvwxyz0123456789+/".toList

def base64Group (bs : List UInt8) : List Char :=
  let n := (bs ++ List.replicate (3 - bs.length) 0).foldl
    (fun (n : Nat) (b : UInt8) => n * 256 + b.toNat) 0
  let digit (k : Nat) : Char := (base64Digits[n / k % 64]?).getD 'A'
  let digits := [digit 262144, digit 4096, digit 64, digit 1]
  digits.take (bs.length + 1) ++ List.replicate (3 - bs.length) '='

def bytesOfDigits (cs : List Char) : Option (List UInt8) := do
  let values ← (cs.filter (· != '=')).mapM (fun c => base64Digits.idxOf? c)
  let n := (values ++ List.replicate (4 - values.length) 0).foldl (fun n v => n * 64 + v) 0
  return ([n / 65536, n / 256, n].map (fun v => UInt8.ofNat (v % 256))).take (values.length - 1)

def base64 : Program Unit := do
  let g ← OptionTable.read ⟨"di", "w", [("decode", 'd'), ("wrap", 'w'), ("ignore-garbage", 'i')]⟩ 1
    (← read).args
  let data ← gather 1 nameAndWords (g.operands.take 1)
  if g.has 'd' then
    let cs := (Octets.ofBytes data).toList.filter (fun c => c != '\n' && (!g.has 'i' ||
      base64Digits.contains c || c == '='))
    match (chunked 4 (cs.length + 1) cs).mapM bytesOfDigits with
    | some parts => write 1 parts.flatten
    | none => fail 1 "invalid input"
  else
    let cs := (chunked 3 (data.length + 1) data).flatMap base64Group
    let width := ((g.value? 'w').bind String.toNat?).getD 76
    if width = 0 then print (String.ofList cs)
    else
      let lines := chunked width (cs.length + 1) cs
      print (String.join (lines.map (fun l => String.ofList l ++ "\n")))

/-- Where two files begin to differ. -/
def cmp : Program Unit := do
  let g ← OptionTable.read ⟨"sbl", "n", [("silent", 's'), ("quiet", 's'), ("verbose", 'l')]⟩ 2
    (← read).args
  match g.operands with
  | [] => misuse 2 "missing operand after 'cmp'"
  | first :: rest =>
    let second := rest.headD "-"
    let fetch (name : Octets) : Program Bytes := do
      match ← contents name with
      | .ok data => return data
      | .error words => if g.has 's' then exit 2 else fail 2 (nameAndWords name words)
    let a ← fetch first
    let b ← fetch second
    let same := (a.zip b).takeWhile (fun p => p.1 == p.2)
    let n := same.length
    let line := (same.countP (fun p => p.1 == lineFeed)) + 1
    if n == a.length && n == b.length then exit 0
    else
      if !g.has 's' then
        if n < a.length && n < b.length then
          print (first ++ " " ++ second ++ " differ: char " ++ toString (n + 1) ++ ", line " ++
            toString line ++ "\n")
        else
          let short := if a.length < b.length then first else second
          let front := "EOF on " ++ short
          if n = 0 then warn (front ++ " which is empty")
          else
            let ended := same.getLast?.any (fun p => p.1 == lineFeed)
            warn (front ++ " after byte " ++ toString n ++ ", " ++
              (if ended then "line " ++ toString (line - 1) else "in line " ++ toString line))
      exit 1

def diff : Program Unit := do
  let g ← OptionTable.read ⟨"qsuNraBbwi", "U", [("brief", 'q'), ("unified", 'u')]⟩ 2 (← read).args
  match g.operands with
  | [first, second] =>
    let fetch (name : Octets) : Program Bytes := do
      match ← contents name with
      | .ok data => return data
      | .error words => fail 2 (nameAndWords name words)
    let a ← fetch first
    let b ← fetch second
    if a == b then exit 0
    else
      if g.has 'q' then print ("Files " ++ first ++ " and " ++ second ++ " differ\n")
      exit 1
  | operands => misuse 2 ("missing operand after '" ++ operands.headD "diff" ++ "'")

def dd : Program Unit := do
  let settings := (← read).args.map (fun a =>
    let name := String.ofList (a.toList.takeWhile (· != '='))
    (name, String.ofList (a.toList.drop (name.length + 1))))
  let number (name : String) : Option Nat := (settings.lookup name).bind sized?
  let block := ((number "bs").or (number "ibs")).getD 512
  let skipped := block * (number "skip").getD 0
  let data ← match settings.lookup "if" with
    | some name => do
      match ← contents name with
      | .ok data => pure data
      | .error words => fail 1 ("failed to open '" ++ name ++ "': " ++ words)
    | none => pure (← get).unread
  let rest := data.drop skipped
  let taken := match number "count" with
    | some n => rest.take (block * n)
    | none => rest
  if (settings.lookup "if").isNone then
    modify (fun s => { s with unread := s.unread.drop (skipped + taken.length) })
  match settings.lookup "of" with
  | some name =>
    match ← writeFile false name taken with
    | none => pure ()
    | some words => fail 1 ("failed to open '" ++ name ++ "': " ++ words)
  | none => write 1 taken
  if settings.lookup "status" != some "none" then
    let blocks := toString (taken.length / block) ++ "+" ++
      (if taken.length % block = 0 then "0" else "1")
    write 2 (Octets.toBytes (blocks ++ " records in\n" ++ blocks ++ " records out\n"))

end BuildFront.Tool
