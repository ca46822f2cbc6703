import BuildFront.Surroundings.Tool.Program

/-!
Programs that print their arguments, and the backslash escapes they understand.
-/

namespace BuildFront.Tool

open Program

def escaped? : Char → Option Char
  | 'n' => some '\n'
  | 't' => some '\t'
  | 'r' => some '\r'
  | 'a' => some '\x07'
  | 'b' => some '\x08'
  | 'e' => some '\x1b'
  | 'f' => some '\x0c'
  | 'v' => some '\x0b'
  | '\\' => some '\\'
  | _ => none

def isOctal (c : Char) : Bool :=
  '0' ≤ c && c ≤ '7'

def isHexDigit (c : Char) : Bool :=
  c.isDigit || ('a' ≤ c && c ≤ 'f') || ('A' ≤ c && c ≤ 'F')

def digitValue (c : Char) : Nat :=
  if c.isDigit then c.toNat - '0'.toNat
  else if 'a' ≤ c ∧ c ≤ 'z' then c.toNat - 'a'.toNat + 10
  else if 'A' ≤ c ∧ c ≤ 'Z' then c.toNat - 'A'.toNat + 10
  else 255

def valueOf (base : Nat) (cs : List Char) : Nat :=
  cs.foldl (fun n c => n * base + digitValue c) 0

def digitsAtFront (base most : Nat) (cs : List Char) : List Char :=
  (cs.take most).takeWhile (digitValue · < base)

structure EscapeStyle where
  /-- Whether octal digits may follow a zero that is none of them. -/
  zeroFirst : Bool
  hexadecimal : Bool
  stops : Bool

/-- The escape behind a backslash: its character, if it does not end the output, and the number of
characters it takes; nothing if there is no such escape. -/
def escapeAtFront? (style : EscapeStyle) (cs : List Char) : Option (Option Char × Nat) :=
  match cs with
  | [] => none
  | c :: rest =>
    if c == 'c' && style.stops then some (none, 1)
    else if c == '0' && style.zeroFirst then
      let digits := digitsAtFront 8 3 rest
      some (some (Char.ofNat (valueOf 8 digits % 256)), digits.length + 1)
    else if isOctal c then
      let digits := digitsAtFront 8 3 (c :: rest)
      some (some (Char.ofNat (valueOf 8 digits % 256)), digits.length)
    else if c == 'x' && style.hexadecimal && rest.head?.any isHexDigit then
      let digits := digitsAtFront 16 2 rest
      some (some (Char.ofNat (valueOf 16 digits)), digits.length + 1)
    else (escaped? c).map (fun e => (some e, 1))

/-- A text with its escapes replaced, and whether one of them ends all output. An unknown escape
stays as it is. `n` bounds the number of characters. -/
def unescape (style : EscapeStyle) : Nat → List Char → List Char × Bool
  | 0, _ | _, [] => ([], false)
  | n + 1, '\\' :: rest =>
    match escapeAtFront? style rest with
    | none =>
      let (cs, stopped) := unescape style n rest
      ('\\' :: cs, stopped)
    | some (none, _) => ([], true)
    | some (some c, taken) =>
      let (cs, stopped) := unescape style n (rest.drop taken)
      (c :: cs, stopped)
  | n + 1, c :: rest =>
    let (cs, stopped) := unescape style n rest
    (c :: cs, stopped)

def unescaped (style : EscapeStyle) (s : Octets) : Octets × Bool :=
  let (cs, stopped) := unescape style (s.length + 1) s.toList
  (String.ofList cs, stopped)

def argumentStyle : EscapeStyle :=
  ⟨true, false, true⟩

def printWords (style : Option EscapeStyle) (words : List Octets) (ending : Octets) :
    Program Unit := do
  let text := " ".intercalate words
  match style with
  | none => print (text ++ ending)
  | some style =>
    let (text, stopped) := unescaped style text
    print (text ++ (if stopped then "" else ending))

def shellEcho : Program Unit := do
  match (← read).args with
  | "-n" :: rest => printWords (some argumentStyle) rest ""
  | args => printWords (some argumentStyle) args "\n"

def echoOptions : List Octets → List Char × List Octets
  | [] => ([], [])
  | arg :: rest =>
    match arg.toList with
    | '-' :: c :: cs =>
      if (c :: cs).all (fun c => c == 'n' || c == 'e' || c == 'E') then
        let (letters, args) := echoOptions rest
        (c :: cs ++ letters, args)
      else ([], arg :: rest)
    | _ => ([], arg :: rest)

def echo : Program Unit := do
  let (letters, args) := echoOptions (← read).args
  let escapes := (letters.filter (· != 'n')).getLast? == some 'e'
  printWords (if escapes then some ⟨true, true, true⟩ else none) args
    (if letters.contains 'n' then "" else "\n")

structure Layout where
  flags : List Char
  width : Nat
  precision : Option Nat

namespace Layout

def left (l : Layout) : Bool :=
  l.flags.contains '-'

def pad (l : Layout) (text : Octets) : Octets :=
  let blanks := String.ofList (List.replicate (l.width - text.length) ' ')
  if l.left then text ++ blanks else blanks ++ text

def number (l : Layout) (mark digits : Octets) : Octets :=
  let zeros (n : Nat) : Octets := String.ofList (List.replicate n '0')
  match l.precision with
  | some p =>
    let digits' := if p == 0 && digits == "0" then "" else digits
    l.pad (mark ++ zeros (p - digits.length) ++ digits')
  | none =>
    if l.flags.contains '0' && !l.left then
      mark ++ zeros (l.width - mark.length - digits.length) ++ digits
    else l.pad (mark ++ digits)

def text (l : Layout) (s : Octets) : Octets :=
  l.pad (match l.precision with
    | some p => String.ofList (s.toList.take p)
    | none => s)

end Layout

inductive NumberFault where
  | none
  | noNumber
  | more
  | tooLarge
  deriving DecidableEq

/-- The number at the front of a text: hexadecimal after `0x`, octal after `0`. A quotation mark
makes it the number of the character behind it. Numbers go up to `most`. -/
def integerOf (low most : Int) (s : Octets) : Int × NumberFault :=
  match s.toList with
  | '"' :: rest | '\'' :: rest => (((rest.head?.map Char.toNat).getD 0 : Nat), .none)
  | [] => (0, .none)
  | cs =>
    let cs := cs.dropWhile (fun c => c == ' ' || ('\t' ≤ c && c ≤ '\r'))
    let (negative, cs) := match cs with
      | '-' :: rest => (true, rest)
      | '+' :: rest => (false, rest)
      | cs => (false, cs)
    let (base, body) := match cs with
      | '0' :: 'x' :: d :: rest | '0' :: 'X' :: d :: rest =>
        if isHexDigit d then (16, d :: rest) else (8, cs)
      | '0' :: _ => (8, cs)
      | cs => (10, cs)
    let digits := body.takeWhile (digitValue · < base)
    if digits.isEmpty then (0, .noNumber)
    else
      let n : Int := if negative then -(valueOf base digits : Int) else (valueOf base digits : Int)
      if n < low then (low, .tooLarge)
      else if most < n then (most, .tooLarge)
      else (n, if digits.length == body.length then .none else .more)

def maxSigned : Int := 9223372036854775807

def maxUnsigned : Int := 18446744073709551615

/-- A number without sign, negative ones counted from above. -/
def wrapped (n : Int) : Nat :=
  (n % 18446744073709551616).toNat

/-- Which of two kindred programs is at work: that of the shell, or the one by itself. -/
inductive Dialect where
  | shell
  | alone
  deriving DecidableEq

def complainNumber (dialect : Dialect) (s : Octets) (f : NumberFault) : Program Unit :=
  match dialect, f with
  | _, .none => pure ()
  | .shell, .noNumber => fault 1 (s ++ ": expected numeric value")
  | .shell, .more => fault 1 (s ++ ": not completely converted")
  | .shell, .tooLarge => fault 1 (s ++ ": Numerical result out of range")
  | .alone, .noNumber => fault 1 ("'" ++ s ++ "': expected a numeric value")
  | .alone, .more => fault 1 ("'" ++ s ++ "': value not completely converted")
  | .alone, .tooLarge => fault 1 ("'" ++ s ++ "': Numerical result out of range")

structure Filling where
  format : List Char
  args : List Octets

def formatInteger (c : Char) (l : Layout) (n : Int) : Octets :=
  let digits (base : Nat) (n : Nat) : Octets := String.ofList (Nat.toDigits base n)
  match c with
  | 'o' =>
    let text := digits 8 (wrapped n)
    l.number "" (if l.flags.contains '#' && text != "0" then "0" ++ text else text)
  | 'u' => l.number "" (digits 10 (wrapped n))
  | 'x' => l.number (if l.flags.contains '#' && n != 0 then "0x" else "") (digits 16 (wrapped n))
  | 'X' =>
    l.number (if l.flags.contains '#' && n != 0 then "0X" else "") (digits 16 (wrapped n)).toUpper
  | _ =>
    let sign := if n < 0 then "-" else if l.flags.contains '+' then "+"
      else if l.flags.contains ' ' then " " else ""
    l.number sign (digits 10 n.natAbs)

/-- Work off what is at the front of a format. Tells whether all output ends with it. -/
def fillStep (dialect : Dialect) (f : Filling) : Program (Filling × Bool) := do
  let takeInteger (signed : Bool) (args : List Octets) : Program (Int × List Octets) := do
    match args with
    | [] => return (0, [])
    | s :: rest =>
      let (n, wrong) := integerOf (if signed then -maxSigned - 1 else -maxUnsigned)
        (if signed then maxSigned else maxUnsigned) s
      complainNumber dialect s wrong
      return (n, rest)
  match f.format with
  | [] => return (f, false)
  | '\\' :: rest =>
    match escapeAtFront? ⟨false, dialect == .alone, dialect == .alone⟩ rest with
    | none =>
      print "\\"
      return ({ f with format := rest }, false)
    | some (none, _) => return (f, true)
    | some (some c, taken) =>
      print c.toString
      return ({ f with format := rest.drop taken }, false)
  | '%' :: '%' :: rest =>
    print "%"
    return ({ f with format := rest }, false)
  | '%' :: rest =>
    let isFlag (c : Char) : Bool := c == '#' || c == '-' || c == '+' || c == ' ' || c == '0'
    let flags := rest.takeWhile isFlag
    let rest := rest.dropWhile isFlag
    let (flags, width, rest, args) ← match rest with
      | '*' :: rest => do
        let (n, args) ← takeInteger true f.args
        pure (if n < 0 then '-' :: flags else flags, n.natAbs, rest, args)
      | rest =>
        let digits := rest.takeWhile Char.isDigit
        pure (flags, valueOf 10 digits, rest.drop digits.length, f.args)
    let (precision, rest, args) ← match rest with
      | '.' :: '*' :: rest => do
        let (n, args) ← takeInteger true args
        pure (if n < 0 then none else some n.natAbs, rest, args)
      | '.' :: rest =>
        let digits := rest.takeWhile Char.isDigit
        pure (some (valueOf 10 digits), rest.drop digits.length, args)
      | rest => pure (none, rest, args)
    let layout : Layout := ⟨flags, width, precision⟩
    let start := f.format.take (f.format.length - rest.length)
    match rest with
    | [] => fail 2 "missing format character"
    | c :: rest =>
      match c with
      | 's' =>
        print (layout.text (args.headD ""))
        return (⟨rest, args.drop 1⟩, false)
      | 'b' =>
        let (text, stopped) := unescaped argumentStyle (args.headD "")
        print (layout.text text)
        return (⟨rest, args.drop 1⟩, stopped)
      | 'c' =>
        let first := (args.headD "").toList.head?.getD '\x00'
        print (layout.pad first.toString)
        return (⟨rest, args.drop 1⟩, false)
      | 'd' | 'i' | 'o' | 'u' | 'x' | 'X' =>
        let (n, args) ← takeInteger (c == 'd' || c == 'i') args
        print (formatInteger c layout n)
        return (⟨rest, args⟩, false)
      | c =>
        let directive := String.ofList (start ++ [c])
        fail (if dialect == .shell then 2 else 1) (directive ++ ": invalid directive")
  | c :: rest =>
    print c.toString
    return ({ f with format := rest }, false)

def fillOnce (dialect : Dialect) : Nat → Filling → Program (List Octets × Bool)
  | 0, f => return (f.args, true)
  | n + 1, f => do
    if f.format.isEmpty then return (f.args, false)
    else
      let (f, stopped) ← fillStep dialect f
      if stopped then return ([], true) else fillOnce dialect n f

def fillAll (dialect : Dialect) (format : List Char) : Nat → List Octets → Program Unit
  | 0, _ => return
  | n + 1, args => do
    let (left, stopped) ← fillOnce dialect (format.length + 1) ⟨format, args⟩
    if stopped || left.isEmpty || left.length == args.length then return
    else fillAll dialect format n left

def printf (dialect : Dialect) : Program Unit := do
  let args := (← read).args
  let usage : Program Unit := match dialect with
    | .shell => fail 2 "usage: printf format [arg ...]"
    | .alone => do
      warn "missing operand"
      write 2 (Octets.toBytes ("Try '" ++ (← read).name ++ " --help' for more information.\n"))
      exit 1
  match args with
  | [] => usage
  | arg :: rest =>
    match arg.toList with
    | ['-', '-'] =>
      match rest with
      | [] => usage
      | format :: args => fillAll dialect format.toList (args.length + 1) args
    | '-' :: c :: _ =>
      if dialect == .shell then fail 2 ("Illegal option -" ++ c.toString)
      else fillAll dialect arg.toList (rest.length + 1) rest
    | format => fillAll dialect format (rest.length + 1) rest

end BuildFront.Tool
