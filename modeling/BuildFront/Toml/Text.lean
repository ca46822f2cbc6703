import BuildFront.Toml.Layout

/-!
The four kinds of strings. Basic ones have escapes, literal ones stand as written; each may span
lines when its quotes are tripled, and then a line end right after the opening is dropped.
-/

namespace BuildFront.Toml.Text

open Reader Layout

/-- Allowed in any string: no control character but the tab. -/
def isPlain (c : Char) : Bool :=
  c == '\t' || (' ' ≤ c && c ≤ '~') || 0x80 ≤ c.toNat

def inBasic (c : Char) : Bool :=
  isPlain c && c != '"' && c != '\\'

def inLiteral (c : Char) : Bool :=
  isPlain c && c != '\''

def hexValue (c : Char) : Nat :=
  if c.isDigit then c.toNat - '0'.toNat
  else if 'a' ≤ c then c.toNat - 'a'.toNat + 10
  else c.toNat - 'A'.toNat + 10

def isHex (c : Char) : Bool :=
  c.isDigit || ('a' ≤ c && c ≤ 'f') || ('A' ≤ c && c ≤ 'F')

def ofDigits (base : Nat) (ds : List Char) : Nat :=
  ds.foldl (fun n d => n * base + hexValue d) 0

/-- A character by its number in `n` hexadecimal digits; surrogates are no characters. -/
def numbered (n : Nat) : Reader Char := do
  let code := ofDigits 16 (← exactly isHex n)
  if code.isValidChar then return Char.ofNat code else fail

def escape : Reader Char := do
  char '\\'
  match ← satisfy (fun _ => true) with
  | 'b' => return Char.ofNat 0x08
  | 't' => return '\t'
  | 'n' => return '\n'
  | 'f' => return Char.ofNat 0x0C
  | 'r' => return '\r'
  | '"' => return '"'
  | '\\' => return '\\'
  | 'u' => numbered 4
  | 'U' => numbered 8
  | _ => fail

def basic : Reader String := do
  char '"'
  let cs ← many (satisfy inBasic <|> escape)
  char '"'
  return String.ofList cs

def literal : Reader String := do
  char '\''
  let cs ← run inLiteral
  char '\''
  return String.ofList cs

/-- A backslash at the end of a line: it and all blank space after it stand for nothing. -/
def lineJoin : Reader (List Char) := do
  char '\\'
  spaces
  newline
  discard <| many ((discard <| satisfy isSpace) <|> newline)
  return []

/-- A piece of a string over several lines. Line ends are read as line feeds. -/
def lineBreak : Reader (List Char) := do
  newline
  return ['\n']

/-- The pieces up to three quotes, one or two quotes among them standing for themselves, and up to
two of five quotes at the end belonging to the text. -/
def untilTriple (quote : Char) (piece : Reader (List Char)) : Reader String := do
  let quotesAnd (n : Nat) : Reader (List Char) := do
    word (List.replicate n quote)
    let p ← piece
    return List.replicate n quote ++ p
  let body ← many (piece <|> quotesAnd 2 <|> quotesAnd 1)
  let closing (extra : Nat) : Reader (List Char) := do
    word (List.replicate (extra + 3) quote)
    return List.replicate extra quote
  let tail ← closing 2 <|> closing 1 <|> closing 0
  return String.ofList (body.flatten ++ tail)

def multiBasic : Reader String := do
  word ['"', '"', '"']
  discard <| optional newline
  untilTriple '"'
    ((do return [← satisfy inBasic]) <|> lineJoin <|> (do return [← escape]) <|> lineBreak)

def multiLiteral : Reader String := do
  word ['\'', '\'', '\'']
  discard <| optional newline
  untilTriple '\'' ((do return [← satisfy inLiteral]) <|> lineBreak)

/-- A string on one line, as it may also name a key. -/
def oneLine : Reader String :=
  basic <|> literal

def anyString : Reader String :=
  multiBasic <|> basic <|> multiLiteral <|> literal

end BuildFront.Toml.Text
