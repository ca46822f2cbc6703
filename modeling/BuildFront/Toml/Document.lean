import BuildFront.Toml.DateTime
import BuildFront.Toml.Number
import BuildFront.Toml.Section

/-!
Whole documents: keys, values, headers, and the entries between them.
-/

namespace BuildFront.Toml.Document

open Reader Layout

/-- Values may be nested up to this depth, and keys may have fewer parts than one more. -/
def nestingLimit : Nat := 79

def inBareKey (c : Char) : Bool :=
  c.isAlphanum || c == '-' || c == '_'

def simpleKey : Reader String :=
  Text.oneLine <|> (do
    let first ← satisfy inBareKey
    return String.ofList (first :: (← run inBareKey)))

def key : Reader (List String) := do
  let parts ← sepBy1 (do spaces; let k ← simpleKey; spaces; return k) (char '.')
  if parts.length ≤ nestingLimit then return parts else fail

def splitLast : List String → Option (List String × String)
  | [] => none
  | [k] => some ([], k)
  | k :: rest => (splitLast rest).map (fun r => (k :: r.1, r.2))

def ofOption {α : Type} : Option α → Reader α
  | some a => pure a
  | none => fail

/-- A key and its value, blanks around both. -/
def entry (value : Reader Value) : Reader (List String × String × Value) := do
  let (path, last) ← ofOption (splitLast (← key))
  char '='
  spaces
  let v ← value
  spaces
  return (path, last, v)

def addEntry (ms : Members) (e : List String × String × Value) : Option Members :=
  (Members.addValue e.1 e.2.1 e.2.2 .header ms).map (·.2)

/-- Items with commas between them, a trailing one allowed, on as many lines as one likes. -/
def array (value : Reader Value) : Reader Value := do
  char '['
  gap
  let items ← sepBy (do gap; let v ← value; gap; return v) (char ',')
  unless items.isEmpty do discard <| optional (char ',')
  gap
  char ']'
  return .array items

/-- Entries with commas between them, on one line and without a trailing comma. -/
def inlineTable (value : Reader Value) : Reader Value := do
  char '{'
  let entries ← sepBy (entry value) (char ',')
  spaces
  char '}'
  let ms ← ofOption (entries.foldlM addEntry [])
  return .table (Node.membersToValues ms)

def boolean : Reader Bool :=
  (do word ['t', 'r', 'u', 'e']; return true) <|> (do word ['f', 'a', 'l', 's', 'e']; return false)

def scalar : Reader Value :=
  (Value.text <$> Text.anyString) <|> (Value.boolean <$> boolean) <|>
    (Value.dateTime <$> DateTime.dateTime) <|> (Value.float <$> Number.float) <|>
    (Value.integer <$> Number.integer)

/-- A value with at most `depth` levels of arrays and tables. -/
def value : Nat → Reader Value
  | 0 => scalar
  | depth + 1 => scalar <|> array (value depth) <|> inlineTable (value depth)

inductive Line where
  | blank
  | tableHeader (path : List String) (last : String)
  | elementHeader (path : List String) (last : String)
  | entry (path : List String) (last : String) (v : Value)

def elementHeader : Reader Line := do
  word ['[', '[']
  let (path, last) ← ofOption (splitLast (← key))
  word [']', ']']
  return .elementHeader path last

def tableHeader : Reader Line := do
  char '['
  let (path, last) ← ofOption (splitLast (← key))
  char ']'
  return .tableHeader path last

/-- One line with its end; entries may run over several. -/
def line : Reader Line := do
  spaces
  match ← peek with
  | none => fail
  | some '\n' | some '\r' => newline; return .blank
  | some '#' => comment; lineEnd; return .blank
  | some '[' =>
    let l ← elementHeader <|> tableHeader
    restOfLine
    return l
  | some _ =>
    let (path, last, v) ← entry (value nestingLimit)
    restOfLine
    return .entry path last v

structure State where
  root : Members
  current : List String

def State.within (s : State) (path : List String)
    (f : Origin → Members → Option (Origin × Members)) : Option Members :=
  (Members.change false f path .header s.root).map (·.2)

def State.add (s : State) : Line → Option State
  | .blank => some s
  | .tableHeader path last => do
    return ⟨← s.within path (Members.openTable last), path ++ [last]⟩
  | .elementHeader path last => do
    return ⟨← s.within path (Members.openElement last), path ++ [last]⟩
  | .entry path last v => do
    return { s with root := ← s.within s.current (Members.addValue path last v) }

def lines : Reader (List Line) := do
  discard <| optional (char '\uFEFF')
  let ls ← many line
  spaces
  atEnd
  return ls

/-- The members of a document's root table, if it is a document. -/
def parse (s : String) : Option (List (String × Value)) := do
  let (ls, _) ← lines s.toList
  let state ← ls.foldlM State.add ⟨[], []⟩
  return Node.membersToValues state.root

end BuildFront.Toml.Document
