import BuildFront.Text.Hex

/-!
JSON values without numbers, and their two written forms: the compact one, and the indented one with
two spaces a level. Members of an object are written in the order in which they are listed.
-/

namespace BuildFront

inductive Json where
  | null
  | bool (b : Bool)
  | str (s : String)
  | arr (items : List Json)
  | obj (members : List (String × Json))
  deriving Inhabited

namespace Json

def text? : Json → Option String
  | .str s => some s
  | _ => none

/-- A character inside a string literal. Control characters take the short escape if they have one,
and four digits otherwise; all others but the quote and the backslash stand for themselves. -/
def escape (c : Char) : List Char :=
  if c = '"' then ['\\', '"']
  else if c = '\\' then ['\\', '\\']
  else if c.toNat = 0x08 then ['\\', 'b']
  else if c.toNat = 0x09 then ['\\', 't']
  else if c.toNat = 0x0A then ['\\', 'n']
  else if c.toNat = 0x0C then ['\\', 'f']
  else if c.toNat = 0x0D then ['\\', 'r']
  else if c.toNat < 0x20 then
    ['\\', 'u', '0', '0', Hex.digit (c.toNat / 16), Hex.digit (c.toNat % 16)]
  else [c]

def quote (s : String) : List Char :=
  '"' :: s.toList.flatMap escape ++ ['"']

mutual

def compact : Json → List Char
  | .null => "null".toList
  | .bool true => "true".toList
  | .bool false => "false".toList
  | .str s => quote s
  | .arr [] => ['[', ']']
  | .arr (item :: rest) => '[' :: compact item ++ compactItems rest
  | .obj [] => ['{', '}']
  | .obj (m :: rest) => '{' :: quote m.1 ++ ':' :: compact m.2 ++ compactMembers rest

def compactItems : List Json → List Char
  | [] => [']']
  | item :: rest => ',' :: compact item ++ compactItems rest

def compactMembers : List (String × Json) → List Char
  | [] => ['}']
  | m :: rest => ',' :: quote m.1 ++ ':' :: compact m.2 ++ compactMembers rest

end

/-- A line break and the indentation of a level. -/
def newline (level : Nat) : List Char :=
  '\n' :: List.replicate (2 * level) ' '

mutual

/-- The written form with every item and member on a line of its own, at depth `level`. -/
def indented (level : Nat) : Json → List Char
  | .null => "null".toList
  | .bool true => "true".toList
  | .bool false => "false".toList
  | .str s => quote s
  | .arr [] => ['[', ']']
  | .arr (item :: rest) =>
    '[' :: newline (level + 1) ++ indented (level + 1) item ++ indentedItems level rest
  | .obj [] => ['{', '}']
  | .obj (m :: rest) =>
    '{' :: newline (level + 1) ++ quote m.1 ++ ':' :: ' ' :: indented (level + 1) m.2 ++
      indentedMembers level rest

def indentedItems (level : Nat) : List Json → List Char
  | [] => newline level ++ [']']
  | item :: rest =>
    ',' :: newline (level + 1) ++ indented (level + 1) item ++ indentedItems level rest

def indentedMembers (level : Nat) : List (String × Json) → List Char
  | [] => newline level ++ ['}']
  | m :: rest =>
    ',' :: newline (level + 1) ++ quote m.1 ++ ':' :: ' ' :: indented (level + 1) m.2 ++
      indentedMembers level rest

end

def pretty (j : Json) : List Char :=
  indented 0 j

end Json
end BuildFront
