import BuildFront.Proofs.Json.Squeeze

/-!
The grammar of JSON texts, as far as values without numbers go: how the characters of a string
literal may be spelt, how a text divides into tokens with white space between them, and which tokens
make up a value. The indented form of a value is one of the texts that spell it.
-/

namespace BuildFront

/-- The number that four hexadecimal digits of either case stand for. -/
def Hex.quad? (a b c d : Char) : Option Nat := do
  return (((← value? a.toLower) * 16 + (← value? b.toLower)) * 16 + (← value? c.toLower)) * 16 +
    (← value? d.toLower)

theorem Hex.quad?_digits {n : Nat} (h : n < 0x20) :
    quad? '0' '0' (digit (n / 16)) (digit (n % 16)) = some n := by
  revert n
  decide

namespace Json

/-- The character that a spelling inside a string literal stands for: itself, a short escape, four
digits, or a pair of surrogates. -/
def spelled? : List Char → Option Char
  | [c] => if 0x20 ≤ c.toNat ∧ c ≠ '"' ∧ c ≠ '\\' then some c else none
  | ['\\', e] => if e = '/' then some e else meant? e
  | ['\\', 'u', a, b, c, d] =>
    (Hex.quad? a b c d).bind fun n => if n.isValidChar then some (Char.ofNat n) else none
  | ['\\', 'u', a, b, c, d, '\\', 'u', e, f, g, h] =>
    (Hex.quad? a b c d).bind fun m => (Hex.quad? e f g h).bind fun n =>
      if 0xD800 ≤ m ∧ m < 0xDC00 ∧ 0xDC00 ≤ n ∧ n < 0xE000 then
        some (Char.ofNat (0x10000 + (m - 0xD800) * 0x400 + (n - 0xDC00)))
      else none
  | _ => none

/-- What may stand between the quotes of a string literal for a text. -/
inductive Inside : List Char → List Char → Prop where
  | nil : Inside [] []
  | cons {p : List Char} {c : Char} {body cs : List Char} (first : spelled? p = some c)
      (rest : Inside body cs) : Inside (p ++ body) (c :: cs)

inductive Token where
  | null
  | bool (b : Bool)
  | str (s : String)
  | comma
  | colon
  | openArr
  | closeArr
  | openObj
  | closeObj
  deriving DecidableEq

mutual

def tokens : Json → List Token
  | .null => [.null]
  | .bool b => [.bool b]
  | .str s => [.str s]
  | .arr [] => [.openArr, .closeArr]
  | .arr (item :: rest) => .openArr :: tokens item ++ tokensOfItems rest
  | .obj [] => [.openObj, .closeObj]
  | .obj (m :: rest) => .openObj :: .str m.1 :: .colon :: tokens m.2 ++ tokensOfMembers rest

def tokensOfItems : List Json → List Token
  | [] => [.closeArr]
  | item :: rest => .comma :: tokens item ++ tokensOfItems rest

def tokensOfMembers : List (String × Json) → List Token
  | [] => [.closeObj]
  | m :: rest => .comma :: .str m.1 :: .colon :: tokens m.2 ++ tokensOfMembers rest

end

/-- The tokens that are written in one way only. -/
def symbols : List (List Char × Token) :=
  [("null".toList, .null), ("true".toList, .bool true), ("false".toList, .bool false),
   ([','], .comma), ([':'], .colon), (['['], .openArr), ([']'], .closeArr), (['{'], .openObj),
   (['}'], .closeObj)]

/-- White space between tokens. -/
def isSpace (c : Char) : Bool :=
  c == ' ' || c == '\t' || c == '\n' || c == '\r'

inductive Lexed : List Char → List Token → Prop where
  | nil : Lexed [] []
  | space {c : Char} {t : List Char} {ts : List Token} (h : isSpace c = true)
      (rest : Lexed t ts) : Lexed (c :: t) ts
  | symbol {p : List Char} {a : Token} {t : List Char} {ts : List Token} (h : (p, a) ∈ symbols)
      (rest : Lexed t ts) : Lexed (p ++ t) (a :: ts)
  | str {body cs t : List Char} {ts : List Token} (h : Inside body cs)
      (rest : Lexed t ts) : Lexed ('"' :: body ++ '"' :: t) (.str (String.ofList cs) :: ts)

/-- A text is one of the spellings of a value. -/
def Spelt (t : List Char) (j : Json) : Prop :=
  Lexed t j.tokens

/-- No object has two members of one name. -/
inductive Distinct : Json → Prop where
  | null : Distinct .null
  | bool (b : Bool) : Distinct (.bool b)
  | str (s : String) : Distinct (.str s)
  | arr {items : List Json} (all : ∀ item ∈ items, Distinct item) : Distinct (.arr items)
  | obj {members : List (String × Json)} (names : (members.map (·.1)).Nodup)
      (all : ∀ m ∈ members, Distinct m.2) : Distinct (.obj members)

mutual

/-- How deep arrays and objects stand in each other. -/
def depth : Json → Nat
  | .null | .bool _ | .str _ => 0
  | .arr items => depthOfItems items + 1
  | .obj members => depthOfMembers members + 1

def depthOfItems : List Json → Nat
  | [] => 0
  | item :: rest => max (depth item) (depthOfItems rest)

def depthOfMembers : List (String × Json) → Nat
  | [] => 0
  | m :: rest => max (depth m.2) (depthOfMembers rest)

end

/-- A reader of bytes that gives the value of every text that is nested no deeper than to a limit,
however it is spelt. Of texts in which an object repeats a name nothing is asked, nor of those that
spell no value. -/
def Standard (limit : Nat) (read : Bytes → Option Json) : Prop :=
  ∀ t j, Spelt t j → j.Distinct → j.depth ≤ limit → read (Utf8.encode t) = some j

theorem spelled?_escape (c : Char) : spelled? (escape c) = some c := by
  rcases escape_cases c with ⟨e, h, he⟩ | ⟨h, hlow⟩ | ⟨h, hplain⟩
  · have hslash : e ≠ '/' := by
      rintro rfl
      cases he
    rw [h, spelled?, if_neg hslash, he]
  · have valid : c.toNat.isValidChar := c.valid
    rw [h, spelled?, Hex.quad?_digits hlow, Option.bind_some, if_pos valid, Char.ofNat_toNat]
  · rw [h, spelled?, if_pos hplain]

theorem inside_flatMap_escape (cs : List Char) : Inside (cs.flatMap escape) cs := by
  induction cs with
  | nil => exact .nil
  | cons c cs ih => exact .cons (spelled?_escape c) ih

theorem Lexed.quote {t : List Char} {ts : List Token} (h : Lexed t ts) (s : String) :
    Lexed (Json.quote s ++ t) (.str s :: ts) := by
  have spelt := Lexed.str (inside_flatMap_escape s.toList) h
  rw [String.ofList_toList] at spelt
  simpa [Json.quote] using spelt

theorem Lexed.newline {t : List Char} {ts : List Token} (h : Lexed t ts) (level : Nat) :
    Lexed (Json.newline level ++ t) ts := by
  have spaces (n : Nat) : Lexed (List.replicate n ' ' ++ t) ts := by
    induction n with
    | zero => exact h
    | succ n ih => exact .space rfl ih
  exact .space rfl (spaces _)

-- By induction on the value, with what follows it divided into tokens already.
mutual

theorem lexed_indented (level : Nat) (j : Json) {t : List Char} {ts : List Token}
    (h : Lexed t ts) : Lexed (indented level j ++ t) (j.tokens ++ ts) := by
  match j with
  | .null => exact .symbol (p := "null".toList) (by decide) h
  | .bool true => exact .symbol (p := "true".toList) (by decide) h
  | .bool false => exact .symbol (p := "false".toList) (by decide) h
  | .str s => exact h.quote s
  | .arr [] => exact .symbol (p := ['[']) (by decide) (.symbol (p := [']']) (by decide) h)
  | .arr (item :: items) =>
      simp only [indented, tokens, List.cons_append, List.append_assoc]
      have rest := lexed_indentedItems level items h
      have value := (lexed_indented (level + 1) item rest).newline (level + 1)
      exact .symbol (p := ['[']) (by decide) value
  | .obj [] => exact .symbol (p := ['{']) (by decide) (.symbol (p := ['}']) (by decide) h)
  | .obj ((name, value) :: members) =>
      simp only [indented, tokens, List.cons_append, List.append_assoc]
      have rest := lexed_indentedMembers level members h
      have value := Lexed.space (c := ' ') rfl (lexed_indented (level + 1) value rest)
      have named := (Lexed.symbol (p := [':']) (a := .colon) (by decide) value).quote name
      exact .symbol (p := ['{']) (by decide) (named.newline (level + 1))

theorem lexed_indentedItems (level : Nat) (items : List Json) {t : List Char} {ts : List Token}
    (h : Lexed t ts) : Lexed (indentedItems level items ++ t) (tokensOfItems items ++ ts) := by
  match items with
  | [] =>
      rw [indentedItems, List.append_assoc]
      exact (Lexed.symbol (p := [']']) (by decide) h).newline level
  | item :: items =>
      simp only [indentedItems, tokensOfItems, List.cons_append, List.append_assoc]
      have rest := lexed_indentedItems level items h
      have value := (lexed_indented (level + 1) item rest).newline (level + 1)
      exact .symbol (p := [',']) (by decide) value

theorem lexed_indentedMembers (level : Nat) (members : List (String × Json)) {t : List Char}
    {ts : List Token} (h : Lexed t ts) :
    Lexed (indentedMembers level members ++ t) (tokensOfMembers members ++ ts) := by
  match members with
  | [] =>
      rw [indentedMembers, List.append_assoc]
      exact (Lexed.symbol (p := ['}']) (by decide) h).newline level
  | (name, value) :: members =>
      simp only [indentedMembers, tokensOfMembers, List.cons_append, List.append_assoc]
      have rest := lexed_indentedMembers level members h
      have value := Lexed.space (c := ' ') rfl (lexed_indented (level + 1) value rest)
      have named := (Lexed.symbol (p := [':']) (a := .colon) (by decide) value).quote name
      exact .symbol (p := [',']) (by decide) (named.newline (level + 1))

end

theorem spelt_pretty (j : Json) : Spelt (pretty j) j := by
  have h := lexed_indented 0 j .nil
  rwa [List.append_nil, List.append_nil] at h

end Json
end BuildFront
