/-!
Sets of characters as patterns and other programs write them: single characters, ranges, and kinds
of characters by their names.
-/

namespace BuildFront

inductive CharRange where
  | between (low high : Char)
  | kind (name : String)

namespace CharRange

def kinds : List (String × (Char → Bool)) :=
  [("alpha", Char.isAlpha), ("digit", Char.isDigit), ("alnum", Char.isAlphanum),
   ("upper", Char.isUpper), ("lower", Char.isLower),
   ("space", fun c => c == ' ' || ('\t' ≤ c && c ≤ '\r')),
   ("blank", fun c => c == ' ' || c == '\t'),
   ("punct", fun c => '!' ≤ c && c ≤ '~' && !c.isAlphanum),
   ("print", fun c => ' ' ≤ c && c ≤ '~'), ("graph", fun c => '!' ≤ c && c ≤ '~'),
   ("cntrl", fun c => c < ' ' || c == '\x7f'),
   ("xdigit", fun c => c.isDigit || ('a' ≤ c && c ≤ 'f') || ('A' ≤ c && c ≤ 'F'))]

def accepts : CharRange → Char → Bool
  | between low high, c => low ≤ c && c ≤ high
  | kind name, c => ((kinds.lookup name).map (· c)).getD false

/-- The members among the characters of one byte, in order. -/
def members (r : CharRange) : List Char :=
  ((List.range 256).map Char.ofNat).filter r.accepts

end CharRange

/-- A set of characters, or all that are not in it. -/
structure CharSet where
  negated : Bool
  ranges : List CharRange

namespace CharSet

def accepts (s : CharSet) (c : Char) : Bool :=
  s.ranges.any (·.accepts c) != s.negated

def single (c : Char) : CharSet :=
  ⟨false, [.between c c]⟩

def acceptsCased (s : CharSet) (ignoresCase : Bool) (c : Char) : Bool :=
  if ignoresCase then s.accepts c.toLower || s.accepts c.toUpper else s.accepts c

end CharSet
end BuildFront
