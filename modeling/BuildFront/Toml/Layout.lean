import BuildFront.Toml.Reader

/-!
Blanks, line ends and comments.
-/

namespace BuildFront.Toml.Layout

open Reader

def isSpace (c : Char) : Bool :=
  c == ' ' || c == '\t'

def spaces : Reader Unit := do
  discard <| run isSpace

def newline : Reader Unit := do
  discard <| optional (char '\r')
  char '\n'

/-- Characters allowed in comments: no control character but the tab. -/
def inComment (c : Char) : Bool :=
  c == '\t' || (' ' ≤ c && c ≤ '~') || 0x80 ≤ c.toNat

def comment : Reader Unit := do
  char '#'
  discard <| run inComment

def lineEnd : Reader Unit :=
  newline <|> atEnd

/-- What may follow an entry on its line. -/
def restOfLine : Reader Unit := do
  spaces
  discard <| optional comment
  lineEnd

/-- Blanks, line ends and comments in any mixture. -/
def gap : Reader Unit := do
  discard <| many ((discard <| satisfy isSpace) <|> newline <|> comment)

end BuildFront.Toml.Layout
