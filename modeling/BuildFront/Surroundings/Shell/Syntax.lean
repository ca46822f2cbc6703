import BuildFront.Surroundings.Octets

/-!
Command lines of a shell: words made of text and of what is put in its place, redirections, and the
ways to combine commands.
-/

namespace BuildFront.Shell

/-- What is done about a parameter that has no value, or has one. -/
inductive Remedy where
  /-- Another text is taken instead. -/
  | substitute
  /-- Another text becomes the value. -/
  | assign
  /-- The shell gives up. -/
  | refuse
  /-- Another text takes the place of a value that is there. -/
  | replace
  deriving DecidableEq

inductive Opening where
  | read
  | write
  /-- Over what is there, even if that is protected. -/
  | overwrite
  | append
  | readWrite
  deriving DecidableEq

mutual

/-- A part of a word. What is quoted is neither split nor taken for a pattern. -/
inductive Piece where
  | text (quoted : Bool) (s : Octets)
  | parameter (quoted : Bool) (name : Octets) (use : Use)
  | output (quoted : Bool) (command : Command)
  | number (quoted : Bool) (expression : List Piece)

inductive Use where
  | value
  | length
  | remedy (r : Remedy) (emptyToo : Bool) (word : List Piece)
  /-- The value without what a pattern matches at one of its ends. -/
  | trim (atEnd longest : Bool) (pattern : List Piece)
  | unknown

inductive Target where
  | file (opening : Opening) (name : List Piece)
  | document (number : Nat)
  | copy (source : List Piece)

inductive Redirect where
  | redirect (stream : Nat) (target : Target)

inductive Command where
  | nothing
  | simple (line : Nat) (assignments : List (Octets × List Piece)) (words : List (List Piece))
      (redirects : List Redirect)
  | redirected (line : Nat) (body : Command) (redirects : List Redirect)
  | own (line : Nat) (body : Command) (redirects : List Redirect)
  | background (body : Command)
  | pipe (parts : List Command)
  | negate (body : Command)
  | both (left right : Command)
  | either (left right : Command)
  | sequence (first second : Command)
  | choose (condition yes no : Command)
  /-- A command again and again, as long as another one succeeds, or as long as it fails. -/
  | repeated (untilSuccess : Bool) (condition body : Command)
  | each (line : Nat) (name : Octets) (words : List (List Piece)) (body : Command)
  | select (line : Nat) (subject : List Piece) (arms : List (List (List Piece) × Command))
  | function (name : Octets) (body : Command)

end

abbrev Word := List Piece

def Word.plain? : Word → Option Octets
  | [.text false s] => some s
  | _ => none

def isNameStart (c : Char) : Bool :=
  c.isAlpha || c == '_'

def isNameChar (c : Char) : Bool :=
  c.isAlphanum || c == '_'

def isName (s : Octets) : Bool :=
  s.toList.head?.any isNameStart && s.toList.all isNameChar

inductive Symbol where
  | newline
  | semicolon
  | endOfCase
  | background
  | both
  | bar
  | either
  | openGroup
  | closeGroup
  | endOfScript
  deriving DecidableEq

/-- A redirection whose word is still to come. -/
inductive Arrow where
  | opening (o : Opening)
  | document (dropsTabs : Bool)
  | copy
  deriving DecidableEq

inductive Token where
  | word (w : Word)
  | keyword (s : String)
  | arrow (stream : Nat) (a : Arrow)
  | symbol (s : Symbol)

namespace Token

def keywords : List String :=
  ["!", "case", "do", "done", "elif", "else", "esac", "fi", "for", "if", "in", "then", "until",
   "while", "\x7b", "\x7d"]

def asKeyword : Token → Token
  | .word w =>
    match Word.plain? w with
    | some s => if keywords.contains s then .keyword s else .word w
    | none => .word w
  | t => t

def label : Token → String
  | .word _ => "word"
  | .keyword s => "\"" ++ s ++ "\""
  | .arrow _ _ => "redirection"
  | .symbol s =>
    match s with
    | .newline => "newline"
    | .semicolon => "\";\""
    | .endOfCase => "\";;\""
    | .background => "\"&\""
    | .both => "\"&&\""
    | .bar => "\"|\""
    | .either => "\"||\""
    | .openGroup => "\"(\""
    | .closeGroup => "\")\""
    | .endOfScript => "end of file"

end Token

end BuildFront.Shell
