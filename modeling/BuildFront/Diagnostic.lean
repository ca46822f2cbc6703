import BuildFront.Path

/-!
Messages for people: a headline, the place it is about, facts about it, and numbered suggestions.
Colour touches the headline's severity and the help label only.
-/

namespace BuildFront

inductive Severity where
  | error
  | warning
  deriving DecidableEq

def Severity.label : Severity → String
  | .error => "error"
  | .warning => "warning"

def Severity.colour : Severity → String
  | .error => "31"
  | .warning => "33"

structure Diagnostic where
  severity : Severity
  message : String
  location : Option Path
  contexts : List String
  suggestions : List String
  deriving DecidableEq

namespace Diagnostic

def ofSeverity (severity : Severity) (message : String) : Diagnostic :=
  ⟨severity, message, none, [], []⟩

def error (message : String) : Diagnostic :=
  ofSeverity .error message

def warning (message : String) : Diagnostic :=
  ofSeverity .warning message

def withContext (d : Diagnostic) (text : String) : Diagnostic :=
  { d with contexts := d.contexts ++ [text] }

def withSuggestion (d : Diagnostic) (text : String) : Diagnostic :=
  { d with suggestions := d.suggestions ++ [text] }

def withLocation (d : Diagnostic) (path : Path) : Diagnostic :=
  { d with location := some path }

/-- A word in bold colour, between the sequences that switch it on and off. -/
def paint (colour word : String) : String :=
  "\x1b[1;" ++ colour ++ "m" ++ word ++ "\x1b[0m"

def label (color : Bool) (colour word : String) : String :=
  if color then paint colour word else word

def numbered (n : Nat) : List String → String
  | [] => ""
  | s :: rest => "  " ++ toString n ++ ". " ++ s ++ "\n" ++ numbered (n + 1) rest

def contextLines : List String → String
  | [] => ""
  | c :: rest => "  = " ++ c ++ "\n" ++ contextLines rest

def locationLine : Option Path → String
  | none => ""
  | some p => "  --> " ++ p.display ++ "\n"

def suggestionLines (color : Bool) : List String → String
  | [] => ""
  | s :: rest => "\n" ++ label color "32" "help" ++ ": consider:\n" ++ numbered 1 (s :: rest)

/-- The message as printed, with every line ended. -/
def format (d : Diagnostic) (color : Bool) : String :=
  label color d.severity.colour d.severity.label ++ ": " ++ d.message ++ "\n" ++
    locationLine d.location ++ contextLines d.contexts ++ suggestionLines color d.suggestions

end Diagnostic
end BuildFront
