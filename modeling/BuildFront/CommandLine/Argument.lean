/-!
What a program accepts on its command line: named switches and named values, each value possibly
backed by an environment variable.
-/

namespace BuildFront.CommandLine

/-- Which texts a value may have. -/
inductive ValueRule where
  | any
  | nonEmpty
  | oneOf (choices : List String)
  deriving DecidableEq

def ValueRule.accepts : ValueRule → String → Bool
  | .any, _ => true
  | .nonEmpty, s => !s.isEmpty
  | .oneOf choices, s => choices.contains s

inductive Action where
  /-- Takes one value; `label` stands for it in help texts. -/
  | value (label : String) (rule : ValueRule)
  /-- Takes none; may have a one-letter form. -/
  | switch (short : Option Char)
  /-- Ends the reading with a request for help. -/
  | help (short : Option Char)
  /-- Ends the reading with a request for the version. -/
  | version (short : Option Char)
  deriving DecidableEq

/-- The one-letter form, which only arguments without a value have. -/
def Action.short : Action → Option Char
  | .value _ _ => none
  | .switch s | .help s | .version s => s

structure Argument where
  /-- The name after the two dashes. -/
  name : String
  help : String
  action : Action
  /-- The variable whose value stands in when the argument is not given. -/
  env : Option String
  deriving DecidableEq

def Argument.takesValue (a : Argument) : Bool :=
  match a.action with
  | .value _ _ => true
  | _ => false

def Argument.helpRequest : Argument :=
  ⟨"help", "Print help", .help (some 'h'), none⟩

end BuildFront.CommandLine
