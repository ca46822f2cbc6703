import BuildFront.CommandLine.Argument

/-!
Build options: their kinds, their defaults, and how each shows on the command line.
-/

namespace BuildFront

/-- When a path has to exist: while resolving, or only by the time it is used. -/
inductive PathCheck where
  | eager
  | lazy
  deriving DecidableEq

def PathCheck.label : PathCheck → String
  | .eager => "eager"
  | .lazy => "lazy"

inductive OptionKind where
  | path (check : PathCheck)
  | list
  | flag
  deriving DecidableEq

def OptionKind.label : OptionKind → String
  | .path _ => "path"
  | .list => "list"
  | .flag => "flag"

/-- The value of an option that nobody supplies. -/
inductive Preset where
  | unset
  | text (s : String)
  | switch (on : Bool)
  deriving DecidableEq

structure OptionSpec where
  name : String
  kind : OptionKind
  help : String
  env : Option String
  preset : Preset
  deriving DecidableEq

namespace OptionSpec

def path (name : String) (check : PathCheck) (help : String) : OptionSpec :=
  ⟨name, .path check, help, none, .unset⟩

def list (name help : String) : OptionSpec :=
  ⟨name, .list, help, none, .unset⟩

def flag (name : String) (on : Bool) (help : String) : OptionSpec :=
  ⟨name, .flag, help, none, .switch on⟩

def withEnv (s : OptionSpec) (name : String) : OptionSpec :=
  { s with env := some name }

def withPreset (s : OptionSpec) (preset : Preset) : OptionSpec :=
  { s with preset }

def isFlag (s : OptionSpec) : Bool :=
  s.kind == .flag

/-- The help text with the default in brackets; a switch that is off by default has none. -/
def helpLine (s : OptionSpec) : String :=
  match s.preset with
  | .text t => s.help ++ " [default: " ++ t ++ "]"
  | .switch true => s.help ++ " [default: on]"
  | _ => s.help

/-- The option as an argument. Flags are switches without a variable. -/
def argument (s : OptionSpec) : CommandLine.Argument :=
  match s.kind with
  | .flag => ⟨s.name, s.helpLine, .switch none, none⟩
  | .list => ⟨s.name, s.helpLine, .value "LIST" .any, s.env⟩
  | .path _ => ⟨s.name, s.helpLine, .value "PATH" .any, s.env⟩

end OptionSpec
end BuildFront
