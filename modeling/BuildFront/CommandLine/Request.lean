import BuildFront.RawInput
import BuildFront.Path

/-!
What a command line of the front end asks for besides option values.
-/

namespace BuildFront.CommandLine

structure Request where
  verbose : Bool
  noColor : Bool
  /-- Print the plan instead of running an engine. -/
  plan : Bool
  sourceDir : Option Path
  engine : Option String
  /-- The one configuration file to read. -/
  config : Option Path
  /-- The shell to print completions for. -/
  completions : Option String
  deriving DecidableEq

namespace Request

def shells : List String :=
  ["bash", "elvish", "fish", "powershell", "zsh"]

/-- The arguments that do not depend on the registry. -/
def fixedArguments : List Argument :=
  [⟨"verbose", "Enable verbose output", .switch (some 'v'), none⟩,
   ⟨"no-color", "Disable colored output", .switch none, none⟩,
   ⟨"plan", "Print the resolved build plan as JSON instead of running the engine",
      .switch none, none⟩,
   ⟨"source-dir",
      "Directory containing the plugin's build scripts (defaults to the current directory)",
      .value "DIR" .nonEmpty, none⟩,
   ⟨"engine", "Build engine program to hand the plan to", .value "PROGRAM" .any, none⟩,
   ⟨"config", "Read options from this config file instead of the global and project ones",
      .value "FILE" .nonEmpty, none⟩,
   ⟨"completions", "Print shell completions and exit", .value "SHELL" (.oneOf shells), none⟩]

def versionRequest : Argument :=
  ⟨"version", "Print version", .version (some 'V'), none⟩

def arguments (r : Registry) : List Argument :=
  fixedArguments ++ r.arguments ++ [Argument.helpRequest, versionRequest]

def textOf (m : Matches) (name : String) : Option String :=
  match m.get? name with
  | some (.value t) => some t
  | _ => none

def ofMatches (m : Matches) : Request where
  verbose := m.contains "verbose"
  noColor := m.contains "no-color"
  plan := m.contains "plan"
  sourceDir := (textOf m "source-dir").map .ofString
  engine := textOf m "engine"
  config := (textOf m "config").map .ofString
  completions := textOf m "completions"

end Request
end BuildFront.CommandLine
