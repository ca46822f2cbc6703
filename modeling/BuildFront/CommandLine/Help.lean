import BuildFront.CommandLine.Reading

/-!
What a command line tells people about itself: the list of its arguments, and why one was refused.
-/

namespace BuildFront.CommandLine

def Argument.usage (a : Argument) : String :=
  let short := match a.action.short with
    | some letter => "-" ++ String.ofList [letter] ++ ", "
    | none => "    "
  let value := match a.action with
    | .value label _ => " <" ++ label ++ ">"
    | _ => ""
  short ++ "--" ++ a.name ++ value

/-- Two columns: the arguments, and what they are for. -/
def helpText (program : String) (args : List Argument) : String :=
  let width := (args.map (fun a => a.usage.length)).foldl max 0
  let line (a : Argument) : String :=
    let gap := String.ofList (List.replicate (width + 2 - a.usage.length) ' ')
    "  " ++ a.usage ++ gap ++ a.help ++ "\n"
  "Usage: " ++ program ++ " [OPTIONS]\n\nOptions:\n" ++ String.join (args.map line)

def Refusal.message : Refusal → String
  | .unknownArgument => "an argument is not known"
  | .invalidValue => "an argument has no value, or one that it cannot have"
  | .argumentConflict => "an argument is given twice"
  | .tooManyValues => "a switch is given a value"
  | .displayHelp => "help is asked for"
  | .displayVersion => "the version is asked for"

end BuildFront.CommandLine
