import BuildFront.Diagnostic
import BuildFront.IdList
import BuildFront.OptionSpec

/-!
Why an option's value is refused, with the wording for programs and the advice for people.
-/

namespace BuildFront

inductive Cause where
  | emptyList (e : EmptyList)
  | pathNotFound (path : Path)
  | unknownOption
  | kindMismatch (expected reason : String)
  | unregistered
  deriving DecidableEq

namespace Cause

def message : Cause → String
  | .emptyList e => e.message
  | .pathNotFound p => "path does not exist: " ++ p.display
  | .unknownOption => "unknown option"
  | .kindMismatch expected reason => "expected a " ++ expected ++ " value: " ++ reason
  | .unregistered => "option is not registered"

def code? : Cause → Option String
  | .emptyList _ => some EmptyList.code
  | .pathNotFound _ => some "cs2kit::resolve::path_not_found"
  | _ => none

def help? : Cause → Option String
  | .emptyList _ => some EmptyList.help
  | _ => none

end Cause

/-- A refused option, with the value that was supplied for it as far as it is a text. -/
structure Rejection where
  option : String
  value : Option String
  cause : Cause
  deriving DecidableEq

namespace Rejection

def code : String := "cs2kit::resolve::rejected"

def headline (r : Rejection) : String :=
  "invalid value for `--" ++ r.option ++ "`"

def message (r : Rejection) : String :=
  r.headline ++ ": " ++ r.cause.message

/-- The advice where the options available have to be looked up. -/
def listOptions : String :=
  "help: Run `cs2kit-configure --help` to see all options"

/-- The headline and the supplied value, if there is one. -/
def opening (r : Rejection) : Diagnostic :=
  match r.value with
  | some v => (Diagnostic.error r.headline).withContext ("supplied value: `" ++ v ++ "`")
  | none => Diagnostic.error r.headline

def toDiagnostic (r : Rejection) : Diagnostic :=
  match r.cause with
  | .emptyList _ =>
    ((r.opening.withContext "the list contains no identifiers after trimming").withSuggestion
      ("Pass at least one identifier, e.g. `--" ++ r.option ++ "=cs2`")).withSuggestion
      ("Omit `--" ++ r.option ++ "` to use its default")
  | .pathNotFound p =>
    ((r.opening.withLocation p).withContext
      "this path is read during configuration and must exist").withSuggestion
      "Check the path, or clone the missing checkout into the location given"
  | .unknownOption =>
    (r.opening.withContext "the option is not recognized").withSuggestion listOptions
  | .kindMismatch _ _ => (r.opening.withContext r.cause.message).withSuggestion listOptions
  | .unregistered =>
    r.opening.withContext "the option registry does not declare this option; this is a bug"

end Rejection
end BuildFront
