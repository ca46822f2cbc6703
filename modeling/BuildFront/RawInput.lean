import BuildFront.CommandLine.Reading
import BuildFront.Registry

/-!
Option values as supplied, before anyone asks what they mean: a text, or the bare fact that a flag
was given.
-/

namespace BuildFront

inductive RawValue where
  | text (s : String)
  | flag
  deriving DecidableEq

def RawValue.text? : RawValue → Option String
  | .text s => some s
  | .flag => none

abbrev RawInput := NameMap RawValue

namespace RawInput

open CommandLine

/-- What was supplied for one option: flags by their switch alone, all others by a value from the
command line or from their variable. -/
def ofGiven? (spec : OptionSpec) : Option Given → Option RawValue
  | none => none
  | some .on => if spec.isFlag then some .flag else none
  | some (.value t) | some (.fromEnvironment t) => if spec.isFlag then none else some (.text t)

def ofMatches (r : Registry) (m : Matches) : RawInput :=
  r.specs.foldl (fun raw spec =>
    match ofGiven? spec (m.get? spec.name) with
    | some v => raw.insert spec.name v
    | none => raw) .empty

end RawInput
end BuildFront
