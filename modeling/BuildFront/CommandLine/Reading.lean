import BuildFront.CommandLine.Argument
import BuildFront.NameMap

/-!
Reading a command line against the arguments a program accepts. An argument may be given once. A
value follows its name after `=` or as the next word; a word that looks like an argument is never
taken for a value. A value that follows as a word is looked at only when the next argument begins or
the line ends, so of two faults an unknown word that comes later may be the one reported.
-/

namespace BuildFront.CommandLine

inductive Refusal where
  | unknownArgument
  | invalidValue
  | argumentConflict
  | tooManyValues
  | displayHelp
  | displayVersion
  deriving DecidableEq

/-- Requests for information succeed; everything else is a usage error. -/
def Refusal.exitCode : Refusal → Nat
  | .displayHelp | .displayVersion => 0
  | _ => 2

/-- What is known of an argument after reading. -/
inductive Given where
  | on
  | value (text : String)
  | fromEnvironment (text : String)
  deriving DecidableEq

abbrev Matches := NameMap Given

/-- A command line read in part: what was given, and the argument whose value is still to be looked
at, with the value if it has been seen. -/
structure Progress where
  given : Matches
  pending : Option (Argument × Option String)

/-- Record one argument. A second time is a conflict, and only then is the value looked at. -/
def record (a : Argument) (g : Given) (m : Matches) : Except Refusal Matches :=
  if m.contains a.name then .error .argumentConflict
  else match a.action, g with
    | .value _ rule, .value text | .value _ rule, .fromEnvironment text =>
      if rule.accepts text then .ok (m.insert a.name g) else .error .invalidValue
    | _, _ => .ok (m.insert a.name g)

def Progress.settle (p : Progress) : Except Refusal Matches :=
  match p.pending with
  | none => .ok p.given
  | some (_, none) => .error .invalidValue
  | some (a, some text) => record a (.value text) p.given

def Progress.take (p : Progress) (a : Argument) : Except Refusal Progress := do
  let m ← p.settle
  match a.action with
  | .help _ => .error .displayHelp
  | .version _ => .error .displayVersion
  | _ => return ⟨← record a .on m, none⟩

def Progress.takeValue (p : Progress) (a : Argument) (text : String) : Except Refusal Progress := do
  let m ← p.settle
  return ⟨← record a (.value text) m, none⟩

/-- An argument whose value is to follow has been read. -/
def Progress.await (p : Progress) (a : Argument) : Except Refusal Progress := do
  return ⟨← p.settle, some (a, none)⟩

def findLong (args : List Argument) (name : String) : Option Argument :=
  args.find? (fun a => a.name == name)

def findShort (args : List Argument) (letter : Char) : Option Argument :=
  args.find? (fun a => a.action.short == some letter)

/-- Split at the first `=`. -/
def splitValue (cs : List Char) : String × Option String :=
  let name := cs.takeWhile (· != '=')
  match cs.dropWhile (· != '=') with
  | _ :: value => (String.ofList name, some (String.ofList value))
  | [] => (String.ofList name, none)

def readLong (args : List Argument) (cs : List Char) (p : Progress) : Except Refusal Progress :=
  let (name, value) := splitValue cs
  match findLong args name with
  | none => .error .unknownArgument
  | some a =>
    match a.takesValue, value with
    | true, some text => p.takeValue a text
    | true, none => p.await a
    | false, some _ => .error .tooManyValues
    | false, none => p.take a

/-- Letters after a single dash, each an argument of its own. -/
def readShort (args : List Argument) : List Char → Progress → Except Refusal Progress
  | [], p => .ok p
  | c :: rest, p =>
    match findShort args c with
    | none => .error .unknownArgument
    | some a => do readShort args rest (← p.take a)

/-- A word that is no argument: the value waited for, or out of place. -/
def readWord (word : String) (p : Progress) : Except Refusal Progress :=
  match p.pending with
  | some (a, none) => .ok { p with pending := some (a, some word) }
  | _ => .error .unknownArgument

/-- Read the words in order. After `--` every word is out of place. -/
def readWords (args : List Argument) : List String → Progress → Except Refusal Progress
  | [], p => .ok p
  | word :: rest, p =>
    match word.toList with
    | ['-', '-'] => if rest.isEmpty then .ok p else .error .unknownArgument
    | '-' :: '-' :: cs => do readWords args rest (← readLong args cs p)
    | '-' :: c :: cs => do readWords args rest (← readShort args (c :: cs) p)
    | _ => do readWords args rest (← readWord word p)

/-- Arguments not given take the value of their variable, if that is set. -/
def fillFromEnvironment (env : NameMap String) : List Argument → Matches → Except Refusal Matches
  | [], m => .ok m
  | a :: rest, m =>
    match a.env.bind env.get? with
    | some text =>
      if m.contains a.name then fillFromEnvironment env rest m
      else do fillFromEnvironment env rest (← record a (.fromEnvironment text) m)
    | none => fillFromEnvironment env rest m

def read (args : List Argument) (env : NameMap String) (argv : List String) :
    Except Refusal Matches := do
  let p ← readWords args argv ⟨.empty, none⟩
  fillFromEnvironment env args (← p.settle)

end BuildFront.CommandLine
