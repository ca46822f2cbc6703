import BuildFront.Surroundings.Shell.Arithmetic
import BuildFront.Surroundings.Shell.Glob
import BuildFront.Surroundings.Shell.Session

/-!
What words stand for. Parameters, outputs and numbers are put in the place of the pieces that name
them; what comes of it is cut into fields, and fields that are patterns give way to the paths that
they stand for.
-/

namespace BuildFront.Shell

inductive Origin where
  /-- It stands in the word itself. -/
  | text
  /-- It is quoted, or as good as quoted. -/
  | quotation
  /-- It was put in the place of something, and may separate fields. -/
  | value
  deriving DecidableEq

/-- A part of a word whose pieces have been replaced. -/
inductive Mark where
  | char (c : Char) (origin : Origin)
  /-- A quotation, which makes a field even if there is nothing in it. -/
  | presence
  | border

namespace Mark

def ofText (origin : Origin) (s : Octets) : List Mark :=
  s.toList.map (fun c => .char c origin)

def char? : Mark → Option Char
  | .char c _ => some c
  | _ => none

def glyph? : Mark → Option Glyph
  | .char c origin => some (c, origin == .quotation)
  | _ => none

def textOf (marks : List Mark) : Octets :=
  String.ofList (marks.filterMap char?)

end Mark

inductive Pause where
  | none
  /-- A blank; another separator after it belongs to it. -/
  | blank
  | separator

structure Fields where
  complete : List (List Mark)
  open? : Option (List Mark)
  pause : Pause

namespace Fields

def empty : Fields :=
  ⟨[], none, .none⟩

def cut (f : Fields) (pause : Pause) : Fields :=
  match f.open? with
  | some marks => ⟨f.complete ++ [marks], none, pause⟩
  | none => { f with pause }

def extend (f : Fields) (m : Mark) : Fields :=
  { f with open? := some (f.open?.getD [] ++ [m]), pause := .none }

/-- Take a mark. `separators` separate fields if they come from values. -/
def take (separators : List Char) (f : Fields) (m : Mark) : Fields :=
  match m with
  | .border => f.cut .none
  | .char c .value =>
    if !separators.contains c then f.extend m
    else if c == ' ' || c == '\t' || c == '\n' then
      match f.open? with
      | some _ => f.cut .blank
      | none => f
    else
      match f.open?, f.pause with
      | some _, _ => f.cut .separator
      | none, .blank => { f with pause := .separator }
      | none, _ => ⟨f.complete ++ [[]], none, .separator⟩
  | m => f.extend m

def close (f : Fields) : List (List Mark) :=
  (f.cut .none).complete

end Fields

/-- How the commands in a word are run: for what they print, line ends at the end dropped. -/
abbrev Substitution := Command → Action Octets

namespace Session

def separators (s : Session) : List Char :=
  ((s.get? "IFS").getD " \t\n").toList

def joint (s : Session) : Octets :=
  match s.vars.get? "IFS" with
  | some ⟨some v, _, _⟩ => String.ofList (v.toList.take 1)
  | _ => " "

def parameter? (s : Session) (name : Octets) : Option Octets :=
  match name with
  | "#" => some (toString s.args.length)
  | "?" => some (toString s.status)
  | "$" => some (toString processNumber)
  | "!" => s.lastJob.map (fun n => toString n)
  | "-" => some (String.ofList s.options)
  | "0" => some s.name
  | _ =>
    match name.toNat? with
    | some n => s.args[n - 1]?
    | none => s.get? name

def homeOf? (s : Session) (user : Octets) : Option Octets :=
  if user.isEmpty then s.get? "HOME"
  else if user == "root" then some "/root"
  else none

/-- A text in which tildes have been replaced: at its front if it is the first of a word, and after
colons in the value of a variable. What follows a tilde has to end before the next piece. -/
def expandTildes (s : Session) (origin : Origin) (assigned first last : Bool) (text : Octets) :
    List Mark :=
  let parts := if assigned then text.splitOn ":" else [text]
  let plain := Mark.ofText origin
  let expand (part : Octets) (i : Nat) : List Mark :=
    match part.toList with
    | '~' :: cs =>
      let user := cs.takeWhile (· != '/')
      let isInner := i == 0 && !first
      let isOpen := user.length == cs.length && i + 1 == parts.length && !last
      match if isInner || isOpen then none else s.homeOf? (String.ofList user) with
      | some home => Mark.ofText .quotation home ++ plain (String.ofList (cs.drop user.length))
      | none => plain part
    | _ => plain part
  (plain ":").intercalate (parts.zipIdx.map (fun p => expand p.1 p.2))

end Session

namespace Expansion

open Shell.Action

/-- How a word is expanded: whether it becomes several fields, whether it is the value of a
variable, and whether it stands in the place of a value itself. -/
structure Manner where
  split : Bool
  assigned : Bool
  isValue : Bool

def put (quoted : Bool) (value : Octets) : List Mark :=
  Mark.ofText (if quoted then .quotation else .value) value

def arguments (m : Manner) (quoted : Bool) (name : Octets) : Action (List Mark) := do
  let s ← get
  if m.split && (!quoted || name == "@") then
    let each := s.args.map (fun a => (if quoted then [Mark.presence] else []) ++ put quoted a)
    return [Mark.border].intercalate each
  else return put quoted (s.joint.intercalate s.args)

def isArguments (name : Octets) : Bool :=
  name == "@" || name == "*"

def valueOf? (name : Octets) : Action (Option Octets) := do
  let s ← get
  if isArguments name then
    return if s.args.isEmpty then none else some (s.joint.intercalate s.args)
  else return s.parameter? name

def require (name : Octets) : Action Octets := do
  match ← valueOf? name with
  | some v => return v
  | none =>
    if (← get).hasOption 'u' && !isArguments name then fail (name ++ ": parameter not set") 2
    else return ""

def numberOf (text : Octets) : Action Octets := do
  let s ← get
  match Arithmetic.evaluate s.get? text with
  | .error fault => fail (fault.message text) 2
  | .ok (n, changes) =>
    changes.forM (fun c => assign c.1 (toString c.2.toInt))
    return toString n.toInt

/-- The marks of a word. `n` bounds how deep words lie in each other. -/
def marksOf (run : Substitution) : Nat → Manner → Word → Action (List Mark)
  | 0, _, _ => fail "expression too deep" 2
  | n + 1, m, w => do
    let nested (m : Manner) (quoted : Bool) (w : Word) : Action (List Mark) :=
      marksOf run n { m with isValue := !quoted } w
    let textOf (w : Word) : Action Octets := do
      return Mark.textOf (← marksOf run n ⟨false, false, false⟩ w)
    let parameter (quoted : Bool) (name : Octets) (use : Use) : Action (List Mark) := do
      let plain : Action (List Mark) := do
        let value ← require name
        if isArguments name then arguments m quoted name else return put quoted value
      match use with
      | .value => plain
      | .length => do
        return put quoted (toString (← require name).length)
      | .unknown => fail "Bad substitution" 2
      | .trim atEnd longest pattern =>
        let value ← require name
        let glyphs := (← marksOf run n ⟨false, false, false⟩ pattern).filterMap Mark.glyph?
        return put quoted (Glob.trim atEnd longest glyphs value)
      | .remedy r emptyToo word =>
        let value ← valueOf? name
        let present := match value with
          | some v => !(emptyToo && v.isEmpty)
          | none => false
        match r, present with
        | .replace, true => nested m quoted word
        | .replace, false => return []
        | _, true => plain
        | .substitute, false => nested m quoted word
        | .assign, false =>
          if isName name then
            let text ← textOf word
            assign name text
            return put quoted text
          else fail (name ++ ": bad variable name") 2
        | .refuse, false =>
          if word.isEmpty then
            fail (name ++ ": parameter not set" ++ (if emptyToo then " or null" else "")) 2
          else fail (name ++ ": " ++ (← textOf word)) 2
    let piece (p : Piece) (i : Nat) : Action (List Mark) := do
      match p with
      | .text true s => return if s.isEmpty then [.presence] else Mark.ofText .quotation s
      | .text false text =>
        let origin := if m.isValue then Origin.value else .text
        return (← get).expandTildes origin m.assigned (i == 0) (i + 1 == w.length) text
      | .parameter quoted name use => parameter quoted name use
      | .output quoted c => return put quoted (← run c)
      | .number quoted e => return put quoted (← numberOf (← textOf e))
    return (← w.zipIdx.mapM (fun p => piece p.1 p.2)).flatten

def pathsOf (field : List Mark) : Action (List Octets) := do
  let s ← get
  let paths :=
    if s.hasOption 'f' then [] else Glob.paths s.world.files s.cwd (field.filterMap Mark.glyph?)
  return if paths.isEmpty then [Mark.textOf field] else paths

def fields (run : Substitution) (n : Nat) (w : Word) : Action (List Octets) := do
  let marks ← marksOf run n ⟨true, false, false⟩ w
  let separators := (← get).separators
  let fields := (marks.foldl (Fields.take separators) Fields.empty).close
  return (← fields.mapM pathsOf).flatten

def text (run : Substitution) (n : Nat) (assigned : Bool) (w : Word) : Action Octets := do
  return Mark.textOf (← marksOf run n ⟨false, assigned, false⟩ w)

def pattern (run : Substitution) (n : Nat) (w : Word) : Action (List Glyph) := do
  return (← marksOf run n ⟨false, false, false⟩ w).filterMap Mark.glyph?

end Expansion
end BuildFront.Shell
