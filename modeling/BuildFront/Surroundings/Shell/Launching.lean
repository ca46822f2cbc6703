import BuildFront.Surroundings.Image
import BuildFront.Surroundings.Shell.Session
import BuildFront.Surroundings.Shell.Signal
import BuildFront.Surroundings.Tool.Program

/-!
The programs that a shell starts: how they are found, what they are called with, and what is made of
their end.
-/

namespace BuildFront.Shell

namespace Session

/-- What is said of a program that cannot be run, and the exit code for it. A bare name is one that
was searched. -/
def refusal (name : Octets) (bare : Bool) (e : OsError) : Octets × Nat :=
  match e with
  | .noEntry | .notDirectory => (name ++ ": not found", 127)
  | .tooManyLinks | .nameTooLong => (name ++ ": " ++ e.words, 127)
  | e => (name ++ ": " ++ e.words, if bare then 127 else 126)

def searchPath (s : Session) : SearchPath :=
  SearchPath.ofBytes (Octets.toBytes ((s.get? SearchPath.variableName).getD ""))

def isBare (name : Octets) : Bool :=
  !name.toList.contains '/'

/-- The path under which a shell runs what names no interpreter. -/
def shellPath : Octets := "/bin/sh"

def imageOf (s : Session) (name : Octets) (args : List Octets) : Except (Octets × Nat) Image :=
  let image :=
    if isBare name then
      SearchPath.findImage s.world.files s.cwd true name args false s.searchPath
    else
      match Image.ofFile s.world.files s.cwd name args Image.maxScripts (Octets.toPath name) with
      | .error .notExecutable => .ok ⟨Tool.shellName, shellPath, name :: args⟩
      | other => other
  image.mapError (refusal name (isBare name))

def locate (s : Session) (name : Octets) : Option Octets :=
  if isBare name then
    (s.searchPath.map (fun dir => dir.join (Octets.toPath name))).findSome? (fun p =>
      if s.world.files.isProgram s.cwd p then some (Octets.ofPath p) else none)
  else if s.world.files.present s.cwd (Octets.toPath name) then some name
  else none

def callFor (s : Session) (image : Image) : Call where
  name := image.name
  args := image.args
  env := s.exported
  cwd := s.cwd
  files := s.world.files
  input := s.readable 0
  rewinds := match s.channel? 0 with
    | some (.file _ _ _) => true
    | _ => false
  ignored := (s.traps.filter (·.2.isEmpty)).map (·.1)

def settle (s : Session) (r : Report) : Session :=
  r.written.foldl (fun s w => s.emit w.1 w.2) ((s.readUpTo 0 r.unread).withFiles r.files)

end Session

namespace Action

open Session

def runImage (runner : Runner) (image : Image) : Action ExitStatus := do
  let s ← get
  match runner image.tool (s.callFor image) with
  | some r =>
    let s := s.settle r
    let isLost := r.written.any (fun w => w.1 == 1) && (s.channelOf? 1).isNone
    if isLost then
      set (s.emit 2 (Octets.toBytes (image.name ++ ": write error: Bad file descriptor\n")))
      return .code 1
    else
      set s
      return r.status
  | none =>
    set (s.warn (image.name ++ ": " ++ OsError.notExecutable.words))
    return .code 126

def announce (status : ExitStatus) : Action Unit := do
  match status with
  | .code _ => return
  | .signal n =>
    match Signal.description? n with
    | some text => modify (fun s => s.emit 2 (Octets.toBytes (text ++ "\n")))
    | none => return

def runInside (tool : Tool.Program Unit) (args : List Octets) : Action Unit := do
  let s ← get
  let name := String.ofList (s.preamble.toList.dropLast.dropLast)
  let r := tool.run { s.callFor ⟨"", name, args⟩ with env := NameMap.empty }
  let isLost := r.written.any (fun w => (s.channelOf? w.1).isNone)
  set (s.settle r)
  setStatus (codeOf r.status)
  if isLost then complain ((s.speaker.getD "") ++ ": I/O error") 1

end Action
end BuildFront.Shell
