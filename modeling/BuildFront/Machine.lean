import BuildFront.Machine.State
import BuildFront.Surroundings.Shell.Startup
import BuildFront.Surroundings.Tool

/-!
A machine whose programs can be run, for trying runs out. Its programs, the system's own and the
scripts that its shell understands, are described under Surroundings. They stand in for a system and
are no part of the front end: nothing else depends on them, and no theorem speaks of what they do.
-/

namespace BuildFront

namespace Machine

/-- How deep programs may start programs. -/
def maxPrograms : Nat := 64

def runTool : Nat → Runner
  | 0, _, _ => none
  | n + 1, tool, call =>
    if Tool.shellNames.contains tool then some (Shell.run (runTool n) call)
    else Tool.run? (runTool n) tool call

def maxArgument : Nat := 131071

def hasNul (s : String) : Bool :=
  s.toList.contains '\x00'

def containsNul (i : Invocation) : Bool :=
  i.program.hasNul || i.args.any hasNul || (i.cwd.any Path.hasNul) ||
    i.env.entries.any (fun e => hasNul e.1 || hasNul e.2)

def tooLong (i : Invocation) : Bool :=
  i.args.any (fun a => maxArgument < a.utf8ByteSize) ||
    i.env.entries.any (fun e => maxArgument < e.1.utf8ByteSize + 1 + e.2.utf8ByteSize)

def directoryFor (m : Machine) (i : Invocation) : Except OsError Place :=
  match i.cwd with
  | none => .ok m.cwd
  | some p =>
    match m.files.find m.cwd p true with
    | .ok ⟨place, some .directory⟩ => .ok place
    | .ok ⟨_, some _⟩ => .error .notDirectory
    | .ok ⟨_, none⟩ => .error .noEntry
    | .error fault => .error (Image.ofFault fault)

def variablesFor (m : Machine) (i : Invocation) : NameMap Octets :=
  NameMap.ofList ((m.env.override i.env).entries.map (fun e =>
    (Octets.ofString e.1, Octets.ofString e.2)))

/-- What an invocation leads to. A name alone is searched, by the program's own search path if it is
given one; then a file that names no interpreter is left to the shell. -/
def imageFor (m : Machine) (cwd : Place) (i : Invocation) : Except OsError Image :=
  let name := Octets.ofPath i.program
  let args := i.args.map Octets.ofString
  if i.program.isEmpty then .error .noEntry
  else if i.program.bytes.contains Path.slash then
    Image.ofFile m.files cwd name args Image.maxScripts i.program
  else
    SearchPath.findImage m.files cwd (i.env.contains SearchPath.variableName) name args false
      (SearchPath.ofVariables (m.variablesFor i)).inOrder

def prepare (m : Machine) (i : Invocation) : Except SpawnFault (Place × Image) :=
  if containsNul i then .error .nulByte
  else match m.directoryFor i with
    | .error e => .error (.os e)
    | .ok cwd =>
      if tooLong i then .error (.os .argumentsTooLong)
      else match m.imageFor cwd i with
        | .error e => .error (.os e)
        | .ok image => .ok (cwd, image)

/-- Run a program to its end: what became of it, and the machine it leaves behind. One that ends
with input unread has closed the pipe. -/
def start (m : Machine) (i : Invocation) : Launch × Machine :=
  match m.prepare i with
  | .error fault => (.refused fault, m)
  | .ok (cwd, image) =>
    let call : Call := {
      name := image.name, args := image.args, env := m.variablesFor i, cwd, files := m.files
      input := some (i.input.getD []), rewinds := false, ignored := [] }
    match runTool maxPrograms image.tool call with
    | none => (.refused (.os .notExecutable), m)
    | some r =>
      let feed := if r.unread.isEmpty then .complete else .brokenPipe
      (.started ⟨feed, .ok r.status, r.stream 1, r.stream 2⟩, { m with files := r.files })

def host (m : Machine) : Host :=
  m.hostWith (fun i => (m.start i).1)

def placeOf (s : String) : Place :=
  FileTree.stepsOf (.ofString s)

def systemFiles : FileTree :=
  let directories := ["/proc", "/sys", "/run", "/usr", "/usr/bin", "/usr/sbin", "/usr/lib",
    "/usr/local", "/usr/local/bin", "/dev", "/etc", "/home", "/opt", "/root", "/tmp", "/var",
    "/var/tmp"]
  let links := [("/bin", "usr/bin"), ("/sbin", "usr/sbin"), ("/lib", "usr/lib")]
  let devices := [("/dev/null", Device.null), ("/dev/stdin", .stream 0), ("/dev/stdout", .stream 1),
    ("/dev/stderr", .stream 2)]
  let programs := Tool.names.map (fun name =>
    (placeOf "/usr/bin" ++ [Utf8.ofString name], Entry.tool name))
  ⟨directories.map (fun d => (placeOf d, .directory)) ++
    links.map (fun l => (placeOf l.1, .link (.ofString l.2))) ++
    devices.map (fun d => (placeOf d.1, .device d.2)) ++
    (placeOf "/etc/passwd", .file (Utf8.ofString "root:x:0:0:root:/root:/bin/sh\n") false) ::
    programs⟩

def fresh (env : NameMap String) : Machine :=
  ⟨systemFiles, [], env⟩

end Machine
end BuildFront
