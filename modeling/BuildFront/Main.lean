import BuildFront.Application
import BuildFront.Machine.State
import BuildFront.Roster

/-!
The command line. What a run will ask about is looked up first and put into the files of a machine
that has nothing else; the run itself is then a computation. No program is started from here: an
engine is refused, and a plan can be printed for it instead.
-/

namespace BuildFront

open CommandLine

/-- Look at one path and note what is there. A directory cannot be read. -/
def lookUp (m : Machine) (p : Path) : IO Machine := do
  let noted (files : FileTree) : Machine := { m with files }
  let below := m.files.makeDirectories [] (FileTree.parentOf p)
  try
    let data ← IO.FS.readBinFile p.display
    return noted ((below.write [] p data.toList true).toOption.getD below)
  catch
    | .noFileOrDirectory _ _ _ => return m
    | _ => return noted (below.makeDirectories [] p)

def configurationPaths (host : Host) (cwd : Path) (request : Request) : List Path :=
  match request.config with
  | some path => [Path.absolutize cwd path]
  | none =>
    (host.home.map Config.globalFile).toList ++
      [Config.projectFile (Application.sourceDir cwd request)]

def valuePaths (cwd : Path) (raw : RawInput) : List Path :=
  raw.entries.filterMap (fun e => e.2.text?.map (fun s => Path.absolutize cwd (.ofString s)))

def enginePaths (host : Host) (cwd : Path) (request : Request) (config : Config) : List Path :=
  let name := (request.engine.or config.engine.program).getD Engine.defaultProgram
  let dirs := SearchPath.ofBytes (Utf8.ofString ((host.env.get? SearchPath.variableName).getD ""))
  let home := host.home.getD Machine.superuserHome
  Engine.vendoredModules (Application.sourceDir cwd request) ::
    dirs.map (fun dir => SearchPath.candidate cwd home dir (.ofString name))

def readEnvironment (names : List String) : IO (NameMap String) :=
  names.foldlM (fun env name => do
    match ← IO.getEnv name with
    | some value => return env.insert name value
    | none => return env) .empty

/-- The surroundings of a run in which no program can be started. -/
def restrictedHost (m : Machine) : Host :=
  m.hostWith (fun _ => .refused (.os .notPermitted))

def prepare (m : Machine) (registry : Registry) (argv : List String) : IO Machine := do
  match CommandLine.read (Request.arguments registry) m.env argv with
  | .error _ => return m
  | .ok given =>
    let request := Request.ofMatches given
    let cwd := Place.toPath m.cwd
    let m ← (configurationPaths (restrictedHost m) cwd request).foldlM lookUp m
    let host := restrictedHost m
    match Application.configuration host cwd request with
    | (_, .error _) => return m
    | (_, .ok config) =>
      let raw := Application.rawInput registry given config
      (valuePaths cwd raw ++ enginePaths host cwd request config).foldlM lookUp m

def currentDirectory : IO (Except OsError Path) := do
  try return .ok (.ofString (← IO.currentDir).toString)
  catch
    | .noFileOrDirectory _ _ _ => return .error .noEntry
    | .permissionDenied _ _ _ => return .error .accessDenied
    | e => return .error (.other 0 (toString e))

def findHost (registry : Registry) (argv : List String) : IO Host := do
  let names := registry.specs.filterMap (·.env) ++
    ["HOME", SearchPath.variableName, Engine.modulePathVariable]
  let env ← readEnvironment names
  match ← currentDirectory with
  | .error e => return { restrictedHost ⟨⟨[]⟩, [], env⟩ with cwd := .error e }
  | .ok cwd =>
    let files := FileTree.makeDirectories ⟨[]⟩ [] cwd
    return restrictedHost (← prepare ⟨files, FileTree.stepsOf cwd, env⟩ registry argv)

def bytesOf (bs : Bytes) : ByteArray :=
  ⟨bs.toArray⟩

/-- Write to standard output, and tell whether that went well. -/
def tryPrint (bs : Bytes) : IO Bool := do
  try
    (← IO.getStdout).write (bytesOf bs)
    (← IO.getStdout).flush
    return true
  catch _ => return false

/-- A run with a registry, in the surroundings that the process finds. If its output cannot be
written it is the run that finds standard output full. -/
def runWith (registry : Registry) (argv : List String) : IO UInt32 := do
  let host ← findHost registry argv
  let outcome := Application.run host registry argv
  let outcome :=
    if ← tryPrint outcome.output then outcome
    else Application.run { host with output := .bounded 0 } registry argv
  (← IO.getStderr).write (bytesOf outcome.errors)
  return outcome.exitCode.toNat.toUInt32

end BuildFront

open BuildFront in
def main (argv : List String) : IO UInt32 := do
  match h : Roster.standard with
  | .error e =>
    (← IO.getStderr).write (bytesOf (Utf8.ofString ("error: " ++ e.message ++ "\n")))
    return 1
  | .ok roster => runWith (roster.registry (Roster.sound_standard h)) argv
