import BuildFront.CommandLine.Help
import BuildFront.CommandLine.Request
import BuildFront.PlanWriter
import BuildFront.Resolver

/-!
A whole run of the front end: the command line, the working directory, the configuration, the plan,
and the hand-over to an engine or to standard output, each stage only if the one before it
succeeded. The outcome is a value.
-/

namespace BuildFront

inductive RunError where
  | directory (e : OsError)
  | config (e : ConfigError)
  | rejected (e : Rejection)
  | engine (e : EngineError)

namespace RunError

def exitCode : RunError → Int
  | .engine e => e.exitCode
  | _ => 1

/-- What people are told. -/
def report (color : Bool) : RunError → String
  | .directory e => "error: failed to determine the working directory: " ++ e.message ++ "\n"
  | .config e => "error: " ++ e.chain ++ "\n"
  | .rejected e => e.toDiagnostic.format color
  | .engine e => e.toDiagnostic.format color

end RunError

/-- What a run has brought about so far. -/
structure RunRecord where
  events : List Event
  output : Sink
  launched : Option (Invocation × Launch)

structure Outcome where
  exitCode : Int
  output : Bytes
  errors : Bytes
  /-- The engine's command and what became of it, if it came to that. -/
  launched : Option (Invocation × Launch)

namespace Application

open CommandLine

def name : String := "cs2kit-configure"

def version : String := "0.1.0"

/-- The directory that the sources are in. -/
def sourceDir (cwd : Path) (request : Request) : Path :=
  Path.absolutize cwd (request.sourceDir.getD (.ofString "."))

/-- A configuration file that is named takes the place of the user's and the project's. -/
def configuration (host : Host) (cwd : Path) (request : Request) :
    List Event × Except ConfigError Config :=
  match request.config with
  | some path => ([], Config.load host.files (Path.absolutize cwd path))
  | none =>
    Config.loadLayers host.files (host.home.map Config.globalFile)
      (Config.projectFile (sourceDir cwd request))

def rawInput (registry : Registry) (m : Matches) (config : Config) : RawInput :=
  (RawInput.ofMatches registry m).fillFrom config.toRawInput

def resolver (cwd : Path) (registry : Registry) (request : Request) : Resolver :=
  (Resolver.new registry cwd).withSourceDir (sourceDir cwd request)

def deliver (host : Host) (request : Request) (config : Config) (plan : BuildPlan) :
    RunRecord × Except EngineError Unit :=
  if request.plan then
    let (output, result) := PlanWriter.configure host.output plan
    (⟨[], output, none⟩, result)
  else
    let (found, engine) :=
      Engine.locate host.search (request.engine.or config.engine.program) config.engine.args
    match engine with
    | .error e => (⟨found, host.output, none⟩, .error e)
    | .ok engine =>
      let handover := engine.configure host plan
      (⟨found ++ handover.events, host.output, handover.launched⟩, handover.result)

def stagesFrom (host : Host) (cwd : Path) (registry : Registry) (m : Matches) :
    RunRecord × Except RunError Unit :=
  let request := Request.ofMatches m
  match configuration host cwd request with
  | (loading, .error e) => (⟨loading, host.output, none⟩, .error (.config e))
  | (loading, .ok config) =>
    let events := loading ++ config.rawEvents
    let raw := rawInput registry m config
    match (resolver cwd registry request).resolve host.files.present raw with
    | (resolving, .error e) => (⟨events ++ resolving, host.output, none⟩, .error (.rejected e))
    | (resolving, .ok plan) =>
      let (record, result) := deliver host request config plan
      ({ record with events := events ++ resolving ++ record.events },
        result.mapError .engine)

def stages (host : Host) (registry : Registry) (m : Matches) : RunRecord × Except RunError Unit :=
  match host.cwd with
  | .error e => (⟨[], host.output, none⟩, .error (.directory e))
  | .ok cwd => stagesFrom host cwd registry m

def logText (verbose : Bool) (events : List Event) : String :=
  String.join ((events.filter (fun e => verbose || e.level != .debug)).map Event.line)

def printed : Option (Invocation × Launch) → Bytes × Bytes
  | some (_, .started child) => (child.output, child.errors)
  | _ => ([], [])

/-- Show what a run has come to. The log comes first, then what the engine printed, then the report
of a failure. Standard error is taken for a file that has room, so nothing is coloured. -/
def conclude (verbose : Bool) (record : RunRecord) (result : Except RunError Unit) : Outcome :=
  let (output, errors) := printed record.launched
  let log := Utf8.ofString (logText verbose record.events)
  let (code, report) := match result with
    | .ok _ => (0, "")
    | .error e => (e.exitCode, e.report false)
  ⟨code, record.output.written ++ output, log ++ errors ++ Utf8.ofString report, record.launched⟩

/-- A command line that asks for no run: a request for information, or one that is not
understood. That the answer cannot be written is no failure. -/
def decline (host : Host) (arguments : List Argument) (r : Refusal) : Outcome :=
  let (output, errors) := match r with
    | .displayVersion => (name ++ " " ++ version ++ "\n", "")
    | .displayHelp => (helpText name arguments, "")
    | r => ("", "error: " ++ r.message ++ "\n")
  ⟨r.exitCode, (host.output.put (Utf8.ofString output)).1.written, Utf8.ofString errors, none⟩

/-- The exit code of a run that is broken off. -/
def brokenOff : Int := 101

/-- A run from its command line on. A request for completions ends it with a shell's script; a run
that cannot write all of that is broken off, and what it says then is left out. -/
def run (host : Host) (registry : Registry) (argv : List String) : Outcome :=
  let arguments := Request.arguments registry
  match CommandLine.read arguments host.env argv with
  | .error r => decline host arguments r
  | .ok m =>
    let request := Request.ofMatches m
    match request.completions with
    | some shell =>
      let (output, complete) := host.output.put (host.completions shell arguments)
      ⟨if complete then 0 else brokenOff, output.written, [], none⟩
    | none =>
      let (record, result) := stages host registry m
      conclude request.verbose record result

end Application
end BuildFront
