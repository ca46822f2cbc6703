import BuildFront.Diagnostic
import BuildFront.Host
import BuildFront.SearchPath

/-!
Build engines: programs that read a plan from their input. An engine's exit code is passed on; that
it did not read all of the plan is no failure.
-/

namespace BuildFront

inductive EngineError where
  | notFound (program : String)
  | spawn (command message : String)
  | failed (command : String) (code : Option Int)
  | serialize
  | write
  deriving DecidableEq

namespace EngineError

def describeExit : Option Int → String
  | some code => "status " ++ toString code
  | none => "a signal"

def message : EngineError → String
  | .notFound program => "build engine `" ++ program ++ "` not found"
  | .spawn command message => "failed to run `" ++ command ++ "`: " ++ message
  | .failed command code => "`" ++ command ++ "` exited with " ++ describeExit code
  | .serialize => "failed to serialize build plan"
  | .write => "failed to write build plan"

/-- The exit code to end with: the engine's own if it has one that tells of a failure. -/
def exitCode : EngineError → Int
  | .failed _ (some code) => if code = 0 then 1 else code
  | _ => 1

def installEngine : String :=
  "Install AMBuild, or point `--engine` (or `[engine] program`) at it"

def toDiagnostic (e : EngineError) : Diagnostic :=
  match e with
  | .notFound _ => (Diagnostic.error e.message).withSuggestion installEngine
  | _ => Diagnostic.error e.message

end EngineError

structure Engine where
  program : Path
  args : List String
  deriving DecidableEq

namespace Engine

def defaultProgram : String := "ambuild"

def fingerprintVariable : String := "CS2KIT_PLAN_FINGERPRINT"

/-- The variable that tells where Python looks for modules. -/
def modulePathVariable : String := "PYTHONPATH"

/-- An engine by its name. A path of several parts is taken as it is; a single part is searched. -/
def locate (search : String → Option Path) (program : Option String) (args : List String) :
    List Event × Except EngineError Engine :=
  let name := program.getD defaultProgram
  if 1 < (Path.ofString name).parts.length then ([], .ok ⟨.ofString name, args⟩)
  else match search name with
    | some path => ([.engineFound path], .ok ⟨path, args⟩)
    | none => ([], .error (.notFound name))

def vendoredModules (sourceDir : Path) : Path :=
  ["vendor", "mmsource-2.0", "third_party", "ambuild"].foldl
    (fun dir name => dir.join (.ofString name)) sourceDir

/-- The module path with the vendored checkout in front of what is inherited, if there is a checkout
and the whole can be joined. -/
def modulePath (isDirectory : Path → Bool) (inherited : Option String) (sourceDir : Path) :
    Option Bytes :=
  let vendored := vendoredModules sourceDir
  if isDirectory vendored then
    let existing := inherited.elim [] (fun paths => SearchPath.ofBytes (Utf8.ofString paths))
    SearchPath.joined? (vendored :: existing)
  else none

/-- The command that hands a plan over, unless the plan has no JSON form. -/
def command (e : Engine) (isDirectory : Path → Bool) (env : NameMap String) (plan : BuildPlan) :
    Except EngineError Invocation :=
  match plan.text?, plan.fingerprint? with
  | some text, some fingerprint =>
    let base : Invocation := {
      program := e.program
      args := e.args
      env := NameMap.empty.insert fingerprintVariable fingerprint
      cwd := some plan.buildDir
      input := some (Utf8.ofString text) }
    match modulePath isDirectory (env.get? modulePathVariable) plan.sourceDir with
    | some paths => .ok (base.withEnv modulePathVariable (Utf8.lossy paths))
    | none => .ok base
  | _, _ => .error .serialize

structure Handover where
  events : List Event
  /-- The command and what became of it, if it came to that. -/
  launched : Option (Invocation × Launch)
  acts : List Act
  result : Except EngineError Unit

def judge (command : String) : Except LaunchError ExitStatus → Except EngineError Unit
  | .error e => .error (.spawn command e.chain)
  | .ok status =>
    if status.success then .ok () else .error (.failed command (status.code?.map Int.ofNat))

def configure (e : Engine) (host : Host) (plan : BuildPlan) : Handover :=
  match e.command host.isDirectory host.env plan with
  | .error err => ⟨[], none, [], .error err⟩
  | .ok invocation =>
    let fingerprint := (invocation.env.get? fingerprintVariable).getD ""
    let launch := host.launch invocation
    let (acts, exit) := invocation.supervise launch
    ⟨[.configuring plan.sdks plan.buildDir fingerprint], some (invocation, launch), acts,
      judge invocation.display exit⟩

end Engine
end BuildFront
