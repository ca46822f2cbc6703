import BuildFront.Event
import BuildFront.RawInput
import BuildFront.Rejection

/-!
From supplied values to a build plan. Options are resolved in the order of their registration and
the first refusal ends it; the plan is then composed from the seven options of a plugin build. All
that resolving asks of a file system is whether a path is there.
-/

namespace BuildFront

/-- Resolved options by name, in the order of the registry. -/
abbrev ResolvedOptions := List (String × Resolved)

namespace ResolvedOptions

def get? (o : ResolvedOptions) (name : String) : Option Resolved :=
  (o.find? (fun e => e.1 == name)).map (·.2)

def unregistered (name : String) : Rejection :=
  ⟨name, none, .unregistered⟩

def listOf (o : ResolvedOptions) (name : String) : Except Rejection (Option IdList) :=
  match get? o name with
  | some (.list l) => .ok l
  | _ => .error (unregistered name)

def pathOf (o : ResolvedOptions) (name : String) : Except Rejection (Option ResolvedPath) :=
  match get? o name with
  | some (.path p) => .ok p
  | _ => .error (unregistered name)

def flagOf (o : ResolvedOptions) (name : String) : Except Rejection Bool :=
  match get? o name with
  | some (.flag b) => .ok b
  | _ => .error (unregistered name)

end ResolvedOptions

structure Resolver where
  registry : Registry
  /-- The directory that relative paths start from, as given. -/
  cwd : Path
  /-- The folded source directory, if it is not the build directory. -/
  sourceDir : Option Path

namespace Resolver

def new (registry : Registry) (cwd : Path) : Resolver :=
  ⟨registry, cwd, none⟩

def withSourceDir (r : Resolver) (dir : Path) : Resolver :=
  { r with sourceDir := some (Path.absolutize r.cwd dir) }

def mismatch (spec : OptionSpec) (value : Option String) (reason : String) : Rejection :=
  ⟨spec.name, value, .kindMismatch spec.kind.label reason⟩

/-- A switch is on if it was given, and off or on by default; it takes no value. -/
def resolveFlag (spec : OptionSpec) : Option RawValue → Except Rejection Bool
  | some .flag => .ok true
  | some (.text s) =>
    .error (mismatch spec (some s) "flags take no value; pass the switch to enable it")
  | none =>
    match spec.preset with
    | .switch on => .ok on
    | .unset => .ok false
    | .text s => .error (mismatch spec (some s) "registry default is not a boolean")

/-- The text that an option with a value goes by: the supplied one, else the default. -/
def valueText (spec : OptionSpec) (missing : String) :
    Option RawValue → Except Rejection (Option String)
  | some (.text s) => .ok (some s)
  | some .flag => .error (mismatch spec none missing)
  | none =>
    match spec.preset with
    | .text s => .ok (some s)
    | .unset => .ok none
    | .switch _ => .error (mismatch spec none "registry default is a boolean")

def resolveList (spec : OptionSpec) (raw : Option RawValue) :
    Except Rejection (Option IdList) := do
  match ← valueText spec "a comma-separated value is required" raw with
  | none => return none
  | some s =>
    match IdList.parse s with
    | .ok l => return some l
    | .error e => throw ⟨spec.name, some e.input, .emptyList e⟩

/-- The path with a warning if it may be missing and is. -/
def checkPath (spec : OptionSpec) (check : PathCheck) (cwd : Path) (present : Path → Bool)
    (s : String) : Except Rejection (ResolvedPath × List Event) :=
  if Text.allBlank s then .error (mismatch spec (some s) "path is empty")
  else
    let path := Path.absolutize cwd (.ofString s)
    if present path then .ok (⟨path, check, true⟩, [])
    else match check with
      | .eager => .error ⟨spec.name, some s, .pathNotFound path⟩
      | .lazy => .ok (⟨path, check, false⟩, [.pathMissing spec.name path])

/-- One option, and the warnings that come with its value. -/
def resolveOne (r : Resolver) (present : Path → Bool) (spec : OptionSpec) (raw : Option RawValue) :
    Except Rejection (Resolved × List Event) :=
  match spec.kind with
  | .flag => do return (.flag (← resolveFlag spec raw), [])
  | .list => do return (.list (← resolveList spec raw), [])
  | .path check => do
    match ← valueText spec "a path is required" raw with
    | none => return (.path none, [])
    | some s =>
      let (p, warnings) ← checkPath spec check r.cwd present s
      return (.path (some p), warnings)

/-- The options in order up to the first refusal, with the events of those before it. -/
def resolveEach (r : Resolver) (present : Path → Bool) (raw : RawInput) :
    List OptionSpec → List Event × Except Rejection ResolvedOptions
  | [] => ([], .ok [])
  | spec :: rest =>
    match r.resolveOne present spec (raw.get? spec.name) with
    | .error e => ([], .error e)
    | .ok (value, warnings) =>
      let (events, result) := r.resolveEach present raw rest
      (warnings ++ .optionResolved spec.name (raw.contains spec.name) value :: events,
        result.map ((spec.name, value) :: ·))

/-- The first supplied name in byte order that the registry does not know. -/
def firstUnknown (r : Resolver) (raw : RawInput) : Option Rejection :=
  (raw.entries.find? (fun e => !r.registry.contains e.1)).map
    (fun e => ⟨e.1, e.2.text?, .unknownOption⟩)

def resolveOptions (r : Resolver) (present : Path → Bool) (raw : RawInput) :
    List Event × Except Rejection ResolvedOptions :=
  match r.firstUnknown raw with
  | some e => ([], .error e)
  | none => r.resolveEach present raw r.registry.specs

/-- The plan from its options, asked for in a fixed order. -/
def compose (r : Resolver) (o : ResolvedOptions) : Except Rejection BuildPlan := do
  let targets ← o.listOf "targets"
  let sdks ← match ← o.listOf "sdks" with
    | some l => pure l
    | none => throw ⟨"sdks", none,
        .kindMismatch "list" "no SDK selected and the registry declares no default"⟩
  let buildDir := Path.absolutize r.cwd (.ofString ".")
  return {
    sourceDir := r.sourceDir.getD buildDir
    buildDir
    sdks
    targets := match targets with
      | none => .engineDefault
      | some archs => .explicit archs
    sdkRoot := ← o.pathOf "hl2sdk-root"
    sdkManifests := ← o.pathOf "hl2sdk-manifests"
    hostFramework := ← o.pathOf "mms-path"
    debug := ← o.flagOf "enable-debug"
    optimize := ← o.flagOf "enable-optimize" }

/-- The last event of a successful resolution. -/
def summary (p : BuildPlan) : Event :=
  match p.fingerprint? with
  | some f => .planResolved p.sdks p.matrix.length f
  | none => .planWithoutJson p.sdks

def resolve (r : Resolver) (present : Path → Bool) (raw : RawInput) :
    List Event × Except Rejection BuildPlan :=
  match r.resolveOptions present raw with
  | (events, .error e) => (events, .error e)
  | (events, .ok options) =>
    match r.compose options with
    | .error e => (events, .error e)
    | .ok plan => (events ++ [summary plan], .ok plan)

end Resolver
end BuildFront
