import BuildFront.Digest
import BuildFront.IdList
import BuildFront.OptionSpec
import BuildFront.Path

/-!
The build plan: everything a build engine is told, its JSON form, and its fingerprint. A plan has a
JSON form if all its paths are texts.
-/

namespace BuildFront

inductive TargetSelection where
  | engineDefault
  | explicit (archs : IdList)
  deriving DecidableEq

/-- A path option's value, and whether the path was there when the option was resolved. -/
structure ResolvedPath where
  path : Path
  check : PathCheck
  present : Bool
  deriving DecidableEq

inductive Resolved where
  | list (items : Option IdList)
  | path (value : Option ResolvedPath)
  | flag (on : Bool)
  deriving DecidableEq

structure BuildPlan where
  sourceDir : Path
  buildDir : Path
  sdks : IdList
  targets : TargetSelection
  sdkRoot : Option ResolvedPath
  sdkManifests : Option ResolvedPath
  hostFramework : Option ResolvedPath
  debug : Bool
  optimize : Bool
  deriving DecidableEq

def TargetSelection.archs? : TargetSelection → Option IdList
  | .engineDefault => none
  | .explicit archs => some archs

def TargetSelection.toJson : TargetSelection → Json
  | .engineDefault => .obj [("mode", .str "engine_default")]
  | .explicit archs => .obj [("mode", .str "explicit"), ("archs", archs.toJson)]

def ResolvedPath.toJson? (p : ResolvedPath) : Option Json := do
  let text ← p.path.text?
  return .obj [("path", .str text), ("check", .str p.check.label), ("exists", .bool p.present)]

namespace BuildPlan

def engineApi : String := "2.2"

def noJsonForm : String := "path contains invalid UTF-8 characters"

def pathJson? : Option ResolvedPath → Option Json
  | none => some .null
  | some p => p.toJson?

def toJson? (p : BuildPlan) : Option Json := do
  let source ← p.sourceDir.text?
  let build ← p.buildDir.text?
  let root ← pathJson? p.sdkRoot
  let manifests ← pathJson? p.sdkManifests
  let framework ← pathJson? p.hostFramework
  return .obj
    [("engine_api", .str engineApi),
     ("source_dir", .str source),
     ("build_dir", .str build),
     ("sdk_list", p.sdks.toJson),
     ("target_list", p.targets.toJson),
     ("sdk_root_path", root),
     ("sdk_manifest_path", manifests),
     ("host_framework_path", framework),
     ("debug_enabled", .bool p.debug),
     ("optimize_enabled", .bool p.optimize)]

/-- The indented JSON text that engines are given. -/
def text? (p : BuildPlan) : Option String :=
  p.toJson?.map (fun j => String.ofList j.pretty)

/-- The digest of the compact JSON text. -/
def fingerprint? (p : BuildPlan) : Option String :=
  p.toJson?.map (fun j => Digest.sha256Hex (Utf8.encode j.compact))

/-- Every SDK with every architecture; with no architecture where the engine chooses. -/
def matrix (p : BuildPlan) : List (String × Option String) :=
  match p.targets with
  | .engineDefault => p.sdks.items.map (fun sdk => (sdk, none))
  | .explicit archs =>
    p.sdks.items.flatMap (fun sdk => archs.items.map (fun arch => (sdk, some arch)))

end BuildPlan
end BuildFront
