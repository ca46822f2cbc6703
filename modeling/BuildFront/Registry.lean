import BuildFront.OptionSpec

/-!
The options a front end knows, in the order in which they were registered, each name once.
-/

namespace BuildFront

structure Registry where
  specs : List OptionSpec
  distinct : (specs.map (·.name)).Nodup
  deriving DecidableEq

structure DuplicateOption where
  name : String
  deriving DecidableEq

namespace DuplicateOption

def message (e : DuplicateOption) : String :=
  "option `" ++ e.name ++ "` is already registered"

def code : String := "cs2kit::registry::duplicate_option"

end DuplicateOption

namespace Registry

def empty : Registry :=
  ⟨[], List.nodup_nil⟩

def names (r : Registry) : List String :=
  r.specs.map (·.name)

def get? (r : Registry) (name : String) : Option OptionSpec :=
  r.specs.find? (fun s => s.name == name)

def contains (r : Registry) (name : String) : Bool :=
  r.names.contains name

def size (r : Registry) : Nat :=
  r.specs.length

def isEmpty (r : Registry) : Bool :=
  r.specs.isEmpty

/-- Add an option at the end, unless its name is taken. -/
def register (r : Registry) (s : OptionSpec) : Except DuplicateOption Registry :=
  if h : s.name ∈ r.specs.map (·.name) then .error ⟨s.name⟩
  else .ok ⟨r.specs ++ [s], by
    rw [List.map_append, List.nodup_append]
    refine ⟨r.distinct, by simp, ?_⟩
    intro a ha b hb hab
    simp only [List.map_cons, List.map_nil, List.mem_singleton] at hb
    exact h (by rw [← hb, ← hab]; exact ha)⟩

/-- Add options one after another, up to the first name that is taken. -/
def registerAll (r : Registry) : List OptionSpec → Except DuplicateOption Registry
  | [] => .ok r
  | s :: rest => do (← r.register s).registerAll rest

/-- The options of a plugin build. -/
def standardSpecs : List OptionSpec :=
  [(OptionSpec.path "hl2sdk-root" .lazy "Root path containing HL2SDK directories").withEnv
      "HL2SDK_ROOT",
   (OptionSpec.path "hl2sdk-manifests" .eager "Path to hl2sdk-manifests").withEnv
      "HL2SDK_MANIFESTS",
   (OptionSpec.path "mms-path" .lazy "Path to Metamod:Source 2.0").withEnv "MMS_PATH",
   ((OptionSpec.list "sdks" "SDK(s) to build (comma-separated, e.g., 'cs2')").withEnv
      "CS2KIT_SDKS").withPreset (.text "cs2"),
   (OptionSpec.list "targets" "Target architectures (comma-separated, e.g., 'x86_64')").withEnv
      "CS2KIT_TARGETS",
   OptionSpec.flag "enable-debug" false "Enable debugging symbols",
   OptionSpec.flag "enable-optimize" true "Enable optimization"]

def standard : Registry :=
  ⟨standardSpecs, by decide⟩

def arguments (r : Registry) : List CommandLine.Argument :=
  r.specs.map (·.argument)

end Registry
end BuildFront
