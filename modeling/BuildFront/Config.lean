import BuildFront.Event
import BuildFront.RawInput
import BuildFront.Toml.Document

/-!
Configuration: option values under their names, and the engine to run. Layers are merged with the
upper one winning, and a merged configuration becomes raw input.
-/

namespace BuildFront

inductive ConfigValue where
  | switch (on : Bool)
  | text (s : String)
  | list (items : List String)
  deriving DecidableEq

structure EngineConfig where
  /-- The program that receives the plan, if one is named. -/
  program : Option String
  args : List String
  deriving DecidableEq

structure Config where
  options : NameMap ConfigValue
  engine : EngineConfig
  deriving DecidableEq

namespace EngineConfig

def empty : EngineConfig :=
  ⟨none, []⟩

def text? : Toml.Value → Option String
  | .text s => some s
  | _ => none

def texts? : Toml.Value → Option (List String)
  | .array items => items.mapM text?
  | _ => none

def ofParts? (program args : Option Toml.Value) : Option EngineConfig := do
  let program ← match program with
    | none => some none
    | some v => (text? v).map some
  let args ← match args with
    | none => some []
    | some v => texts? v
  return ⟨program, args⟩

/-- Engine settings by name, or by position: the program, then its arguments. A date stands for a
table that names neither. -/
def ofToml? : Toml.Value → Option EngineConfig
  | .table ms => ofParts? (Toml.Value.member? ms "program") (Toml.Value.member? ms "args")
  | .array items => ofParts? items[0]? items[1]?
  | .dateTime _ => some empty
  | _ => none

end EngineConfig

def ConfigValue.ofToml? : Toml.Value → Option ConfigValue
  | .boolean b => some (.switch b)
  | .text s => some (.text s)
  | .array items => (items.mapM EngineConfig.text?).map .list
  | _ => none

namespace Config

def empty : Config :=
  ⟨.empty, .empty⟩

/-- The one key of the table that a date stands for. -/
def dateKey : String := "$__toml_private_datetime"

def optionsOfToml? : Toml.Value → Option (NameMap ConfigValue)
  | .table ms =>
    (ms.mapM (fun m => (ConfigValue.ofToml? m.2).map (fun v => (m.1, v)))).map NameMap.ofList
  | .dateTime s => some (NameMap.ofList [(dateKey, .text s)])
  | _ => none

/-- The configuration in a document's root table. Keys of no meaning are passed over. -/
def ofToml? (root : List (String × Toml.Value)) : Option Config := do
  let options ← match Toml.Value.member? root "options" with
    | none => some .empty
    | some v => optionsOfToml? v
  let engine ← match Toml.Value.member? root "engine" with
    | none => some .empty
    | some v => EngineConfig.ofToml? v
  return ⟨options, engine⟩

def parse? (s : String) : Option Config := do
  ofToml? (← Toml.Document.parse s)

/-- Lay `upper` over `lower`. An upper engine without a program or without arguments leaves the
lower one's. -/
def merge (lower upper : Config) : Config where
  options := lower.options.override upper.options
  engine := {
    program := upper.engine.program.or lower.engine.program
    args := if upper.engine.args.isEmpty then lower.engine.args else upper.engine.args }

/-- An option's value as raw input. Switching off supplies nothing, for flags cannot be negated; an
array is supplied as one text. -/
def rawValue? : ConfigValue → Option RawValue
  | .switch true => some .flag
  | .switch false => none
  | .text s => some (.text s)
  | .list items => some (.text (",".intercalate items))

def toRawInput (c : Config) : RawInput :=
  c.options.entries.foldl (fun raw e =>
    match rawValue? e.2 with
    | some v => raw.insert e.1 v
    | none => raw) .empty

/-- One event for every option that is switched off. -/
def rawEvents (c : Config) : List Event :=
  c.options.entries.filterMap (fun e =>
    match e.2 with
    | .switch false => some (.configSwitchedOff e.1)
    | _ => none)

end Config
end BuildFront
