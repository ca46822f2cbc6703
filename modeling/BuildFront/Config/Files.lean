import BuildFront.Config
import BuildFront.Fault

/-!
Configuration files: where they are looked for, and how they are read. A file that is there but
cannot be read or understood is an error; one that is not there contributes nothing.
-/

namespace BuildFront

/-- What is asked of a file system while configuration is read. -/
structure FileAccess where
  /-- Whether a path leads to something, links followed. -/
  present : Path → Bool
  read : Path → Except FileFault Bytes

inductive ConfigError where
  | unreadable (path : Path) (fault : FileFault)
  | malformed (path : Path)
  deriving DecidableEq

namespace ConfigError

def message : ConfigError → String
  | .unreadable path _ => "failed to read config file: " ++ path.display
  | .malformed path => "failed to parse config file: " ++ path.display

def chain : ConfigError → String
  | .unreadable path fault => (ConfigError.unreadable path fault).message ++ ": " ++ fault.message
  | .malformed path => (ConfigError.malformed path).message ++ ": TOML parse error"

end ConfigError

namespace Config

def load (files : FileAccess) (path : Path) : Except ConfigError Config :=
  match files.read path with
  | .error fault => .error (.unreadable path fault)
  | .ok bytes =>
    match Utf8.toString? bytes with
    | none => .error (.unreadable path .notUtf8)
    | some s =>
      match parse? s with
      | none => .error (.malformed path)
      | some c => .ok c

/-- The file's configuration, or the empty one if the file is not there. -/
def loadOrEmpty (files : FileAccess) (path : Path) : List Event × Except ConfigError Config :=
  if files.present path then ([], load files path)
  else ([.noConfigFile path], .ok empty)

/-- The project's file over the user's file. -/
def loadLayers (files : FileAccess) (global : Option Path) (project : Path) :
    List Event × Except ConfigError Config :=
  match global with
  | none =>
    let (events, result) := loadOrEmpty files project
    (events, result.map (merge empty))
  | some path =>
    match loadOrEmpty files path with
    | (events, .error e) => (events, .error e)
    | (events, .ok lower) =>
      let (more, result) := loadOrEmpty files project
      (events ++ more, result.map (merge (merge empty lower)))

def globalDirectory (home : Path) : Path :=
  home.join (.ofString ".cs2kit")

def globalFile (home : Path) : Path :=
  (globalDirectory home).join (.ofString "config.toml")

def projectFile (source : Path) : Path :=
  (source.join (.ofString ".cs2kit")).join (.ofString "config.toml")

end Config
end BuildFront
