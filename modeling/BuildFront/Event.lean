import BuildFront.BuildPlan

/-!
What a run reports while it goes on. Events are values; a line of the log is one way to show them.
-/

namespace BuildFront

inductive Level where
  | debug
  | info
  | warn
  deriving DecidableEq

def Level.label : Level → String
  | .debug => "DEBUG"
  | .info => "INFO"
  | .warn => "WARN"

inductive FieldValue where
  | text (s : String)
  | number (n : Nat)
  | bool (b : Bool)
  deriving DecidableEq

def FieldValue.display : FieldValue → String
  | .text s => s
  | .number n => toString n
  | .bool true => "true"
  | .bool false => "false"

inductive Event where
  | optionResolved (option : String) (supplied : Bool) (value : Resolved)
  | pathMissing (option : String) (path : Path)
  | planResolved (sdks : IdList) (cells : Nat) (fingerprint : String)
  | planWithoutJson (sdks : IdList)
  | noConfigFile (path : Path)
  | configSwitchedOff (option : String)
  | engineFound (program : Path)
  | configuring (sdks : IdList) (buildDir : Path) (fingerprint : String)
  deriving DecidableEq

namespace Event

def level : Event → Level
  | .pathMissing _ _ | .planWithoutJson _ => .warn
  | .planResolved _ _ _ | .configuring _ _ _ => .info
  | _ => .debug

def message : Event → String
  | .optionResolved _ _ _ => "resolved option"
  | .pathMissing option path =>
    "`--" ++ option ++ "` points to " ++ path.display ++ " which does not exist yet"
  | .planResolved _ _ _ => "resolved build plan"
  | .planWithoutJson _ => "resolved build plan has no JSON form: " ++ BuildPlan.noJsonForm
  | .noConfigFile path => "no config file at " ++ path.display
  | .configSwitchedOff option =>
    "config sets `" ++ option ++ "` to false; leaving it at its default"
  | .engineFound program => "using build engine " ++ program.display
  | .configuring sdks dir fingerprint =>
    "configuring " ++ sdks.display ++ " in " ++ dir.display ++
      " (plan " ++ Digest.short fingerprint ++ ")"

/-- The fields that are shown by name. The value of an option is shown in a notation for developers
besides, which is not spelled out here. -/
def fields : Event → List (String × FieldValue)
  | .optionResolved option supplied _ => [("option", .text option), ("supplied", .bool supplied)]
  | .planResolved sdks cells fingerprint =>
    [("sdks", .text sdks.display), ("cells", .number cells), ("fingerprint", .text fingerprint)]
  | .planWithoutJson sdks => [("sdks", .text sdks.display)]
  | _ => []

/-- How a log shows a character of a message. Those that a terminal takes for commands are spelled
out. -/
def visible (c : Char) : String :=
  if c == '\x1b' || c == '\x07' || c == '\x08' || c == '\x0c' || c == '\x7f' then
    "\\x" ++ String.ofList (Hex.ofBytes [UInt8.ofNat c.toNat])
  else if '\u0080' ≤ c ∧ c ≤ '\u009f' then
    "\\u\x7b" ++ String.ofList (Hex.ofBytes [UInt8.ofNat c.toNat]) ++ "\x7d"
  else c.toString

/-- The event as a line of the log: its level in five columns, its message, its fields. -/
def line (e : Event) : String :=
  let label := e.level.label
  let margin := String.ofList (List.replicate (5 - label.length) ' ')
  margin ++ label ++ " " ++ String.join (e.message.toList.map visible) ++
    String.join (e.fields.map (fun f => " " ++ f.1 ++ "=" ++ f.2.display)) ++ "\n"

end Event
end BuildFront
