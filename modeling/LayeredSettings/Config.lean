import LayeredSettings.Toml.Content
import LayeredSettings.Targeting

/-!
Bootstrap configuration: where the settings are, which facts hold for this process, and whether the
settings are watched. Every part has a default.
-/

namespace LayeredSettings

structure WatchConfig where
  enabled : Bool := false
  /-- How often the file is looked at where changes are not announced, in milliseconds. -/
  pollInterval : UInt64 := 2000
  deriving DecidableEq

structure Config where
  path : String := "config/process_settings.yml"
  /-- Taken from the path if absent. -/
  format : Option Format := none
  context : Value := .null
  watch : WatchConfig := {}

namespace WatchConfig

def readInterval? : Value → Option UInt64
  | .number (.int n) => if 0 ≤ n then some n.toUInt64 else none
  | .number (.uint n) => some n
  | _ => none

/-- A map from the names of the parts, or a list of the parts in order. -/
def ofValue? : Value → Option WatchConfig
  | .map entries => do
    let enabled ← (KeyMap.get? entries "enabled").elim (some false) Value.asBool?
    let pollInterval ← (KeyMap.get? entries "poll_interval_ms").elim (some 2000) readInterval?
    return { enabled, pollInterval }
  | .list [] => some {}
  | .list [enabled] => enabled.asBool?.map fun enabled => { enabled }
  | .list (enabled :: pollInterval :: _) => do
    return { enabled := ← enabled.asBool?, pollInterval := ← readInterval? pollInterval }
  | _ => none

def toJson (w : WatchConfig) : Json :=
  .object [("enabled", .bool w.enabled), ("poll_interval_ms", .unsigned w.pollInterval)]

end WatchConfig

namespace Config

/-- The name of a format, or a map from the name to nothing. -/
def readFormat? : Value → Option Format
  | .string name => Format.ofName? name
  | .map [(name, .map [])] => Format.ofName? name
  | .map [(name, .list [])] => Format.ofName? name
  | _ => none

/-- Parts with other names are ignored. -/
def ofEntries? (entries : KeyMap Value) : Option Config := do
  let defaults : Config := {}
  let path ← (entries.get? "path").elim (some defaults.path) Value.asString?
  let format ← (entries.get? "format").elim (some none) fun v => (readFormat? v).map some
  let watch ← (entries.get? "watch").elim (some {}) WatchConfig.ofValue?
  return { path, format, context := (entries.get? "context").getD .null, watch }

def facts (c : Config) : Except Fault Facts :=
  (Facts.ofValue? c.context).elim (.error (.whole (.contextNotATable c.context.kind))) .ok

def validate (c : Config) : Except Fault Config := do
  if c.path.isEmpty then throw (.whole .emptyPath)
  if c.watch.pollInterval = 0 then throw (.whole .zeroPollInterval)
  let _ ← c.facts
  return c

/-- Reads a configuration in TOML. -/
def parse (text : String) : Except Fault Config :=
  match (Value.readToml? text).bind fun v => v.asMap?.bind ofEntries? with
  | some c => c.validate
  | none => .error .toml

def toJson (c : Config) : Json :=
  .object [("path", .string c.path), ("format", (c.format.map (Json.string ·.name)).getD .null),
    ("context", c.context.toJson), ("watch", c.watch.toJson)]

/-- The format of the settings. -/
def formatInUse (c : Config) : Format := c.format.getD (Format.ofPath c.path)

end Config
end LayeredSettings
