import LayeredSettings.Value.Json
import LayeredSettings.Yaml.Content
import LayeredSettings.Fault
import LayeredSettings.FilePath

/-!
The formats that documents are written in.
-/

namespace LayeredSettings

inductive Format
  | yaml
  | json
  deriving DecidableEq, Repr

namespace Format

def name : Format → String
  | .yaml => "yaml"
  | .json => "json"

def ofName? : String → Option Format
  | "yaml" => some .yaml
  | "json" => some .json
  | _ => none

/-- A file is taken for YAML unless its extension is that of JSON, in any case. -/
def ofPath (path : String) : Format :=
  match FilePath.extension? path with
  | some e => if String.ofList (e.toList.map Char.toLower) = "json" then .json else .yaml
  | none => .yaml

def decode : Format → String → Except Fault Value
  | .yaml, text => (Value.readYaml? text).elim (.error .yaml) .ok
  | .json, text => (Value.readJson? text).elim (.error .json) .ok

end Format
end LayeredSettings
