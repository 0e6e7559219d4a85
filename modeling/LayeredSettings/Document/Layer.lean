import LayeredSettings.Value.Json
import LayeredSettings.Fault

/-!
Layers of a document.

A layer holds settings, possibly under a target, or the metadata of the document. Two spellings of
its fields are understood, a flat one and one with a nested `meta`; a field that is null counts as
absent.
-/

namespace LayeredSettings

structure DataLayer where
  name : String
  target : Option (KeyMap Value)
  settings : KeyMap Value

structure Metadata where
  version : Int64
  isEnd : Bool
  deriving DecidableEq

inductive Layer
  | data (layer : DataLayer)
  | metadata (m : Metadata)

namespace Layer

def isMetadata : Layer → Bool
  | .metadata _ => true
  | .data _ => false

/-- The fields of a layer in the order in which they are written; an absent target is left out. -/
def fields : Layer → List (String × Value)
  | .data l =>
    ("name", .string l.name) :: (l.target.map fun t => ("target", Value.map t)).toList ++
      [("settings", .map l.settings)]
  | .metadata m => [("version", .number (.int m.version)), ("end", .bool m.isEnd)]

def text (l : Layer) : String := (Value.map l.fields).text

def toJson (l : Layer) : Json := (Value.map (KeyMap.ofList l.fields)).toJson

end Layer

/-- The fields of a layer in either spelling, before their values are checked. -/
structure LayerFields where
  name : Option Value
  target : Option Value
  settings : Option Value
  version : Option Value
  isEnd : Option Value

namespace LayerFields

/-- The value under a key unless it is null. -/
def present? (m : KeyMap Value) (key : String) : Option Value :=
  (m.get? key).filter (!·.isNull)

def read (v : Value) : Except LayerFault LayerFields :=
  match v with
  | .map m =>
    let fieldsWith (nested : String → Option Value) : LayerFields :=
      { name := present? m "name" <|> present? m "filename"
        target := present? m "target"
        settings := present? m "settings"
        version := present? m "version" <|> nested "version"
        isEnd := present? m "end" <|> nested "END" <|> nested "end" }
    match present? m "meta" with
    | none => .ok (fieldsWith fun _ => none)
    | some (.map nested) => .ok (fieldsWith (present? nested))
    | some other => .error (.metaNotAMap other.kind)
  | v => .error (.notAMap v.kind)

def hasMetadata (f : LayerFields) : Bool := f.version.isSome || f.isEnd.isSome

def hasData (f : LayerFields) : Bool := f.name.isSome || f.target.isSome || f.settings.isSome

def metadata (f : LayerFields) : Except LayerFault Metadata := do
  let version ← match f.version with
    | none => .ok 0
    | some v => v.asInt64?.elim (.error .versionNotInteger) .ok
  let isEnd ← match f.isEnd with
    | none => .ok false
    | some v => v.asBool?.elim (.error .endNotBool) .ok
  return ⟨version, isEnd⟩

def expectMap (field : String) (v : Value) : Except LayerFault (KeyMap Value) :=
  v.asMap?.elim (.error (.fieldNotAMap field v.kind)) .ok

def data (f : LayerFields) : Except LayerFault DataLayer := do
  let name := (f.name.bind Value.asString?).getD ""
  match f.settings with
  | none => .error .incomplete
  | some settings =>
    if name.isEmpty then .error .incomplete
    else
      let settings ← expectMap "settings" settings
      let target ← f.target.mapM (expectMap "target")
      return ⟨name, target, settings⟩

/-- A layer is metadata if it has any field of metadata; then it must have no field of data. -/
def layer (f : LayerFields) : Except LayerFault Layer :=
  if f.hasMetadata then
    if f.hasData then .error .mixed else f.metadata.map .metadata
  else f.data.map .data

end LayerFields

/-- One layer of a document, by itself. -/
def Layer.ofValue (v : Value) : Except LayerFault Layer := LayerFields.read v >>= LayerFields.layer

/-- The layer at an index of a document. -/
def Layer.ofValueAt (index : Nat) (v : Value) : Except Fault Layer :=
  (Layer.ofValue v).mapError fun cause => .layer index cause (some v.text)

end LayeredSettings
