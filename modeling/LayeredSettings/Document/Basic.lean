import LayeredSettings.Document.Layer
import LayeredSettings.Format

/-!
Documents: data layers in order, closed by metadata.

A document is built from layers or from a decoded value. Both ways report the first offence from the
left; only after that the closing metadata is looked for.
-/

namespace LayeredSettings

/-- The closing metadata always ends the document, so only its version is kept. -/
structure Document where
  dataLayers : List DataLayer
  version : Int64
  named : ∀ l ∈ dataLayers, l.name ≠ ""

namespace Document

def metadata (d : Document) : Metadata := ⟨d.version, true⟩

def layers (d : Document) : List Layer := d.dataLayers.map .data ++ [.metadata d.metadata]

def size (d : Document) : Nat := d.dataLayers.length + 1

def cons (l : DataLayer) (h : l.name ≠ "") (d : Document) : Document :=
  { d with
    dataLayers := l :: d.dataLayers
    named := by
      intro k hk
      rcases List.mem_cons.1 hk with rfl | hk
      · exact h
      · exact d.named k hk }

/-- Layers from an index on. -/
def ofLayersFrom (index : Nat) : List Layer → Except Fault Document
  | [] => .error (.whole .missingMetadata)
  | .data l :: rest =>
    if h : l.name = "" then .error (.layer index .incomplete none)
    else (ofLayersFrom (index + 1) rest).map (cons l h)
  | .metadata m :: [] =>
    if m.isEnd then .ok ⟨[], m.version, by simp⟩ else .error (.whole .missingMetadata)
  | .metadata _ :: _ :: _ => .error (.layer index .misplacedMetadata none)

def ofLayers (layers : List Layer) : Except Fault Document := ofLayersFrom 0 layers

/-- The layers that items from an index on stand for. -/
def checkItems (index : Nat) : List Value → Except Fault (List Layer)
  | [] => .ok []
  | v :: rest => do
    let layer ← Layer.ofValueAt index v
    if layer.isMetadata ∧ rest ≠ [] then
      .error (.layer index .misplacedMetadata (some v.text))
    else return layer :: (← checkItems (index + 1) rest)

/-- The layers of a decoded document, of which the last must be metadata that ends it. -/
def check (v : Value) : Except Fault (List Layer) :=
  match v with
  | .list items => do
    let layers ← checkItems 0 items
    match layers.getLast? with
    | some (.metadata ⟨_, true⟩) => .ok layers
    | _ => .error (.whole .missingMetadata)
  | v => .error (.whole (.notAList v.kind))

def ofValue (v : Value) : Except Fault Document := check v >>= ofLayers

def parse (format : Format) (text : String) : Except Fault Document :=
  format.decode text >>= ofValue

end Document
end LayeredSettings
