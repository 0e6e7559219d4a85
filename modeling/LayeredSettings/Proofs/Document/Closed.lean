import LayeredSettings.Proofs.Document.Acceptance

/-!
Which lists of layers are documents.

Layers are looked at twice on their way from a value to a document: as elements of the value and
once more as layers. Both times the same lists are let through, so the second look finds no fault
that the first one missed.
-/

namespace LayeredSettings

namespace Layer

def data? : Layer → Option DataLayer
  | .data l => some l
  | .metadata _ => none

end Layer

namespace Document

/-- Layers with names up to the last one, which is metadata that ends a document. -/
structure Closed (layers : List Layer) : Prop where
  nonempty : layers ≠ []
  data : ∀ l ∈ layers.dropLast, ∃ k : DataLayer, l = .data k ∧ k.name ≠ ""
  ending : ∃ version, layers.getLast? = some (.metadata ⟨version, true⟩)

theorem ofLayers_eq_ok_iff {layers : List Layer} {d : Document} :
    ofLayers layers = .ok d ↔ layers = d.layers :=
  ofLayersFrom_eq_ok_iff

theorem getLast?_layers (d : Document) : d.layers.getLast? = some (.metadata d.metadata) := by
  rw [layers, List.getLast?_concat]

theorem dropLast_layers (d : Document) : d.layers.dropLast = d.dataLayers.map .data := by
  rw [layers, List.dropLast_concat]

theorem closed_layers (d : Document) : Closed d.layers where
  nonempty := by simp [layers]
  data := by
    rw [dropLast_layers]
    intro l member
    obtain ⟨k, held, rfl⟩ := List.mem_map.1 member
    exact ⟨k, rfl, d.named k held⟩
  ending := ⟨d.version, d.getLast?_layers⟩

theorem exists_layers_eq_iff {layers : List Layer} :
    (∃ d : Document, layers = d.layers) ↔ Closed layers := by
  constructor
  · rintro ⟨d, rfl⟩
    exact d.closed_layers
  · rintro ⟨-, data, version, ending⟩
    obtain ⟨front, rfl⟩ := List.getLast?_eq_some_iff.1 ending
    rw [List.dropLast_concat] at data
    have isData : ∀ l ∈ front, l.isMetadata = false := by
      intro l member
      obtain ⟨k, rfl, -⟩ := data l member
      rfl
    obtain ⟨dataLayers, rfl⟩ := exists_map_data isData
    refine ⟨⟨dataLayers, version, ?_⟩, rfl⟩
    intro k member
    obtain ⟨j, same, named⟩ := data (.data k) (List.mem_map_of_mem member)
    cases same
    exact named

/-- The second look lets through what the first one does. -/
theorem exists_document_of_check {v : Value} {layers : List Layer}
    (checked : check v = .ok layers) : ∃ d, ofLayers layers = .ok d ∧ ofValue v = .ok d := by
  obtain ⟨items, rfl, read, data, version, rfl⟩ := check_eq_ok_iff.1 checked
  obtain ⟨elements, last, rfl, held, closes⟩ := forall₂_reads_iff.1 read
  obtain ⟨d, all, rfl⟩ := exists_document (exists_holdsData held) version
  have accepted := ofValue_eq_ok_iff_elements.2 ⟨elements, last, rfl, all, closes⟩
  refine ⟨d, ?_, accepted⟩
  rwa [ofValue, checked] at accepted

theorem ofValue_eq_error_iff {v : Value} {fault : Fault} :
    ofValue v = .error fault ↔ check v = .error fault := by
  rw [ofValue, Except.bind_eq_error_iff]
  constructor
  · rintro (faulty | ⟨layers, checked, refused⟩)
    · exact faulty
    · obtain ⟨d, built, -⟩ := exists_document_of_check checked
      rw [built] at refused
      cases refused
  · exact .inl

/-- A document can be built from layers exactly if they are closed, and it has these layers.
Checking a value finds the layers of the document that it stands for, or else the fault that is
reported. In every document the metadata comes last and only there, it ends the document, and all
other layers have names. -/
theorem documents_are_closed_layers :
    (∀ layers : List Layer,
      ((∃ d, ofLayers layers = .ok d) ↔ Closed layers) ∧
      ∀ d, ofLayers layers = .ok d →
        d.layers = layers ∧ layers.getLast? = some (.metadata d.metadata)) ∧
    (∀ v : Value,
      (∀ d, ofValue v = .ok d ↔ check v = .ok d.layers) ∧
      (∀ fault, ofValue v = .error fault ↔ check v = .error fault) ∧
      ∀ layers, check v = .ok layers → ∃ d, ofLayers layers = .ok d ∧ ofValue v = .ok d) ∧
    ∀ d : Document,
      d.layers.filter Layer.isMetadata = [.metadata ⟨d.version, true⟩] ∧
      d.layers.getLast? = some (.metadata ⟨d.version, true⟩) ∧
      d.layers.filterMap Layer.data? = d.dataLayers ∧
      (∀ l, .data l ∈ d.layers → l.name ≠ "") ∧
      d.layers.length = d.size ∧ d.size = d.dataLayers.length + 1 := by
  refine ⟨fun layers => ⟨?_, ?_⟩, fun v => ⟨?_, ?_, ?_⟩, fun d => ⟨?_, ?_, ?_, ?_, ?_, rfl⟩⟩
  · simp only [ofLayers_eq_ok_iff]
    exact exists_layers_eq_iff
  · intro d built
    obtain rfl := ofLayers_eq_ok_iff.1 built
    exact ⟨rfl, d.getLast?_layers⟩
  · exact fun d => ofValue_eq_ok_iff
  · exact fun fault => ofValue_eq_error_iff
  · exact fun layers checked => exists_document_of_check checked
  · simp [layers_eq, List.filter_append, List.filter_map, Layer.isMetadata, Function.comp_def]
  · exact d.getLast?_layers
  · simp [layers_eq, Layer.data?, Function.comp_def]
  · intro l member
    exact d.named l (by simpa [layers_eq] using member)
  · simp [layers_eq, size]

theorem closed_layers_versioned :
    let layers : List Layer := [.data ⟨"a", some [], [("x", .null)]⟩, .metadata ⟨7, true⟩]
    let v : Value := .list [.map [("name", .string "a"), ("settings", .map [("x", .null)]),
      ("target", .map [])], .map [("end", .bool true), ("version", .number (.int 7))]]
    Closed layers ∧ check v = .ok layers ∧
      ∃ d, ofLayers layers = .ok d ∧ ofValue v = .ok d ∧ d.layers = layers ∧
        layers.getLast? = some (.metadata d.metadata) := by
  intro layers v
  have closed : Closed layers := ⟨by simp [layers], by simp [layers], 7, rfl⟩
  have checked : check v = .ok layers := rfl
  obtain ⟨onLayers, onValues, -⟩ := documents_are_closed_layers
  obtain ⟨d, built, accepted⟩ := (onValues v).2.2 layers checked
  exact ⟨closed, checked, d, built, accepted, (onLayers layers).2 d built⟩

end Document
end LayeredSettings
