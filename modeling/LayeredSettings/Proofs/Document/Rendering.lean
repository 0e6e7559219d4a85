import LayeredSettings.Proofs.Document.Acceptance
import LayeredSettings.Proofs.Value.Conversion

/-!
Documents that are written out layer by layer and read again.

A layer is written as a map in the flat spelling. Nothing in its settings or its target can be
taken for a field of the layer, as these lie a level deeper, so each map stands for the layer that
it was made from.
-/

namespace LayeredSettings

namespace DataLayer

/-- The numbers in the target and in the settings. -/
def numbers (l : DataLayer) : List Number :=
  Value.numbersOfEntries (l.target.getD []) ++ Value.numbersOfEntries l.settings

end DataLayer

namespace Layer

/-- The map that a layer is written as, its keys in order. -/
def element : Layer → KeyMap Value
  | .data l =>
    [("name", .string l.name), ("settings", .map l.settings)] ++
      (l.target.map fun t => ("target", Value.map t)).toList
  | .metadata m => [("end", .bool m.isEnd), ("version", .number (.int m.version))]

theorem ofList_fields (l : Layer) : KeyMap.ofList l.fields = l.element := by
  have name_settings : "name" < "settings" := by decide
  have name_target : "name" < "target" := by decide
  have settings_target : "settings" < "target" := by decide
  have end_version : "end" < "version" := by decide
  cases l with
  | data l =>
    obtain ⟨name, target, settings⟩ := l
    cases target with
    | none =>
      simp only [fields, KeyMap.ofList, Option.map_none, Option.toList_none, List.cons_append,
        List.nil_append, List.foldl_cons, List.foldl_nil, KeyMap.insert_nil,
        KeyMap.insert_cons_of_gt name_settings]
      rfl
    | some t =>
      simp only [fields, KeyMap.ofList, Option.map_some, Option.toList_some, List.cons_append,
        List.nil_append, List.foldl_cons, List.foldl_nil, KeyMap.insert_nil,
        KeyMap.insert_cons_of_gt name_target, KeyMap.insert_cons_of_gt name_settings,
        KeyMap.insert_cons_of_lt settings_target]
      rfl
  | metadata m =>
    simp only [fields, KeyMap.ofList, List.foldl_cons, List.foldl_nil, KeyMap.insert_nil,
      KeyMap.insert_cons_of_lt end_version]
    rfl

theorem toJson_eq_element (l : Layer) : l.toJson = (Value.map l.element).toJson := by
  rw [toJson, ofList_fields]

theorem holdsData_element {l : DataLayer} (named : l.name ≠ "") :
    Document.HoldsData (.map (element (.data l))) l := by
  obtain ⟨name, target, settings⟩ := l
  refine ⟨_, ⟨rfl, .inl ?_⟩, ?_⟩
  · cases target <;> rfl
  · cases target <;> exact ⟨rfl, rfl, rfl, named, rfl, rfl⟩

theorem closes_element (version : Int64) :
    Document.Closes (.map (element (.metadata ⟨version, true⟩))) version :=
  ⟨_, ⟨rfl, .inl rfl⟩, rfl, rfl, rfl, .inr ⟨_, rfl, rfl⟩, rfl⟩

theorem ofJson_toJson_data {l : DataLayer} (plain : ∀ n ∈ l.numbers, n.Plain) :
    Value.ofJson (Layer.data l).toJson = .map (element (.data l)) := by
  rw [toJson_eq_element]
  apply Value.ofJson_toJson
  obtain ⟨name, target, settings⟩ := l
  obtain ⟨inTarget, inSettings⟩ := List.forall_mem_append.1 plain
  cases target with
  | none => simpa [element, Value.numbers, Value.numbersOfEntries] using inSettings
  | some t =>
    simpa [element, Value.numbers, Value.numbersOfEntries, or_imp, forall_and] using
      And.intro inSettings inTarget

theorem ofJson_toJson_metadata (m : Metadata) :
    Value.ofJson (Layer.metadata m).toJson = .map (element (.metadata m)) := by
  rw [toJson_eq_element]
  apply Value.ofJson_toJson
  intro n member
  obtain rfl : n = .int m.version := by
    simpa [element, Value.numbers, Value.numbersOfEntries] using member
  exact ⟨trivial, trivial⟩

end Layer

namespace Document

/-- The numbers in targets and settings. -/
def numbers (d : Document) : List Number := d.dataLayers.flatMap DataLayer.numbers

theorem ofJson_layers {d : Document} (plain : ∀ n ∈ d.numbers, n.Plain) :
    Value.ofJson (.array (d.layers.map Layer.toJson)) =
      .list (d.dataLayers.map (fun l => .map (Layer.element (.data l))) ++
        [.map (Layer.element (.metadata ⟨d.version, true⟩))]) := by
  have data : d.dataLayers.map (fun l => Value.ofJson (Layer.data l).toJson) =
      d.dataLayers.map (fun l => .map (Layer.element (.data l))) := by
    apply List.map_congr_left
    intro l member
    exact Layer.ofJson_toJson_data fun n held => plain n (List.mem_flatMap.2 ⟨l, member, held⟩)
  simp only [Value.ofJson, Value.ofJsonItems_eq_map, layers_eq, List.map_append, List.map_map,
    Function.comp_def, data, List.map_cons, List.map_nil, Layer.ofJson_toJson_metadata]

/-- Each layer of a document is written as an object with just its own fields, of which an absent
target is none. The list of these objects is read as the same document. -/
theorem ofValue_of_layers_written (d : Document) (plain : ∀ n ∈ d.numbers, n.Plain) :
    (∀ l ∈ d.dataLayers, (Layer.data l).toJson = .object
      ([("name", .string l.name), ("settings", .object (Value.toJsonEntries l.settings))] ++
        (l.target.map fun t => ("target", Json.object (Value.toJsonEntries t))).toList)) ∧
    (Layer.metadata d.metadata).toJson =
      .object [("end", .bool true), ("version", (Number.int d.version).toJson)] ∧
    ofValue (Value.ofJson (.array (d.layers.map Layer.toJson))) = .ok d := by
  refine ⟨?_, ?_, ?_⟩
  · rintro ⟨name, target, settings⟩ -
    rw [Layer.toJson_eq_element]
    cases target <;> rfl
  · rw [Layer.toJson_eq_element]
    rfl
  · rw [ofJson_layers plain]
    refine ofValue_eq_ok_iff_elements.2 ⟨_, _, rfl, ?_, Layer.closes_element d.version⟩
    rw [List.forall₂_map_left_iff, List.forall₂_same]
    exact fun l member => Layer.holdsData_element (d.named l member)

/-- Settings with keys that are spelled like fields of a layer, an empty target beside an absent
one, null and the largest unsigned number. -/
theorem ofValue_of_layers_written_lookalike :
    let settings : KeyMap Value := [("end", .bool true), ("meta", .map [("version", .null)]),
      ("name", .null), ("ratio", .number (.float 0.5)), ("version", .number (.uint (-1)))]
    let d : Document := ⟨[⟨"base", none, settings⟩, ⟨"base", some [], [("target", .list [])]⟩,
      ⟨"meta", some [("settings", .number (.int (-1)))], []⟩], -3, by decide⟩
    (∀ n ∈ d.numbers, n.Plain) ∧
      ofValue (Value.ofJson (.array (d.layers.map Layer.toJson))) = .ok d := by
  intro settings d
  have plain : ∀ n ∈ d.numbers, n.Plain := by decide
  exact ⟨plain, (ofValue_of_layers_written d plain).2.2⟩

end Document
end LayeredSettings
