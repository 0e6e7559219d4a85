import LayeredSettings.Document.Basic
import LayeredSettings.Proofs.Document.Fields
import Mathlib.Data.List.Forall2
import Mathlib.Data.Set.List

/-!
Which values are documents.

Checking goes through the elements one by one and then builds the document from their layers. The
second pass refuses nothing that the first one let through, so a value is a document exactly if its
elements have the shapes of data layers up to the last one, which closes it.
-/

namespace LayeredSettings.Document

theorem layers_eq (d : Document) :
    d.layers = d.dataLayers.map .data ++ [.metadata ⟨d.version, true⟩] := rfl

theorem data_cons_eq_layers_iff {l : DataLayer} {rest : List Layer} {d : Document} :
    .data l :: rest = d.layers ↔ ∃ (h : l.name ≠ "") (e : Document), d = cons l h e ∧
      rest = e.layers := by
  constructor
  · intro h
    obtain ⟨dataLayers, version, named⟩ := d
    cases dataLayers with
    | nil => simp [layers_eq] at h
    | cons k later =>
      simp only [layers_eq, List.map_cons, List.cons_append, List.cons.injEq, Layer.data.injEq] at h
      obtain ⟨rfl, rfl⟩ := h
      exact ⟨named l (by simp), ⟨later, version, fun k hk => named k (by simp [hk])⟩, rfl, rfl⟩
  · rintro ⟨h, e, rfl, rfl⟩
    rfl

theorem metadata_cons_eq_layers_iff {m : Metadata} {rest : List Layer} {d : Document} :
    .metadata m :: rest = d.layers ↔ d.dataLayers = [] ∧ m = ⟨d.version, true⟩ ∧ rest = [] := by
  rw [layers_eq]
  cases d.dataLayers with
  | nil => simp
  | cons k later => simp

/-- A document is built from its own layers and from no others. -/
theorem ofLayersFrom_eq_ok_iff {index : Nat} {layers : List Layer} {d : Document} :
    ofLayersFrom index layers = .ok d ↔ layers = d.layers := by
  fun_induction ofLayersFrom index layers generalizing d with
  | case1 index => simp [layers_eq]
  | case2 index l rest unnamed => simp [data_cons_eq_layers_iff, unnamed]
  | case3 index l rest named ih =>
    simp only [Except.map_eq_ok_iff, ih, data_cons_eq_layers_iff]
    constructor
    · rintro ⟨e, rfl, rfl⟩
      exact ⟨named, e, rfl, rfl⟩
    · rintro ⟨_, e, rfl, rfl⟩
      exact ⟨e, rfl, rfl⟩
  | case4 index m isEnd =>
    obtain ⟨version, _⟩ := m
    obtain ⟨dataLayers, v, named⟩ := d
    simp only at isEnd
    constructor
    · intro h
      cases h
      rw [metadata_cons_eq_layers_iff]
      exact ⟨rfl, by rw [isEnd], rfl⟩
    · intro h
      obtain ⟨rfl, m, -⟩ := metadata_cons_eq_layers_iff.1 h
      cases m
      rfl
  | case5 index m noEnd =>
    obtain ⟨version, _⟩ := m
    simp only [Bool.not_eq_true] at noEnd
    simp [metadata_cons_eq_layers_iff, noEnd]
  | case6 index m next rest => simp [metadata_cons_eq_layers_iff]

/-- An element is read as a layer when it is looked at by itself. -/
abbrev Reads (v : Value) (l : Layer) : Prop := Layer.ofValue v = .ok l

theorem forall₂_reads_iff_map {items : List Value} {layers : List Layer} :
    List.Forall₂ Reads items layers ↔ items.map Layer.ofValue = layers.map .ok := by
  rw [← List.forall₂_eq_eq_eq, List.forall₂_map_left_iff, List.forall₂_map_right_iff]

theorem checkItems_eq_ok_iff {index : Nat} {items : List Value} {layers : List Layer} :
    checkItems index items = .ok layers ↔
      List.Forall₂ Reads items layers ∧ ∀ l ∈ layers.dropLast, l.isMetadata = false := by
  induction items generalizing index layers with
  | nil => cases layers <;> simp [checkItems]
  | cons v rest ih =>
    simp only [checkItems, Layer.ofValueAt, Except.bind_eq_ok_iff, Except.mapError_eq_ok_iff]
    constructor
    · rintro ⟨l, read, h⟩
      split at h
      · cases h
      · rename_i placed
        simp only [Except.bind_eq_ok_iff, Except.pure_eq_ok_iff, ih] at h
        obtain ⟨later, ⟨all, data⟩, rfl⟩ := h
        refine ⟨.cons read all, ?_⟩
        cases all with
        | nil => simp
        | cons _ _ =>
          simp only [List.dropLast_cons_cons, List.mem_cons]
          rintro k (rfl | member)
          · simpa using placed
          · exact data k member
    · rintro ⟨all, data⟩
      cases all with
      | @cons _ l _ later read all =>
        refine ⟨l, read, ?_⟩
        have placed : ¬ (l.isMetadata = true ∧ rest ≠ []) := by
          rintro ⟨isMetadata, more⟩
          cases all with
          | nil => exact more rfl
          | cons _ _ =>
            have isData := data l (by simp)
            rw [isMetadata] at isData
            cases isData
        rw [if_neg placed]
        simp only [Except.bind_eq_ok_iff, Except.pure_eq_ok_iff, ih]
        refine ⟨later, ⟨all, ?_⟩, rfl⟩
        cases later with
        | nil => simp
        | cons k rest =>
          intro j member
          exact data j (by simp [member])

theorem exists_map_data {layers : List Layer} (h : ∀ l ∈ layers, l.isMetadata = false) :
    ∃ data : List DataLayer, data.map .data = layers := by
  have range : layers ∈ Set.range (List.map Layer.data) := by
    rw [Set.range_list_map]
    intro l member
    cases l with
    | data l => exact ⟨l, rfl⟩
    | metadata m => cases h _ member
  exact range

/-- Checked layers are data layers closed by metadata that ends the document. -/
theorem check_eq_ok_iff {v : Value} {layers : List Layer} :
    check v = .ok layers ↔ ∃ items, v = .list items ∧ List.Forall₂ Reads items layers ∧
      ∃ (data : List DataLayer) (version : Int64),
        layers = data.map .data ++ [.metadata ⟨version, true⟩] := by
  cases v with
  | list items =>
    simp only [check, Except.bind_eq_ok_iff, checkItems_eq_ok_iff, Value.list.injEq,
      exists_eq_left']
    constructor
    · rintro ⟨found, ⟨all, onlyData⟩, h⟩
      split at h
      · rename_i version closed
        cases h
        obtain ⟨init, rfl⟩ := List.getLast?_eq_some_iff.1 closed
        rw [List.dropLast_concat] at onlyData
        obtain ⟨data, rfl⟩ := exists_map_data onlyData
        exact ⟨all, data, version, rfl⟩
      · cases h
    · rintro ⟨all, data, version, rfl⟩
      refine ⟨_, ⟨all, ?_⟩, by simp⟩
      rw [List.dropLast_concat]
      intro l member
      obtain ⟨k, -, rfl⟩ := List.mem_map.1 member
      rfl
  | _ => simp [check]

/-- Building a document refuses nothing that was checked. -/
theorem ofValue_eq_ok_iff {v : Value} {d : Document} :
    ofValue v = .ok d ↔ check v = .ok d.layers := by
  simp only [ofValue, ofLayers, Except.bind_eq_ok_iff, ofLayersFrom_eq_ok_iff, exists_eq_right]

/-- An element that stands for a data layer. -/
def HoldsData (element : Value) (l : DataLayer) : Prop :=
  ∃ m, Element.IsMap element m ∧ Element.IsData m l

/-- An element that closes a document of a version. -/
def Closes (element : Value) (version : Int64) : Prop :=
  ∃ m, Element.IsMap element m ∧ Element.IsClosing m version

theorem forall₂_reads_iff {items : List Value} {data : List DataLayer} {version : Int64} :
    List.Forall₂ Reads items (data.map .data ++ [.metadata ⟨version, true⟩]) ↔
      ∃ elements last, items = elements ++ [last] ∧ List.Forall₂ HoldsData elements data ∧
        Closes last version := by
  constructor
  · intro all
    have front := List.forall₂_take_append items _ _ all
    have back := List.forall₂_drop_append items _ _ all
    rw [List.forall₂_map_right_iff] at front
    simp only [Reads, Element.ofValue_eq_data_iff] at front
    obtain ⟨last, _, closes, none, dropped⟩ := List.forall₂_cons_right_iff.1 back
    rw [List.forall₂_nil_right_iff] at none
    subst none
    refine ⟨_, last, ?_, front, Element.ofValue_eq_closing_iff.1 closes⟩
    rw [← dropped, List.take_append_drop]
  · rintro ⟨elements, last, rfl, front, closes⟩
    have read : List.Forall₂ Reads elements (data.map .data) := by
      rw [List.forall₂_map_right_iff]
      exact front.imp fun _ _ h => Element.ofValue_eq_data_iff.2 h
    exact List.rel_append read (.cons (Element.ofValue_eq_closing_iff.2 closes) .nil)

theorem ofValue_eq_ok_iff_elements {v : Value} {d : Document} :
    ofValue v = .ok d ↔ ∃ elements last, v = .list (elements ++ [last]) ∧
      List.Forall₂ HoldsData elements d.dataLayers ∧ Closes last d.version := by
  rw [ofValue_eq_ok_iff, check_eq_ok_iff, layers_eq]
  constructor
  · rintro ⟨items, rfl, all, -⟩
    obtain ⟨elements, last, rfl, front, closes⟩ := forall₂_reads_iff.1 all
    exact ⟨elements, last, rfl, front, closes⟩
  · rintro ⟨elements, last, rfl, front, closes⟩
    exact ⟨_, rfl, forall₂_reads_iff.2 ⟨elements, last, rfl, front, closes⟩, _, _, rfl⟩

theorem exists_holdsData {elements : List Value} {data : List DataLayer}
    (all : List.Forall₂ HoldsData elements data) : ∀ e ∈ elements, ∃ l, HoldsData e l := by
  induction all with
  | nil => simp
  | @cons e l _ _ holds _ ih =>
    intro k member
    rcases List.mem_cons.1 member with rfl | member
    · exact ⟨l, holds⟩
    · exact ih k member

/-- The layers that elements hold make a document together with what closes it. -/
theorem exists_document {elements : List Value} (held : ∀ e ∈ elements, ∃ l, HoldsData e l)
    (version : Int64) :
    ∃ d : Document, List.Forall₂ HoldsData elements d.dataLayers ∧ d.version = version := by
  induction elements with
  | nil => exact ⟨⟨[], version, by simp⟩, .nil, rfl⟩
  | cons e rest ih =>
    obtain ⟨l, holds⟩ := held e (by simp)
    obtain ⟨d, all, rfl⟩ := ih fun e member => held e (List.mem_cons_of_mem _ member)
    obtain ⟨m, -, isData⟩ := id holds
    exact ⟨cons l isData.named d, .cons holds all, rfl⟩

/-- A value is a document exactly if it is a list whose elements stand for data layers up to the
last one, which closes it; then the document has the layers of these elements in order. -/
theorem ofValue_ok_iff_elements (v : Value) :
    ((∃ d, ofValue v = .ok d) ↔
      ∃ elements last, v = .list (elements ++ [last]) ∧ (∀ e ∈ elements, ∃ l, HoldsData e l) ∧
        ∃ version, Closes last version) ∧
    ∀ d elements last, ofValue v = .ok d → v = .list (elements ++ [last]) →
      ∃ data version, d.layers = data.map .data ++ [.metadata ⟨version, true⟩] ∧
        List.Forall₂ HoldsData elements data ∧ Closes last version := by
  refine ⟨⟨?_, ?_⟩, ?_⟩
  · rintro ⟨d, h⟩
    obtain ⟨elements, last, rfl, all, closes⟩ := ofValue_eq_ok_iff_elements.1 h
    exact ⟨elements, last, rfl, exists_holdsData all, d.version, closes⟩
  · rintro ⟨elements, last, rfl, held, version, closes⟩
    obtain ⟨d, all, rfl⟩ := exists_document held version
    exact ⟨d, ofValue_eq_ok_iff_elements.2 ⟨elements, last, rfl, all, closes⟩⟩
  · rintro d elements last h rfl
    obtain ⟨front, final, same, all, closes⟩ := ofValue_eq_ok_iff_elements.1 h
    obtain ⟨rfl, lasts⟩ := List.append_inj' (Value.list.inj same) rfl
    cases lasts
    exact ⟨d.dataLayers, d.version, d.layers_eq, all, closes⟩

/-- Both spellings and fields that are null, in one document. -/
theorem exists_document_mixed_spelling :
    let layer : Value := .map [("filename", .string "a.yml"), ("meta", .null), ("name", .null),
      ("settings", .map [("x", .null)]), ("target", .null)]
    let closing : Value := .map [("end", .null), ("meta", .map [("END", .bool true),
      ("end", .bool false), ("version", .number (.uint 7))])]
    ∃ d, ofValue (.list [layer, closing]) = .ok d ∧ ∃ data version,
      d.layers = data.map .data ++ [.metadata ⟨version, true⟩] ∧
        List.Forall₂ HoldsData [layer] data ∧ Closes closing version := by
  intro layer closing
  have holds : HoldsData layer ⟨"a.yml", none, [("x", .null)]⟩ :=
    ⟨_, ⟨rfl, .inr (.inl rfl)⟩, rfl, rfl, rfl, by decide, rfl, rfl⟩
  have closes : Closes closing 7 :=
    ⟨_, ⟨rfl, .inr (.inr ⟨_, rfl⟩)⟩, rfl, rfl, rfl, .inr ⟨.uint 7, rfl, rfl⟩, rfl⟩
  obtain ⟨d, h⟩ := (ofValue_ok_iff_elements (.list [layer, closing])).1.2
    ⟨[layer], closing, rfl, by simpa using ⟨_, holds⟩, 7, closes⟩
  exact ⟨d, h, (ofValue_ok_iff_elements _).2 d [layer] closing h rfl⟩

end LayeredSettings.Document
