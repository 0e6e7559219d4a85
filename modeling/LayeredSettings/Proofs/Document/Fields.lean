import LayeredSettings.Document.Layer
import LayeredSettings.Proofs.Except
import LayeredSettings.Proofs.Value.Integer

/-!
The elements of a written document and the layers that they stand for.

A field of a layer may stand in several places, of which the first that holds something other than
null counts. With that, the shapes of a data layer and of closing metadata are said on the element
itself, and reading an element accepts just these shapes.
-/

namespace LayeredSettings

/-- The first of several places that holds something other than null. -/
def firstPresent : List (Option Value) → Option Value
  | [] => none
  | none :: rest => firstPresent rest
  | some .null :: rest => firstPresent rest
  | some v :: _ => some v

@[simp] theorem firstPresent_nil : firstPresent [] = none := rfl

@[simp] theorem firstPresent_none (rest : List (Option Value)) :
    firstPresent (none :: rest) = firstPresent rest := rfl

@[simp] theorem firstPresent_null (rest : List (Option Value)) :
    firstPresent (some .null :: rest) = firstPresent rest := rfl

theorem firstPresent_get? (m : KeyMap Value) (key : String) (rest : List (Option Value)) :
    firstPresent (m.get? key :: rest) = (LayerFields.present? m key <|> firstPresent rest) := by
  unfold LayerFields.present?
  cases m.get? key with
  | none => rfl
  | some v => cases v <;> rfl

namespace Value

theorem asInt64?_eq_some_iff {v : Value} {k : Int64} :
    v.asInt64? = some k ↔ ∃ n, v = .number n ∧ n.integer? = some k.toInt := by
  cases v <;> simp [asInt64?, Number.asInt64?_eq_some_iff]

theorem asBool?_eq_some_iff {v : Value} {b : Bool} : v.asBool? = some b ↔ v = .bool b := by
  cases v <;> simp [asBool?]

end Value

namespace LayerFields

theorem present?_eq_none_iff {m : KeyMap Value} {key : String} :
    present? m key = none ↔ m.get? key = none ∨ m.get? key = some .null := by
  unfold present?
  cases m.get? key with
  | none => simp
  | some v => cases v <;> simp [Option.filter, Value.isNull]

theorem present?_eq_some_iff {m : KeyMap Value} {key : String} {v : Value} :
    present? m key = some v ↔ m.get? key = some v ∧ v ≠ .null := by
  unfold present?
  cases m.get? key with
  | none => simp
  | some u => cases u <;> simp +contextual [Option.filter, Value.isNull, eq_comm]

theorem expectMap_eq_ok_iff {field : String} {v : Value} {m : KeyMap Value} :
    expectMap field v = .ok m ↔ v = .map m := by
  cases v <;> simp [expectMap, Value.asMap?]

theorem target_eq_ok_iff {v? : Option Value} {target : Option (KeyMap Value)} :
    v?.mapM (expectMap "target") = .ok target ↔ v? = target.map .map := by
  cases v? with
  | none => cases target <;> simp
  | some v =>
    have mapped : (some v).mapM (expectMap "target") = (expectMap "target" v).map some := rfl
    rw [mapped, Except.map_eq_ok_iff]
    cases target <;> simp [expectMap_eq_ok_iff]

theorem getD_asString?_eq_iff {v? : Option Value} {s : String} (nonempty : s ≠ "") :
    (v?.bind Value.asString?).getD "" = s ↔ v? = some (.string s) := by
  cases v? with
  | none => simp [nonempty.symm]
  | some v => cases v <;> simp [Value.asString?, nonempty.symm]

theorem data_eq_ok_iff {f : LayerFields} {l : DataLayer} :
    f.data = .ok l ↔ f.name = some (.string l.name) ∧ l.name ≠ "" ∧
      f.settings = some (.map l.settings) ∧ f.target = l.target.map .map := by
  unfold data
  cases f.settings with
  | none => simp
  | some settings =>
    simp only [String.isEmpty_iff]
    split
    · rename_i empty
      constructor
      · intro h
        cases h
      · rintro ⟨name, named, -, -⟩
        exact absurd (((getD_asString?_eq_iff named).2 name).symm.trans empty) named
    · rename_i named
      simp only [Except.bind_eq_ok_iff, Except.pure_eq_ok_iff, expectMap_eq_ok_iff,
        target_eq_ok_iff, Option.some.injEq]
      constructor
      · rintro ⟨_, rfl, _, target, rfl⟩
        exact ⟨(getD_asString?_eq_iff named).1 rfl, named, rfl, target⟩
      · rintro ⟨name, nonempty, rfl, target⟩
        exact ⟨l.settings, rfl, l.target, target, by rw [(getD_asString?_eq_iff nonempty).2 name]⟩

theorem metadata_eq_ok_iff {f : LayerFields} {version : Int64} :
    f.metadata = .ok ⟨version, true⟩ ↔
      (f.version = none ∧ version = 0 ∨
        ∃ n, f.version = some (.number n) ∧ n.integer? = some version.toInt) ∧
      f.isEnd = some (.bool true) := by
  unfold metadata
  cases f.version with
  | none =>
    cases f.isEnd with
    | none => simp
    | some v => simp [Value.asBool?_eq_some_iff, @eq_comm _ (0 : Int64), and_comm]
  | some v =>
    cases f.isEnd with
    | none => simp
    | some w =>
      simp only [Except.bind_eq_ok_iff, Except.elim_eq_ok_iff, Value.asInt64?_eq_some_iff,
        Value.asBool?_eq_some_iff]
      simp

theorem layer_eq_data_iff {f : LayerFields} {l : DataLayer} :
    f.layer = .ok (.data l) ↔ f.version = none ∧ f.isEnd = none ∧ f.data = .ok l := by
  unfold layer hasMetadata
  cases hasVersion : f.version <;> cases hasEnd : f.isEnd <;>
    by_cases hasData : f.hasData = true <;> simp [hasData]

theorem layer_eq_metadata_iff {f : LayerFields} {m : Metadata} :
    f.layer = .ok (.metadata m) ↔
      f.hasMetadata = true ∧ f.hasData = false ∧ f.metadata = .ok m := by
  unfold layer
  by_cases hasMetadata : f.hasMetadata = true <;> by_cases hasData : f.hasData = true <;>
    simp [hasMetadata, hasData]

end LayerFields

namespace Element

/-- What stands under a key of the map that `meta` holds. -/
def nested? (m : KeyMap Value) (key : String) : Option Value := (m.get? "meta").bind (·.get? key)

def name? (m : KeyMap Value) : Option Value := firstPresent [m.get? "name", m.get? "filename"]

def target? (m : KeyMap Value) : Option Value := firstPresent [m.get? "target"]

def settings? (m : KeyMap Value) : Option Value := firstPresent [m.get? "settings"]

def version? (m : KeyMap Value) : Option Value :=
  firstPresent [m.get? "version", nested? m "version"]

def end? (m : KeyMap Value) : Option Value :=
  firstPresent [m.get? "end", nested? m "END", nested? m "end"]

/-- An element is a map whose `meta` is absent, null or a map. -/
structure IsMap (element : Value) (m : KeyMap Value) : Prop where
  eq_map : element = .map m
  nested : m.get? "meta" = none ∨ m.get? "meta" = some .null ∨ ∃ n, m.get? "meta" = some (.map n)

structure IsData (m : KeyMap Value) (l : DataLayer) : Prop where
  version : version? m = none
  isEnd : end? m = none
  name : name? m = some (.string l.name)
  named : l.name ≠ ""
  settings : settings? m = some (.map l.settings)
  target : target? m = l.target.map .map

/-- Metadata that ends a document. The version is 0 if none is given. -/
structure IsClosing (m : KeyMap Value) (version : Int64) : Prop where
  name : name? m = none
  target : target? m = none
  settings : settings? m = none
  version : version? m = none ∧ version = 0 ∨
    ∃ n, version? m = some (.number n) ∧ n.integer? = some version.toInt
  isEnd : end? m = some (.bool true)

def fields (m : KeyMap Value) : LayerFields where
  name := name? m
  target := target? m
  settings := settings? m
  version := version? m
  isEnd := end? m

theorem read_of_isMap {v : Value} {m : KeyMap Value} (isMap : IsMap v m) :
    LayerFields.read v = .ok (fields m) := by
  rw [isMap.eq_map]
  rcases isMap.nested with absent | null | ⟨n, held⟩
  · have none := LayerFields.present?_eq_none_iff.2 (.inl absent)
    simp [LayerFields.read, none, fields, name?, target?, settings?, version?, end?, nested?,
      absent, firstPresent_get?]
  · have none := LayerFields.present?_eq_none_iff.2 (.inr null)
    simp [LayerFields.read, none, fields, name?, target?, settings?, version?, end?, nested?, null,
      Value.get?, Value.asMap?, firstPresent_get?]
  · have some := LayerFields.present?_eq_some_iff.2 ⟨held, by simp⟩
    simp [LayerFields.read, some, fields, name?, target?, settings?, version?, end?, nested?, held,
      Value.get?, Value.asMap?, firstPresent_get?]

theorem isMap_of_read {v : Value} {f : LayerFields} (h : LayerFields.read v = .ok f) :
    ∃ m, IsMap v m := by
  cases v with
  | map m =>
    refine ⟨m, rfl, ?_⟩
    cases found : KeyMap.get? m "meta" with
    | none => exact .inl rfl
    | some held =>
      cases held with
      | null => exact .inr (.inl rfl)
      | map n => exact .inr (.inr ⟨n, rfl⟩)
      | _ =>
        have other := LayerFields.present?_eq_some_iff.2 ⟨found, by simp⟩
        simp [LayerFields.read, other] at h
  | _ => cases h

theorem read_eq_ok_iff {v : Value} {f : LayerFields} :
    LayerFields.read v = .ok f ↔ ∃ m, IsMap v m ∧ f = fields m := by
  constructor
  · intro h
    obtain ⟨m, isMap⟩ := isMap_of_read h
    rw [read_of_isMap isMap] at h
    cases h
    exact ⟨m, isMap, rfl⟩
  · rintro ⟨m, isMap, rfl⟩
    exact read_of_isMap isMap

/-- An element is read as a data layer exactly if it has the shape of one. -/
theorem ofValue_eq_data_iff {v : Value} {l : DataLayer} :
    Layer.ofValue v = .ok (.data l) ↔ ∃ m, IsMap v m ∧ IsData m l := by
  simp only [Layer.ofValue, Except.bind_eq_ok_iff, read_eq_ok_iff]
  constructor
  · rintro ⟨_, ⟨m, isMap, rfl⟩, h⟩
    obtain ⟨version, isEnd, h⟩ := LayerFields.layer_eq_data_iff.1 h
    obtain ⟨name, named, settings, target⟩ := LayerFields.data_eq_ok_iff.1 h
    exact ⟨m, isMap, version, isEnd, name, named, settings, target⟩
  · rintro ⟨m, isMap, isData⟩
    refine ⟨fields m, ⟨m, isMap, rfl⟩, LayerFields.layer_eq_data_iff.2 ⟨?_, ?_, ?_⟩⟩
    · exact isData.version
    · exact isData.isEnd
    · exact LayerFields.data_eq_ok_iff.2
        ⟨isData.name, isData.named, isData.settings, isData.target⟩

/-- An element is read as metadata that ends a document exactly if it has the shape of it. -/
theorem ofValue_eq_closing_iff {v : Value} {version : Int64} :
    Layer.ofValue v = .ok (.metadata ⟨version, true⟩) ↔ ∃ m, IsMap v m ∧ IsClosing m version := by
  simp only [Layer.ofValue, Except.bind_eq_ok_iff, read_eq_ok_iff]
  constructor
  · rintro ⟨_, ⟨m, isMap, rfl⟩, h⟩
    obtain ⟨-, noData, h⟩ := LayerFields.layer_eq_metadata_iff.1 h
    obtain ⟨version, isEnd⟩ := LayerFields.metadata_eq_ok_iff.1 h
    simp only [LayerFields.hasData, Bool.or_eq_false_iff, Option.isSome_eq_false_iff,
      Option.isNone_iff_eq_none] at noData
    obtain ⟨⟨name, target⟩, settings⟩ := noData
    exact ⟨m, isMap, name, target, settings, version, isEnd⟩
  · rintro ⟨m, isMap, closing⟩
    refine ⟨fields m, ⟨m, isMap, rfl⟩, LayerFields.layer_eq_metadata_iff.2 ⟨?_, ?_, ?_⟩⟩
    · simp [LayerFields.hasMetadata, fields, closing.isEnd]
    · simp [LayerFields.hasData, fields, closing.name, closing.target, closing.settings]
    · exact LayerFields.metadata_eq_ok_iff.2 ⟨closing.version, closing.isEnd⟩

end Element
end LayeredSettings
