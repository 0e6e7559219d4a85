import LayeredSettings.Program.Command
import LayeredSettings.Proofs.Json.Builders
import LayeredSettings.Proofs.Value.Conversion

/-!
Two ways of reading JSON.

JSON text is read into a value at once, or into a tree that is then converted. The first way takes
each number in the form that the text gives it. A tree holds finite numbers only, and its conversion
tries one form after the other. Neither finds another value than the other one.
-/

namespace LayeredSettings

namespace Value

theorem ofJsonNumber_unsigned (n : UInt64) :
    ofJsonNumber (.unsigned n) = .number (.ofUInt64 n) := by
  unfold ofJsonNumber Number.ofUInt64
  by_cases fits : n ≤ 0x7fffffffffffffff
  · have signed : (Json.unsigned n).asInt64? = some n.toInt64 := if_pos fits
    rw [signed, if_pos fits]
  · have unsigned : (Json.unsigned n).asInt64? = none := if_neg fits
    rw [unsigned, if_neg fits]
    exact congrArg Value.number (if_neg fits)

mutual
/-- Converting a tree is building a value from its parts. -/
theorem convert_eq_fold (j : Json) : convert j = j.fold ofJsonParts := by
  cases j with
  | unsigned n => exact ofJsonNumber_unsigned n
  | array items => rw [convert, Json.fold, convertItems_eq_foldItems items, ofJsonParts]
  | object entries => rw [convert, Json.fold, convertEntries_eq_foldEntries entries, ofJsonParts]
  | _ => rfl

theorem convertItems_eq_foldItems (items : List Json) :
    convertItems items = Json.foldItems ofJsonParts items := by
  cases items with
  | nil => rfl
  | cons j rest =>
    rw [convertItems, Json.foldItems, convert_eq_fold j, convertItems_eq_foldItems rest]

theorem convertEntries_eq_foldEntries (entries : List (String × Json)) :
    convertEntries entries = Json.foldEntries ofJsonParts entries := by
  cases entries with
  | nil => rfl
  | cons e rest =>
    obtain ⟨k, j⟩ := e
    rw [convertEntries, Json.foldEntries, convert_eq_fold j, convertEntries_eq_foldEntries rest]
end

theorem convertItems_eq_map (items : List Json) : convertItems items = items.map convert := by
  induction items with
  | nil => rfl
  | cons j rest ih => rw [convertItems, ih, List.map_cons]

theorem convertEntries_eq_mapValues (entries : List (String × Json)) :
    convertEntries entries = KeyMap.mapValues convert entries := by
  induction entries with
  | nil => rfl
  | cons e rest ih =>
    rw [convertEntries, ih]
    rfl

/-! ## Trees of a text -/

theorem respected_ofJson : Json.tree.Respected ofJsonParts ofJson where
  null := rfl
  bool _ := rfl
  unsigned _ := rfl
  negative _ := rfl
  float _ _ := rfl
  string _ := rfl
  array items := congrArg Value.list (ofJsonItems_eq_map items)
  object entries := by
    show Value.map (ofJsonEntries (KeyMap.ofList entries)) = .map (KeyMap.ofList _)
    rw [ofJsonEntries_eq_mapValues, KeyMap.ofList_mapValues]

theorem respected_convert : Json.finiteTree.Respected ofJsonParts convert where
  null := rfl
  bool _ := rfl
  unsigned := ofJsonNumber_unsigned
  negative _ := rfl
  float x finite := by
    show convert (if x.isFinite then .float x else .null) = .number (.float x)
    rw [if_pos finite]
    rfl
  string _ := rfl
  array items := congrArg Value.list (convertItems_eq_map items)
  object entries := by
    have ordered : KeyMap.Ordered (KeyMap.mapValues convert (KeyMap.ofList entries)) :=
      KeyMap.ordered_mapValues.2 (KeyMap.ordered_ofList entries)
    show Value.map (KeyMap.ofList (convertEntries (KeyMap.ofList entries))) = .map (KeyMap.ofList _)
    rw [convertEntries_eq_mapValues, KeyMap.ofList_of_ordered ordered, KeyMap.ofList_mapValues]

theorem readJson?_eq_map_ofJson (text : String) :
    readJson? text = (Json.read? text).map ofJson :=
  Json.readWith?_map respected_ofJson text

theorem readJson?_eq_map_convert (text : String) :
    readJson? text = (Json.readWith? Json.finiteTree text).map convert :=
  Json.readWith?_map respected_convert text

end Value

/-- Every text is read into one and the same value, or refused, whether the value is built at once
or converted from a tree; and it makes no difference which of the forms of a number a conversion
tries first, or whether trees have room for numbers that are not finite. -/
theorem WrittenValue.decode_tree (text : String) :
    (WrittenValue.tree text).decode = (WrittenValue.formatted .json text).decode ∧
      ((Json.readWith? Json.finiteTree text).map Value.convert).elim (.error .json) .ok =
        Format.decode .json text := by
  constructor
  · show ((Json.read? text).map Value.ofJson).elim _ _ = (Value.readJson? text).elim _ _
    rw [Value.readJson?_eq_map_ofJson]
  · rw [Format.decode, Value.readJson?_eq_map_convert]

end LayeredSettings
