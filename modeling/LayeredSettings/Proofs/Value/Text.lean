import LayeredSettings.Format
import LayeredSettings.Proofs.Json.Reading
import LayeredSettings.Proofs.Value.Conversion
import LayeredSettings.Proofs.Value.Integer

/-!
Values that are written as JSON text and read again.

The text of a value is that of its tree. What is read from it is the tree folded along the
operations of the reader, and that gives the value back.
-/

namespace LayeredSettings

namespace Number

/-- An integer in the one form that it has. -/
structure Whole (n : Number) : Prop where
  reduced : n.Reduced
  integer : n.integer?.isSome = true

instance (n : Number) : Decidable n.Whole :=
  decidable_of_iff (n.Reduced ∧ n.integer?.isSome = true)
    ⟨fun h => ⟨h.1, h.2⟩, fun h => ⟨h.reduced, h.integer⟩⟩

theorem Whole.plain {n : Number} (whole : n.Whole) : n.Plain where
  reduced := whole.reduced
  finite := by
    cases n with
    | float x => cases whole.integer
    | _ => trivial

theorem Whole.exact_toJson {n : Number} (whole : n.Whole) : n.toJson.Exact := by
  cases n with
  | int n =>
    rw [toJson]
    split
    · assumption
    · trivial
  | uint n => trivial
  | float x => cases whole.integer

theorem depth_toJson (n : Number) : n.toJson.depth = 0 := by
  cases n with
  | int n =>
    rw [toJson]
    split <;> rfl
  | uint n => rfl
  | float x =>
    rw [toJson]
    split <;> rfl

end Number

namespace Value

mutual
/-- How deep lists and maps nest. -/
def depth : Value → Nat
  | .list items => depthOfItems items + 1
  | .map entries => depthOfEntries entries + 1
  | _ => 0

def depthOfItems : List Value → Nat
  | [] => 0
  | v :: rest => max v.depth (depthOfItems rest)

def depthOfEntries : List (String × Value) → Nat
  | [] => 0
  | (_, v) :: rest => max v.depth (depthOfEntries rest)
end

mutual
theorem depth_toJson (v : Value) : v.toJson.depth = v.depth := by
  cases v with
  | number n => exact n.depth_toJson
  | list items => rw [toJson, Json.depth, depth, depthOfItems_toJsonItems items]
  | map entries => rw [toJson, Json.depth, depth, depthOfEntries_toJsonEntries entries]
  | _ => rfl

theorem depthOfItems_toJsonItems (items : List Value) :
    Json.depthOfItems (toJsonItems items) = depthOfItems items := by
  cases items with
  | nil => rfl
  | cons v rest =>
    rw [toJsonItems, Json.depthOfItems, depth_toJson v, depthOfItems_toJsonItems rest, depthOfItems]

theorem depthOfEntries_toJsonEntries (entries : List (String × Value)) :
    Json.depthOfEntries (toJsonEntries entries) = depthOfEntries entries := by
  cases entries with
  | nil => rfl
  | cons e rest =>
    obtain ⟨k, v⟩ := e
    rw [toJsonEntries, Json.depthOfEntries, depth_toJson v, depthOfEntries_toJsonEntries rest,
      depthOfEntries]
end

mutual
theorem exact_toJson {v : Value} (whole : ∀ n ∈ v.numbers, n.Whole) : v.toJson.Exact := by
  cases v with
  | number n => exact (whole n (List.mem_singleton_self n)).exact_toJson
  | list items => exact exactItems_toJsonItems whole
  | map entries => exact exactEntries_toJsonEntries whole
  | _ => trivial

theorem exactItems_toJsonItems {items : List Value} (whole : ∀ n ∈ numbersOfItems items, n.Whole) :
    Json.ExactItems (toJsonItems items) := by
  cases items with
  | nil => trivial
  | cons v rest =>
    obtain ⟨first, later⟩ := List.forall_mem_append.1 whole
    exact ⟨exact_toJson first, exactItems_toJsonItems later⟩

theorem exactEntries_toJsonEntries {entries : List (String × Value)}
    (whole : ∀ n ∈ numbersOfEntries entries, n.Whole) :
    Json.ExactEntries (toJsonEntries entries) := by
  cases entries with
  | nil => trivial
  | cons e rest =>
    obtain ⟨k, v⟩ := e
    obtain ⟨first, later⟩ := List.forall_mem_append.1 whole
    exact ⟨exact_toJson first, exactEntries_toJsonEntries later⟩
end

theorem readJson?_text {v : Value} (ordered : v.Ordered) (whole : ∀ n ∈ v.numbers, n.Whole)
    (shallow : v.depth ≤ Json.maxDepth) : readJson? v.text = some v := by
  have plain : ∀ n ∈ v.numbers, n.Plain := fun n member => (whole n member).plain
  calc
    readJson? v.text = some (v.toJson.fold ofJsonParts) :=
      Json.readWith?_text ofJsonParts (exact_toJson whole) (by rwa [depth_toJson])
    _ = some (ofJson v.toJson) := by rw [fold_toJson ordered]
    _ = some v := by rw [ofJson_toJson plain]

end Value

namespace Format

/-- A value is read from its own text, if its numbers are integers in the form that each of them
has and containers do not nest deeper than the reader allows. -/
theorem decode_json_text (v : Value) (ordered : v.Ordered) (whole : ∀ n ∈ v.numbers, n.Whole)
    (shallow : v.depth ≤ 127) : decode .json v.text = .ok v := by
  rw [decode, Value.readJson?_text ordered whole shallow]
  rfl

/-- The least and the largest integers, keys that look like other things, and characters that are
escaped or stand for themselves. -/
theorem decode_json_text_extremes :
    let v : Value := .map [("", .string ""), ("\x00\n\x1f\"/\\\x7f", .null),
      ("-0", .list [.number (.int Int64.minValue), .number (.int (-1)), .number (.int 0),
        .number (.int Int64.maxValue), .number (.uint (Int64.maxValue.toUInt64 + 1)),
        .number (.uint (-1))]),
      ("1.5e3", .list []), ("true", .bool false), ("é\u2028😀", .map [("null", .map [])])]
    v.Ordered ∧ (∀ n ∈ v.numbers, n.Whole) ∧ v.depth ≤ 127 ∧ decode .json v.text = .ok v := by
  intro v
  have ordered : v.Ordered := by decide
  have whole : ∀ n ∈ v.numbers, n.Whole := by decide
  have shallow : v.depth ≤ 127 := by decide
  exact ⟨ordered, whole, shallow, decode_json_text v ordered whole shallow⟩

end Format
end LayeredSettings
