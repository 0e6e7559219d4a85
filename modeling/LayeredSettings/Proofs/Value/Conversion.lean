import LayeredSettings.Value.Json
import LayeredSettings.Proofs.Json.Ordered
import LayeredSettings.Proofs.Value.Ordered

/-!
From values to JSON trees and back.

A tree that was made from a value gives the value back, except for numbers that JSON does not tell
apart. Building a value from the parts of such a tree, as the reader of JSON text does, comes to the
same.
-/

namespace LayeredSettings

namespace KeyMap

variable {α : Type}

theorem insert_nil (key : String) (value : α) : insert [] key value = [(key, value)] := rfl

theorem insert_cons_of_lt {k key : String} (lt : key < k) (v value : α) (rest : KeyMap α) :
    insert ((k, v) :: rest) key value = (key, value) :: (k, v) :: rest := by
  rw [insert, if_pos lt]

theorem insert_cons_of_gt {k key : String} (gt : k < key) (v value : α) (rest : KeyMap α) :
    insert ((k, v) :: rest) key value = (k, v) :: insert rest key value := by
  have notLt : ¬ key < k := String.lt_asymm gt
  have ne : ¬ key = k := fun same => String.lt_irrefl k (same ▸ gt)
  rw [insert, if_neg notLt, if_neg ne]

theorem insert_of_lt {m : KeyMap α} {key : String} (above : ∀ e ∈ m, e.1 < key) (value : α) :
    insert m key value = m ++ [(key, value)] := by
  induction m with
  | nil => rfl
  | cons e rest ih =>
    obtain ⟨k, v⟩ := e
    have gt : k < key := above (k, v) (List.mem_cons_self ..)
    rw [insert_cons_of_gt gt, ih fun e member => above e (List.mem_cons_of_mem _ member)]
    rfl

theorem foldl_insert_of_ordered {entries : List (String × α)} {m : KeyMap α}
    (ordered : Ordered (m ++ entries)) :
    entries.foldl (fun m e => insert m e.1 e.2) m = m ++ entries := by
  induction entries generalizing m with
  | nil => simp
  | cons e rest ih =>
    have above : ∀ d ∈ m, d.1 < e.1 := fun d member =>
      (List.pairwise_append.1 ordered).2.2 d member e (List.mem_cons_self ..)
    rw [List.foldl_cons, insert_of_lt above, ih, List.append_assoc]
    · rfl
    · rwa [List.append_assoc]

/-- Entries that are in order already are taken as they are. -/
theorem ofList_of_ordered {m : KeyMap α} (ordered : Ordered m) : ofList m = m :=
  foldl_insert_of_ordered (m := []) ordered

end KeyMap

namespace Number

/-- An integer is in the unsigned form only if it does not fit the signed one. -/
def Reduced : Number → Prop
  | .uint n => 0x7fffffffffffffff < n
  | _ => True

def Finite : Number → Prop
  | .float x => x.isFinite = true
  | _ => True

/-- The numbers that JSON tells apart. -/
structure Plain (n : Number) : Prop where
  reduced : n.Reduced
  finite : n.Finite

instance : (n : Number) → Decidable n.Reduced
  | .int _ => .isTrue trivial
  | .uint n => inferInstanceAs (Decidable (0x7fffffffffffffff < n))
  | .float _ => .isTrue trivial

instance : (n : Number) → Decidable n.Finite
  | .int _ => .isTrue trivial
  | .uint _ => .isTrue trivial
  | .float x => inferInstanceAs (Decidable (x.isFinite = true))

instance (n : Number) : Decidable n.Plain :=
  decidable_of_iff (n.Reduced ∧ n.Finite) ⟨fun h => ⟨h.1, h.2⟩, fun h => ⟨h.reduced, h.finite⟩⟩

theorem ofUInt64_toUInt64 {n : Int64} (nonneg : ¬ n < 0) : ofUInt64 n.toUInt64 = .int n := by
  have fits : n.toUInt64 ≤ 0x7fffffffffffffff := by
    rw [UInt64.le_iff_toNat_le, Int64.toNat_toUInt64_of_le (Int64.not_lt.1 nonneg)]
    exact Nat.le_of_lt_succ n.toNatClampNeg_lt
  rw [ofUInt64, if_pos fits, Int64.toInt64_toUInt64]

theorem ofUInt64_of_reduced {n : UInt64} (reduced : Reduced (.uint n)) : ofUInt64 n = .uint n :=
  if_neg (UInt64.not_le.2 reduced)

/-- What a number comes back as: a NaN or an infinity as null, an unsigned integer in the signed
form if it fits it, and any other number as it is. -/
def normal : Number → Value
  | .int n => .number (.int n)
  | .uint n => .number (.ofUInt64 n)
  | .float x => if x.isFinite then .number (.float x) else .null

theorem normal_of_plain {n : Number} (plain : n.Plain) : n.normal = .number n := by
  cases n with
  | int n => rfl
  | uint n => rw [normal, ofUInt64_of_reduced plain.reduced]
  | float x =>
    have finite : x.isFinite = true := plain.finite
    rw [normal, if_pos finite]

theorem ofJson_toJson (n : Number) : Value.ofJson n.toJson = n.normal := by
  cases n with
  | int n =>
    rw [toJson]
    split
    · rfl
    · rename_i nonneg
      rw [Value.ofJson, ofUInt64_toUInt64 nonneg, normal]
  | uint n => rfl
  | float x =>
    rw [toJson, normal]
    split <;> rfl

end Number

namespace Value

mutual
/-- The numbers in a value, at every depth. -/
def numbers : Value → List Number
  | .number n => [n]
  | .list items => numbersOfItems items
  | .map entries => numbersOfEntries entries
  | _ => []

def numbersOfItems : List Value → List Number
  | [] => []
  | v :: rest => v.numbers ++ numbersOfItems rest

def numbersOfEntries : List (String × Value) → List Number
  | [] => []
  | (_, v) :: rest => v.numbers ++ numbersOfEntries rest
end

mutual
/-- Replaces the numbers at every depth, and nothing else. -/
def mapNumbers (f : Number → Value) : Value → Value
  | .number n => f n
  | .list items => .list (mapNumbersOfItems f items)
  | .map entries => .map (mapNumbersOfEntries f entries)
  | v => v

def mapNumbersOfItems (f : Number → Value) : List Value → List Value
  | [] => []
  | v :: rest => mapNumbers f v :: mapNumbersOfItems f rest

def mapNumbersOfEntries (f : Number → Value) : List (String × Value) → List (String × Value)
  | [] => []
  | (k, v) :: rest => (k, mapNumbers f v) :: mapNumbersOfEntries f rest
end

section
variable {f : Number → Value}

mutual
theorem mapNumbers_eq_self {v : Value} (kept : ∀ n ∈ v.numbers, f n = .number n) :
    v.mapNumbers f = v := by
  cases v with
  | null => rfl
  | bool b => rfl
  | number n => exact kept n (List.mem_singleton_self n)
  | string s => rfl
  | list items => rw [mapNumbers, mapNumbersOfItems_eq_self kept]
  | map entries => rw [mapNumbers, mapNumbersOfEntries_eq_self kept]

theorem mapNumbersOfItems_eq_self {items : List Value}
    (kept : ∀ n ∈ numbersOfItems items, f n = .number n) : mapNumbersOfItems f items = items := by
  cases items with
  | nil => rfl
  | cons v rest =>
    obtain ⟨first, later⟩ := List.forall_mem_append.1 kept
    rw [mapNumbersOfItems, mapNumbers_eq_self first, mapNumbersOfItems_eq_self later]

theorem mapNumbersOfEntries_eq_self {entries : List (String × Value)}
    (kept : ∀ n ∈ numbersOfEntries entries, f n = .number n) :
    mapNumbersOfEntries f entries = entries := by
  cases entries with
  | nil => rfl
  | cons e rest =>
    obtain ⟨k, v⟩ := e
    obtain ⟨first, later⟩ := List.forall_mem_append.1 kept
    rw [mapNumbersOfEntries, mapNumbers_eq_self first, mapNumbersOfEntries_eq_self later]
end

end

def normal (v : Value) : Value := v.mapNumbers Number.normal

mutual
theorem ofJson_toJson_eq_normal (v : Value) : ofJson v.toJson = v.normal := by
  cases v with
  | null => rfl
  | bool b => rfl
  | number n => exact n.ofJson_toJson
  | string s => rfl
  | list items => rw [toJson, ofJson, ofJsonItems_toJsonItems items, normal, mapNumbers]
  | map entries => rw [toJson, ofJson, ofJsonEntries_toJsonEntries entries, normal, mapNumbers]

theorem ofJsonItems_toJsonItems (items : List Value) :
    ofJsonItems (toJsonItems items) = mapNumbersOfItems Number.normal items := by
  cases items with
  | nil => rfl
  | cons v rest =>
    rw [toJsonItems, ofJsonItems, ofJson_toJson_eq_normal v, ofJsonItems_toJsonItems rest, normal,
      mapNumbersOfItems]

theorem ofJsonEntries_toJsonEntries (entries : List (String × Value)) :
    ofJsonEntries (toJsonEntries entries) = mapNumbersOfEntries Number.normal entries := by
  cases entries with
  | nil => rfl
  | cons e rest =>
    obtain ⟨k, v⟩ := e
    rw [toJsonEntries, ofJsonEntries, ofJson_toJson_eq_normal v, ofJsonEntries_toJsonEntries rest,
      normal, mapNumbersOfEntries]
end

theorem normal_of_plain {v : Value} (plain : ∀ n ∈ v.numbers, n.Plain) : v.normal = v :=
  mapNumbers_eq_self fun n member => Number.normal_of_plain (plain n member)

theorem ofJson_toJson {v : Value} (plain : ∀ n ∈ v.numbers, n.Plain) : ofJson v.toJson = v := by
  rw [ofJson_toJson_eq_normal, normal_of_plain plain]

theorem ofJsonItems_eq_map (items : List Json) : ofJsonItems items = items.map ofJson := by
  induction items with
  | nil => rfl
  | cons j rest ih => rw [ofJsonItems, ih, List.map_cons]

theorem ofJsonEntries_eq_mapValues (entries : List (String × Json)) :
    ofJsonEntries entries = KeyMap.mapValues ofJson entries := by
  induction entries with
  | nil => rfl
  | cons e rest ih =>
    rw [ofJsonEntries, ih]
    rfl

theorem toJsonEntries_eq_mapValues (entries : List (String × Value)) :
    toJsonEntries entries = KeyMap.mapValues toJson entries := by
  induction entries with
  | nil => rfl
  | cons e rest ih =>
    rw [toJsonEntries, ih]
    rfl

/-! ## Ordered trees -/

theorem ordered_toJson_number (n : Number) : n.toJson.Ordered := by
  cases n with
  | uint n => trivial
  | int n | float x =>
    rw [Number.toJson]
    split <;> trivial

mutual
theorem ordered_toJson {v : Value} (ordered : v.Ordered) : v.toJson.Ordered := by
  cases v with
  | number n => exact ordered_toJson_number n
  | list items => exact ordered_toJsonItems ordered
  | map entries =>
    refine ⟨?_, ordered_toJsonEntries ordered.2⟩
    rw [toJsonEntries_eq_mapValues]
    exact KeyMap.ordered_mapValues.2 ordered.1
  | _ => trivial

theorem ordered_toJsonItems {items : List Value} (ordered : OrderedItems items) :
    Json.OrderedItems (toJsonItems items) := by
  cases items with
  | nil => trivial
  | cons v rest => exact ⟨ordered_toJson ordered.1, ordered_toJsonItems ordered.2⟩

theorem ordered_toJsonEntries {entries : List (String × Value)}
    (ordered : OrderedEntries entries) : Json.OrderedEntries (toJsonEntries entries) := by
  cases entries with
  | nil => trivial
  | cons e rest => exact ⟨ordered_toJson ordered.1, ordered_toJsonEntries ordered.2⟩
end

mutual
/-- Building a value from the parts of an ordered tree is converting the tree. -/
theorem fold_of_ordered {j : Json} (ordered : j.Ordered) : j.fold ofJsonParts = ofJson j := by
  cases j with
  | array items => exact congrArg Value.list (foldItems_of_ordered ordered)
  | object entries =>
    have sorted : KeyMap.Ordered (ofJsonEntries entries) := by
      rw [ofJsonEntries_eq_mapValues]
      exact KeyMap.ordered_mapValues.2 ordered.1
    rw [Json.fold, foldEntries_of_ordered ordered.2]
    exact congrArg Value.map (KeyMap.ofList_of_ordered sorted)
  | _ => rfl

theorem foldItems_of_ordered {items : List Json} (ordered : Json.OrderedItems items) :
    Json.foldItems ofJsonParts items = ofJsonItems items := by
  cases items with
  | nil => rfl
  | cons j rest =>
    rw [Json.foldItems, fold_of_ordered ordered.1, foldItems_of_ordered ordered.2, ofJsonItems]

theorem foldEntries_of_ordered {entries : List (String × Json)}
    (ordered : Json.OrderedEntries entries) :
    Json.foldEntries ofJsonParts entries = ofJsonEntries entries := by
  cases entries with
  | nil => rfl
  | cons e rest =>
    rw [Json.foldEntries, fold_of_ordered ordered.1, foldEntries_of_ordered ordered.2,
      ofJsonEntries]
end

theorem fold_toJson {v : Value} (ordered : v.Ordered) :
    v.toJson.fold ofJsonParts = ofJson v.toJson := fold_of_ordered (ordered_toJson ordered)

end Value
end LayeredSettings
