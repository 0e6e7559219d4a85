import LayeredSettings.Proofs.Value.Trees

/-!
Values in one form each.

At every depth, an integer of such a value has the signed form if it fits it, and a map holds each
key once and in increasing order. Whatever is put together from such values is one of them, and so
is every part of one. JSON gives no others, be it read from a text or converted from a tree.
-/

namespace LayeredSettings

theorem KeyMap.mem_ofList {α : Type} {entries : List (String × α)} {e : String × α}
    (member : e ∈ KeyMap.ofList entries) : e ∈ entries := by
  suffices from_any : ∀ m : KeyMap α,
      e ∈ entries.foldl (fun m e => KeyMap.insert m e.1 e.2) m → e ∈ m ∨ e ∈ entries from
    (from_any [] member).resolve_left List.not_mem_nil
  clear member
  induction entries with
  | nil => exact fun _ member => .inl member
  | cons d rest ih =>
    intro m member
    rcases ih _ member with early | late
    · rcases KeyMap.mem_insert early with rfl | early
      · exact .inr (List.mem_cons_self ..)
      · exact .inl early
    · exact .inr (List.mem_cons_of_mem _ late)

theorem Number.reduced_ofUInt64 (n : UInt64) : (ofUInt64 n).Reduced := by
  unfold ofUInt64
  split
  · trivial
  · rename_i large
    exact UInt64.not_le.1 large

namespace Value

theorem mem_numbersOfItems_iff {items : List Value} {n : Number} :
    n ∈ numbersOfItems items ↔ ∃ v ∈ items, n ∈ v.numbers := by
  induction items with
  | nil => simp [numbersOfItems]
  | cons v rest ih => simp [numbersOfItems, ih]

theorem mem_numbersOfEntries_iff {entries : List (String × Value)} {n : Number} :
    n ∈ numbersOfEntries entries ↔ ∃ e ∈ entries, n ∈ e.2.numbers := by
  induction entries with
  | nil => simp [numbersOfEntries]
  | cons e rest ih => simp [numbersOfEntries, ih]

/-- At every depth, an integer is in the unsigned form only if it does not fit the signed one. -/
def Reduced (v : Value) : Prop := ∀ n ∈ v.numbers, n.Reduced

theorem reduced_null : Reduced .null := List.forall_mem_nil _

theorem reduced_bool (b : Bool) : Reduced (.bool b) := List.forall_mem_nil _

theorem reduced_string (s : String) : Reduced (.string s) := List.forall_mem_nil _

theorem reduced_number {n : Number} : Reduced (.number n) ↔ n.Reduced := List.forall_mem_singleton

theorem reduced_list {items : List Value} : Reduced (.list items) ↔ ∀ v ∈ items, v.Reduced := by
  constructor
  · intro h v member n held
    exact h n (mem_numbersOfItems_iff.2 ⟨v, member, held⟩)
  · intro h n held
    obtain ⟨v, member, held⟩ := mem_numbersOfItems_iff.1 held
    exact h v member n held

theorem reduced_map {entries : List (String × Value)} :
    Reduced (.map entries) ↔ ∀ e ∈ entries, e.2.Reduced := by
  constructor
  · intro h e member n held
    exact h n (mem_numbersOfEntries_iff.2 ⟨e, member, held⟩)
  · intro h n held
    obtain ⟨e, member, held⟩ := mem_numbersOfEntries_iff.1 held
    exact h e member n held

/-- A value as decoders give it. -/
structure Canonical (v : Value) : Prop where
  reduced : v.Reduced
  ordered : v.Ordered

theorem canonical_null : Canonical .null := ⟨reduced_null, trivial⟩

theorem canonical_bool (b : Bool) : Canonical (.bool b) := ⟨reduced_bool b, trivial⟩

theorem canonical_string (s : String) : Canonical (.string s) := ⟨reduced_string s, trivial⟩

theorem canonical_number {n : Number} (reduced : n.Reduced) : Canonical (.number n) :=
  ⟨reduced_number.2 reduced, trivial⟩

theorem canonical_list {items : List Value} :
    Canonical (.list items) ↔ ∀ v ∈ items, v.Canonical := by
  constructor
  · intro whole v member
    exact ⟨reduced_list.1 whole.reduced v member, orderedItems_iff.1 whole.ordered v member⟩
  · intro each
    exact ⟨reduced_list.2 fun v member => (each v member).reduced,
      orderedItems_iff.2 fun v member => (each v member).ordered⟩

theorem canonical_map {entries : KeyMap Value} :
    Canonical (.map entries) ↔ entries.Ordered ∧ ∀ e ∈ entries, e.2.Canonical := by
  constructor
  · intro whole
    refine ⟨whole.ordered.1, fun e member => ⟨reduced_map.1 whole.reduced e member, ?_⟩⟩
    exact orderedEntries_iff.1 whole.ordered.2 e member
  · rintro ⟨sorted, each⟩
    exact ⟨reduced_map.2 fun e member => (each e member).reduced, sorted,
      orderedEntries_iff.2 fun e member => (each e member).ordered⟩

theorem canonical_ofList {entries : List (String × Value)}
    (each : ∀ e ∈ entries, e.2.Canonical) : Canonical (.map (KeyMap.ofList entries)) :=
  canonical_map.2 ⟨KeyMap.ordered_ofList entries, fun e member => each e (KeyMap.mem_ofList member)⟩

/-! ## Values from JSON -/

mutual
theorem reduced_ofJson (j : Json) : (ofJson j).Reduced := by
  cases j with
  | null => exact reduced_null
  | bool b => exact reduced_bool b
  | unsigned n => exact reduced_number.2 (Number.reduced_ofUInt64 n)
  | negative n => exact reduced_number.2 trivial
  | float x => exact reduced_number.2 trivial
  | string s => exact reduced_string s
  | array items => exact reduced_list.2 (reduced_ofJsonItems items)
  | object entries => exact reduced_map.2 (reduced_ofJsonEntries entries)

theorem reduced_ofJsonItems (items : List Json) : ∀ v ∈ ofJsonItems items, v.Reduced := by
  cases items with
  | nil => exact List.forall_mem_nil _
  | cons j rest => exact List.forall_mem_cons.2 ⟨reduced_ofJson j, reduced_ofJsonItems rest⟩

theorem reduced_ofJsonEntries (entries : List (String × Json)) :
    ∀ e ∈ ofJsonEntries entries, e.2.Reduced := by
  cases entries with
  | nil => exact List.forall_mem_nil _
  | cons e rest =>
    obtain ⟨k, j⟩ := e
    exact List.forall_mem_cons.2 ⟨reduced_ofJson j, reduced_ofJsonEntries rest⟩
end

mutual
/-- What is built from the parts of a tree is in one form even if the tree is not. -/
theorem canonical_fold (j : Json) : (j.fold ofJsonParts).Canonical := by
  cases j with
  | null => exact canonical_null
  | bool b => exact canonical_bool b
  | unsigned n => exact canonical_number (Number.reduced_ofUInt64 n)
  | negative n => exact canonical_number trivial
  | float x => exact canonical_number trivial
  | string s => exact canonical_string s
  | array items => exact canonical_list.2 (canonical_foldItems items)
  | object entries => exact canonical_ofList (canonical_foldEntries entries)

theorem canonical_foldItems (items : List Json) :
    ∀ v ∈ Json.foldItems ofJsonParts items, v.Canonical := by
  cases items with
  | nil => exact List.forall_mem_nil _
  | cons j rest => exact List.forall_mem_cons.2 ⟨canonical_fold j, canonical_foldItems rest⟩

theorem canonical_foldEntries (entries : List (String × Json)) :
    ∀ e ∈ Json.foldEntries ofJsonParts entries, e.2.Canonical := by
  cases entries with
  | nil => exact List.forall_mem_nil _
  | cons e rest =>
    obtain ⟨k, j⟩ := e
    exact List.forall_mem_cons.2 ⟨canonical_fold j, canonical_foldEntries rest⟩
end

theorem canonical_convert (j : Json) : (convert j).Canonical := by
  rw [convert_eq_fold]
  exact canonical_fold j

theorem canonical_of_fromTree {j : Json} {v : Value} (read : fromTree j = .ok v) :
    v.Canonical := by
  cases read
  exact canonical_fold j

theorem canonical_ofJson {j : Json} (ordered : j.Ordered) : (ofJson j).Canonical := by
  rw [← fold_of_ordered ordered]
  exact canonical_fold j

theorem canonical_of_readJson? {text : String} {v : Value} (read : readJson? text = some v) :
    v.Canonical := by
  rw [readJson?_eq_map_ofJson] at read
  obtain ⟨j, tree, rfl⟩ := Option.map_eq_some_iff.1 read
  exact canonical_ofJson (Json.ordered_of_read? tree)

end Value
end LayeredSettings
