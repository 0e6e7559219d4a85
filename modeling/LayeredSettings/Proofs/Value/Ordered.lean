import LayeredSettings.Value.Basic

/-!
Values whose maps, at every depth, hold each key once and in increasing order.
-/

namespace LayeredSettings

namespace KeyMap

variable {α : Type}

theorem mem_of_get? {m : KeyMap α} {key : String} {value : α} (h : m.get? key = some value) :
    (key, value) ∈ m := by
  induction m with
  | nil => cases h
  | cons e rest ih =>
    obtain ⟨k, v⟩ := e
    rw [get?_cons] at h
    split at h
    · rename_i same
      cases h
      rw [same]
      exact List.mem_cons_self ..
    · exact List.mem_cons_of_mem _ (ih h)

/-- In an ordered map every entry is found. -/
theorem Ordered.get?_eq_some_iff {m : KeyMap α} (ordered : Ordered m) {key : String} {value : α} :
    m.get? key = some value ↔ (key, value) ∈ m := by
  refine ⟨mem_of_get?, ?_⟩
  intro member
  induction m with
  | nil => cases member
  | cons e rest ih =>
    obtain ⟨k, v⟩ := e
    obtain ⟨first, later⟩ := List.pairwise_cons.1 ordered
    rw [get?_cons]
    rcases List.mem_cons.1 member with same | member
    · cases same
      rw [if_pos rfl]
    · have other : k ≠ key := by
        rintro rfl
        exact String.lt_irrefl _ (first (k, value) member)
      rw [if_neg other]
      exact ih later member

theorem get?_eq_none_of_forall_lt {m : KeyMap α} {key : String} (h : ∀ e ∈ m, key < e.1) :
    m.get? key = none := by
  cases found : m.get? key with
  | none => rfl
  | some value => exact absurd (h _ (mem_of_get? found)) (String.lt_irrefl key)

theorem mem_of_mem_erase {m : KeyMap α} {key : String} {e : String × α} (h : e ∈ m.erase key) :
    e ∈ m := by
  induction m with
  | nil => exact h
  | cons d rest ih =>
    obtain ⟨k, v⟩ := d
    unfold KeyMap.erase at h
    split at h
    · exact List.mem_cons_of_mem _ h
    · rcases List.mem_cons.1 h with rfl | h
      · exact List.mem_cons_self ..
      · exact List.mem_cons_of_mem _ (ih h)

end KeyMap

namespace Value

mutual
def Ordered : Value → Prop
  | .list items => OrderedItems items
  | .map entries => KeyMap.Ordered entries ∧ OrderedEntries entries
  | _ => True

def OrderedItems : List Value → Prop
  | [] => True
  | v :: rest => v.Ordered ∧ OrderedItems rest

def OrderedEntries : List (String × Value) → Prop
  | [] => True
  | (_, v) :: rest => v.Ordered ∧ OrderedEntries rest
end

theorem orderedItems_iff {items : List Value} : OrderedItems items ↔ ∀ v ∈ items, v.Ordered := by
  induction items with
  | nil => simp [OrderedItems]
  | cons v rest ih => rw [OrderedItems, ih, List.forall_mem_cons]

theorem orderedEntries_iff {entries : List (String × Value)} :
    OrderedEntries entries ↔ ∀ e ∈ entries, e.2.Ordered := by
  induction entries with
  | nil => simp [OrderedEntries]
  | cons e rest ih => rw [OrderedEntries, ih, List.forall_mem_cons]

instance {α : Type} (m : KeyMap α) : Decidable m.Ordered :=
  inferInstanceAs (Decidable (m.Pairwise fun a b => a.1 < b.1))

mutual
def decideOrdered : (v : Value) → Decidable v.Ordered
  | .list items => decideOrderedItems items
  | .map entries =>
    have := decideOrderedEntries entries
    inferInstanceAs (Decidable (KeyMap.Ordered entries ∧ OrderedEntries entries))
  | .null => .isTrue trivial
  | .bool _ => .isTrue trivial
  | .number _ => .isTrue trivial
  | .string _ => .isTrue trivial

def decideOrderedItems : (items : List Value) → Decidable (OrderedItems items)
  | [] => .isTrue trivial
  | v :: rest =>
    have := decideOrdered v
    have := decideOrderedItems rest
    inferInstanceAs (Decidable (v.Ordered ∧ OrderedItems rest))

def decideOrderedEntries : (entries : List (String × Value)) → Decidable (OrderedEntries entries)
  | [] => .isTrue trivial
  | (_, v) :: rest =>
    have := decideOrdered v
    have := decideOrderedEntries rest
    inferInstanceAs (Decidable (v.Ordered ∧ OrderedEntries rest))
end

instance (v : Value) : Decidable v.Ordered := decideOrdered v

end Value
end LayeredSettings
