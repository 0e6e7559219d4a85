import LayeredSettings.Proofs.Json.Builders

/-!
JSON trees whose objects, at every depth, hold each key once and in increasing order.

Reading a text gives such trees only: what the reader builds can carry the order of its keys along.
-/

namespace LayeredSettings.Json

mutual
def Ordered : Json → Prop
  | .array items => OrderedItems items
  | .object entries => KeyMap.Ordered entries ∧ OrderedEntries entries
  | _ => True

def OrderedItems : List Json → Prop
  | [] => True
  | j :: rest => j.Ordered ∧ OrderedItems rest

def OrderedEntries : List (String × Json) → Prop
  | [] => True
  | (_, j) :: rest => j.Ordered ∧ OrderedEntries rest
end

theorem orderedItems_iff {items : List Json} : OrderedItems items ↔ ∀ j ∈ items, j.Ordered := by
  induction items with
  | nil => simp [OrderedItems]
  | cons j rest ih => rw [OrderedItems, ih, List.forall_mem_cons]

theorem orderedEntries_iff {entries : List (String × Json)} :
    OrderedEntries entries ↔ ∀ e ∈ entries, e.2.Ordered := by
  induction entries with
  | nil => simp [OrderedEntries]
  | cons e rest ih => rw [OrderedEntries, ih, List.forall_mem_cons]

/-- Builds a tree along with the order of its keys. -/
def orderedTree : Builder { j : Json // j.Ordered } where
  null := ⟨.null, trivial⟩
  bool x := ⟨.bool x, trivial⟩
  unsigned n := ⟨.unsigned n, trivial⟩
  negative n := ⟨.negative n, trivial⟩
  float x := ⟨.float x, trivial⟩
  string s := ⟨.string s, trivial⟩
  array items := ⟨.array (items.map Subtype.val), orderedItems_iff.2 (by
    intro j member
    obtain ⟨built, -, rfl⟩ := List.mem_map.1 member
    exact built.property)⟩
  object entries := ⟨.object (KeyMap.mapValues Subtype.val (KeyMap.ofList entries)),
    KeyMap.ordered_mapValues.2 (KeyMap.ordered_ofList entries), orderedEntries_iff.2 (by
      intro e member
      obtain ⟨built, -, rfl⟩ := List.mem_map.1 member
      exact built.2.property)⟩

theorem respected_val : orderedTree.Respected tree Subtype.val where
  null := rfl
  bool _ := rfl
  unsigned _ := rfl
  negative _ := rfl
  float _ _ := rfl
  string _ := rfl
  array _ := rfl
  object entries := congrArg Json.object (KeyMap.ofList_mapValues Subtype.val entries).symm

theorem ordered_of_read? {text : String} {j : Json} (read : read? text = some j) : j.Ordered := by
  rw [read?, readWith?_map respected_val] at read
  obtain ⟨built, -, rfl⟩ := Option.map_eq_some_iff.1 read
  exact built.property

end LayeredSettings.Json
