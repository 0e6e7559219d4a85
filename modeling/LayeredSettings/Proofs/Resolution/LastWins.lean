import LayeredSettings.Resolution

/-!
The last active layer that defines a path decides what it resolves to.

Resolving goes through the layers from the front and keeps what it found last. That is the same as
looking for the first layer from the back that is active and defines the path.
-/

namespace LayeredSettings

/-- What a layer says about a path, if it is active. -/
def DataLayer.answer? (l : DataLayer) (facts : Facts) (path : List String) : Option Value :=
  if facts.activates l then Value.lookup? l.settings path else none

namespace DataLayer

variable {l : DataLayer} {facts : Facts} {path : List String}

theorem answer?_eq_some_iff {v : Value} :
    l.answer? facts path = some v ↔
      facts.activates l = true ∧ Value.lookup? l.settings path = some v := by
  unfold answer?
  split <;> simp_all

theorem answer?_eq_none_iff :
    l.answer? facts path = none ↔
      (facts.activates l = true → Value.lookup? l.settings path = none) := by
  unfold answer?
  split <;> simp_all

theorem answer?_nil : l.answer? facts [] = none := by
  unfold answer?
  split <;> rfl

end DataLayer

/-- Keeping the latest find of a scan is searching from the back. -/
theorem foldl_orElse_eq_findSome? {α β : Type} (f : α → Option β) (l : List α) (found : Option β) :
    l.foldl (fun found a => f a <|> found) found =
      (l.reverse.findSome? f).or found := by
  induction l generalizing found with
  | nil => rfl
  | cons a rest ih =>
    rw [List.foldl_cons, ih, List.reverse_cons, List.findSome?_append, List.findSome?_singleton,
      Option.or_assoc]
    cases f a <;> rfl

/-- The last place of a list with a property, by what stands around it and by its index. -/
theorem exists_last_iff {α : Type} {l : List α} {P Q : α → Prop} :
    (∃ before a after, l = before ++ a :: after ∧ P a ∧ ∀ b ∈ after, Q b) ↔
      ∃ (i : Nat) (a : α), l[i]? = some a ∧ P a ∧
        ∀ (j : Nat) (b : α), i < j → l[j]? = some b → Q b := by
  constructor
  · rintro ⟨before, a, after, rfl, holds, rest⟩
    refine ⟨before.length, a, by simp, holds, ?_⟩
    intro j b later found
    rw [List.getElem?_append_right (by omega), List.getElem?_cons] at found
    rw [if_neg (by omega)] at found
    exact rest b (List.mem_of_getElem? found)
  · rintro ⟨i, a, found, holds, rest⟩
    obtain ⟨bound, rfl⟩ := List.getElem?_eq_some_iff.1 found
    refine ⟨l.take i, l[i], l.drop (i + 1), by simp, holds, ?_⟩
    intro b member
    obtain ⟨j, inside, rfl⟩ := List.mem_iff_getElem.1 member
    exact rest (i + 1 + j) _ (by omega) (by rw [List.getElem_drop, List.getElem?_eq_getElem])

namespace Document

variable (d : Document) (facts : Facts) (path : List String)

theorem resolve?_eq_findSome? :
    d.resolve? facts path = d.dataLayers.reverse.findSome? (·.answer? facts path) := by
  have scan := foldl_orElse_eq_findSome? (DataLayer.answer? · facts path) d.dataLayers none
  rw [Option.or_none] at scan
  rw [← scan, resolve?]
  congr 1
  funext found l
  unfold DataLayer.answer?
  split <;> rfl

theorem resolve?_eq_some_iff {v : Value} :
    d.resolve? facts path = some v ↔ ∃ before l after, d.dataLayers = before ++ l :: after ∧
      l.answer? facts path = some v ∧ ∀ k ∈ after, k.answer? facts path = none := by
  rw [resolve?_eq_findSome?, List.findSome?_eq_some_iff]
  constructor
  · rintro ⟨after, l, before, reversed, answer, silent⟩
    refine ⟨before.reverse, l, after.reverse, ?_, answer, by simpa using silent⟩
    rw [List.reverse_eq_iff] at reversed
    simpa using reversed
  · rintro ⟨before, l, after, layers, answer, silent⟩
    exact ⟨after.reverse, l, before.reverse, by simp [layers], answer, by simpa using silent⟩

theorem resolve?_eq_none_iff :
    d.resolve? facts path = none ↔ ∀ l ∈ d.dataLayers, l.answer? facts path = none := by
  rw [resolve?_eq_findSome?, List.findSome?_eq_none_iff]
  simp only [List.mem_reverse]

theorem resolve?_append {a b : Document} (layers : d.dataLayers = a.dataLayers ++ b.dataLayers) :
    d.resolve? facts path = (b.resolve? facts path).or (a.resolve? facts path) := by
  simp only [resolve?_eq_findSome?, layers, List.reverse_append, List.findSome?_append]

/-- A layer that says nothing about a path may stand anywhere. -/
theorem resolve?_insert {e : Document} {before after : List DataLayer} {l : DataLayer}
    (without : d.dataLayers = before ++ after) (inserted : e.dataLayers = before ++ l :: after)
    (silent : l.answer? facts path = none) : e.resolve? facts path = d.resolve? facts path := by
  simp only [resolve?_eq_findSome?, without, inserted, List.reverse_append, List.reverse_cons,
    List.findSome?_append, List.findSome?_singleton, silent, Option.or_none]

/-- A path resolves to what the last active layer that defines it says, also if that is null. -/
theorem resolve?_last_active_wins :
    (∀ v, d.resolve? facts path = some v ↔
      ∃ (i : Nat) (l : DataLayer), d.dataLayers[i]? = some l ∧
        (facts.activates l = true ∧ Value.lookup? l.settings path = some v) ∧
        ∀ (j : Nat) (k : DataLayer), i < j → d.dataLayers[j]? = some k →
          facts.activates k = true → Value.lookup? k.settings path = none) ∧
    (d.resolve? facts path = none ↔ ∀ l ∈ d.dataLayers,
      facts.activates l = true → Value.lookup? l.settings path = none) ∧
    d.resolve? facts [] = none ∧
    (∀ a b : Document, d.dataLayers = a.dataLayers ++ b.dataLayers →
      d.resolve? facts path = (b.resolve? facts path).or (a.resolve? facts path)) ∧
    ∀ (e : Document) (before after : List DataLayer) (l : DataLayer),
      d.dataLayers = before ++ after → e.dataLayers = before ++ l :: after →
      (facts.activates l = false ∨ Value.lookup? l.settings path = none) →
      e.resolve? facts path = d.resolve? facts path := by
  refine ⟨?_, ?_, ?_, fun a b => d.resolve?_append facts path, ?_⟩
  · intro v
    rw [resolve?_eq_some_iff, exists_last_iff]
    simp only [DataLayer.answer?_eq_some_iff, DataLayer.answer?_eq_none_iff]
  · rw [resolve?_eq_none_iff]
    simp only [DataLayer.answer?_eq_none_iff]
  · rw [resolve?_eq_none_iff]
    exact fun l _ => DataLayer.answer?_nil
  · intro e before after l without inserted silent
    refine d.resolve?_insert facts path without inserted (DataLayer.answer?_eq_none_iff.2 ?_)
    intro active
    rcases silent with inactive | undefined
    · rw [active] at inactive
      cases inactive
    · exact undefined

/-- A null that is present overrides, and a layer for other facts changes nothing. -/
theorem resolve?_null_overrides :
    let base : DataLayer := ⟨"base", none, [("a", .map [("b", .bool true)])]⟩
    let cleared : DataLayer := ⟨"cleared", some [], [("a", .map [("b", .null)])]⟩
    let foreign : DataLayer := ⟨"foreign", some [("app", .string "x")], [("a", .bool false)]⟩
    let d : Document := ⟨[base, cleared], 1, by decide⟩
    let e : Document := ⟨[base, cleared, foreign], 1, by decide⟩
    d.resolve? Facts.none ["a", "b"] = some .null ∧
      e.resolve? Facts.none ["a", "b"] = d.resolve? Facts.none ["a", "b"] := by
  intro base cleared foreign d e
  obtain ⟨found, -, -, -, inserted⟩ := resolve?_last_active_wins d Facts.none ["a", "b"]
  refine ⟨(found .null).2 ⟨1, cleared, rfl, ⟨rfl, rfl⟩, ?_⟩,
    inserted e [base, cleared] [] foreign rfl rfl (.inl (by decide))⟩
  intro j k later found
  have absent : d.dataLayers[j]? = none := List.getElem?_eq_none (Nat.succ_le_of_lt later)
  rw [absent] at found
  cases found

end Document
end LayeredSettings
