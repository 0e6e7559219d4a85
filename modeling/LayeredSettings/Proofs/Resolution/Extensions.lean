import LayeredSettings.Proofs.Resolution.LastWins

/-!
A path beside the longer paths that it begins.

The layer that decides a path is never earlier than the one that decides an extension of it, as
whoever defines the extension defines the path too. Descending from what a path resolves to may miss
what an earlier layer says about the extension, but it never comes to another value.
-/

namespace LayeredSettings

namespace Value

theorem descend?_append (v : Value) (p q : List String) :
    descend? v (p ++ q) = (descend? v p).bind (descend? · q) := by
  induction p generalizing v with
  | nil => rfl
  | cons key rest ih =>
    simp only [List.cons_append, descend?, Option.bind_assoc]
    exact Option.bind_congr fun child _ => ih child

theorem lookup?_append (settings : KeyMap Value) {p : List String} (nonempty : p ≠ [])
    (q : List String) : lookup? settings (p ++ q) = (lookup? settings p).bind (descend? · q) := by
  cases p with
  | nil => exact absurd rfl nonempty
  | cons key rest =>
    simp only [List.cons_append, lookup?, Option.bind_assoc]
    exact Option.bind_congr fun child _ => descend?_append child rest q

end Value

theorem DataLayer.answer?_append (l : DataLayer) (facts : Facts) {p : List String}
    (nonempty : p ≠ []) (q : List String) :
    l.answer? facts (p ++ q) = (l.answer? facts p).bind (Value.descend? · q) := by
  unfold DataLayer.answer?
  split
  · exact Value.lookup?_append l.settings nonempty q
  · rfl

namespace Document

/-- The data layer at an index is active and says this about a path, and no later one that is active
says anything. -/
def Decides (d : Document) (facts : Facts) (path : List String) (i : Nat) (v : Value) : Prop :=
  ∃ l, d.dataLayers[i]? = some l ∧ l.answer? facts path = some v ∧
    ∀ (j : Nat) (k : DataLayer), i < j → d.dataLayers[j]? = some k → k.answer? facts path = none

variable {d : Document} {facts : Facts} {path p q : List String} {i j : Nat} {v w : Value}

theorem resolve?_eq_some_iff_decides :
    d.resolve? facts path = some v ↔ ∃ i, d.Decides facts path i v := by
  rw [resolve?_eq_some_iff, exists_last_iff]
  rfl

/-- No layer after the one that decides a path says anything about it. -/
theorem Decides.le_of_answer {l : DataLayer} (decides : d.Decides facts path j w)
    (held : d.dataLayers[i]? = some l) (answer : l.answer? facts path = some v) : i ≤ j := by
  obtain ⟨-, -, -, silent⟩ := decides
  refine Nat.le_of_not_lt fun later => ?_
  rw [silent i l later held] at answer
  cases answer

/-- At most one layer decides a path. -/
theorem Decides.unique (first : d.Decides facts path i v) (second : d.Decides facts path j w) :
    i = j ∧ v = w := by
  have ⟨l, held, answer, _⟩ := first
  have ⟨k, again, other, _⟩ := second
  obtain rfl : i = j :=
    Nat.le_antisymm (second.le_of_answer held answer) (first.le_of_answer again other)
  rw [held] at again
  cases again
  rw [answer] at other
  exact ⟨rfl, Option.some.inj other⟩

/-- Some layer decides a path if one decides an extension, and it is not an earlier one. -/
theorem Decides.exists_of_append (nonempty : p ≠ []) (decides : d.Decides facts (p ++ q) i v) :
    ∃ j w, d.Decides facts p j w ∧ i ≤ j := by
  obtain ⟨l, held, answer, -⟩ := decides
  rw [l.answer?_append facts nonempty] at answer
  obtain ⟨x, here, -⟩ := Option.bind_eq_some_iff.1 answer
  cases found : d.resolve? facts p with
  | none =>
    rw [resolve?_eq_none_iff] at found
    rw [found l (List.mem_of_getElem? held)] at here
    cases here
  | some w =>
    obtain ⟨j, decides⟩ := resolve?_eq_some_iff_decides.1 found
    exact ⟨j, w, decides, decides.le_of_answer held here⟩

/-- What is found below what a layer decides, it decides too. -/
theorem Decides.append (nonempty : p ≠ []) (decides : d.Decides facts p j w)
    (below : w.descend? q = some v) : d.Decides facts (p ++ q) j v := by
  obtain ⟨l, held, answer, silent⟩ := decides
  refine ⟨l, held, ?_, ?_⟩
  · rw [l.answer?_append facts nonempty, answer]
    exact below
  · intro i k later found
    rw [k.answer?_append facts nonempty, silent i k later found]
    rfl

/-- If an extension of a path resolves, so does the path, and it is decided by the same layer or a
later one. Whenever descending from what the path resolves to comes to a value, the extension
resolves to that value, and both are decided by the same layer. -/
theorem extensions_resolve_coherently (d : Document) (facts : Facts) (p q : List String)
    (nonempty : p ≠ []) :
    (∀ v, d.resolve? facts (p ++ q) = some v → ∃ i j w,
      d.Decides facts (p ++ q) i v ∧ d.Decides facts p j w ∧ d.resolve? facts p = some w ∧ i ≤ j ∧
      ∀ u, w.descend? q = some u → u = v ∧ j = i) ∧
    ∀ w u, d.resolve? facts p = some w → w.descend? q = some u →
      d.resolve? facts (p ++ q) = some u := by
  constructor
  · intro v resolved
    obtain ⟨i, extended⟩ := resolve?_eq_some_iff_decides.1 resolved
    obtain ⟨j, w, decides, later⟩ := extended.exists_of_append nonempty
    refine ⟨i, j, w, extended, decides, resolve?_eq_some_iff_decides.2 ⟨j, decides⟩, later, ?_⟩
    intro u below
    obtain ⟨index, value⟩ := (decides.append nonempty below).unique extended
    exact ⟨value, index⟩
  · intro w u resolved below
    obtain ⟨j, decides⟩ := resolve?_eq_some_iff_decides.1 resolved
    exact resolve?_eq_some_iff_decides.2 ⟨j, decides.append nonempty below⟩

/-- The later layer hides one leaf of the subtree and overrides the other with null. -/
theorem extensions_resolve_coherently_hidden :
    let base : DataLayer := ⟨"base", none, [("a", .map [("b", .bool true), ("c", .bool true)])]⟩
    let cleared : DataLayer := ⟨"cleared", some [], [("a", .map [("c", .null)])]⟩
    let foreign : DataLayer := ⟨"foreign", some [("app", .string "x")], [("a", .null)]⟩
    let d : Document := ⟨[base, cleared, foreign], 1, by decide⟩
    let subtree : Value := .map [("c", .null)]
    ["a"] ≠ [] ∧ d.resolve? Facts.none (["a"] ++ ["b"]) = some (.bool true) ∧
      (∃ i j w, d.Decides Facts.none (["a"] ++ ["b"]) i (.bool true) ∧
        d.Decides Facts.none ["a"] j w ∧ d.resolve? Facts.none ["a"] = some w ∧ i ≤ j ∧
        ∀ u, w.descend? ["b"] = some u → u = .bool true ∧ j = i) ∧
      d.resolve? Facts.none ["a"] = some subtree ∧ subtree.descend? ["b"] = none ∧
      subtree.descend? ["c"] = some .null ∧
      d.resolve? Facts.none (["a"] ++ ["c"]) = some .null := by
  intro base cleared foreign d subtree
  have nonempty : ["a"] ≠ [] := List.cons_ne_nil _ _
  have leaf : d.resolve? Facts.none (["a"] ++ ["b"]) = some (.bool true) := rfl
  have whole : d.resolve? Facts.none ["a"] = some subtree := rfl
  obtain ⟨decided, -⟩ := extensions_resolve_coherently d Facts.none ["a"] ["b"] nonempty
  obtain ⟨-, descended⟩ := extensions_resolve_coherently d Facts.none ["a"] ["c"] nonempty
  exact ⟨nonempty, leaf, decided _ leaf, whole, rfl, rfl, descended subtree .null whole rfl⟩

end Document
end LayeredSettings
