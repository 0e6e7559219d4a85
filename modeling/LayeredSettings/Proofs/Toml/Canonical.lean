import LayeredSettings.Toml.Content
import LayeredSettings.Proofs.Value.Canonical

/-!
Values of TOML text are in one form each, however the tables were written.

Statements only ever add what was read to tables, so that what holds of each value that was read
holds of the tables after any number of statements.
-/

namespace LayeredSettings

namespace Toml

namespace Tree

theorem toValueItems_eq_map (items : List Tree) : toValueItems items = items.map toValue := by
  induction items with
  | nil => rfl
  | cons t rest ih => rw [toValueItems, ih, List.map_cons]

theorem toValueEntries_eq_mapValues (entries : List (String × Tree)) :
    toValueEntries entries = KeyMap.mapValues toValue entries := by
  induction entries with
  | nil => rfl
  | cons e rest ih =>
    rw [toValueEntries, ih]
    rfl

/-- The value that a table will be is in one form. -/
def Canonical (t : Tree) : Prop := t.toValue.Canonical

structure CanonicalEntries (entries : KeyMap Tree) : Prop where
  ordered : entries.Ordered
  each : ∀ e ∈ entries, e.2.Canonical

theorem canonical_array {items : List Tree} :
    (array items).Canonical ↔ ∀ t ∈ items, t.Canonical := by
  rw [Canonical, toValue, Value.canonical_list, toValueItems_eq_map, List.forall_mem_map]
  rfl

theorem canonical_map_toValueEntries {entries : KeyMap Tree} :
    (Value.map (toValueEntries entries)).Canonical ↔ CanonicalEntries entries := by
  rw [Value.canonical_map, toValueEntries_eq_mapValues, KeyMap.ordered_mapValues, KeyMap.mapValues,
    List.forall_mem_map]
  exact ⟨fun h => ⟨h.1, h.2⟩, fun h => ⟨h.ordered, h.each⟩⟩

theorem canonical_table {origin : Origin} {entries : KeyMap Tree} :
    (table origin entries).Canonical ↔ CanonicalEntries entries := canonical_map_toValueEntries

theorem canonical_tables {closed : List Tree} {last : KeyMap Tree} :
    (tables closed last).Canonical ↔ (∀ t ∈ closed, t.Canonical) ∧ CanonicalEntries last := by
  rw [Canonical, toValue, Value.canonical_list, List.forall_mem_append, List.forall_mem_singleton,
    toValueItems_eq_map, List.forall_mem_map, canonical_map_toValueEntries]
  rfl

theorem canonicalEntries_nil : CanonicalEntries [] := ⟨List.Pairwise.nil, List.forall_mem_nil _⟩

theorem CanonicalEntries.insert {entries : KeyMap Tree} (canonical : CanonicalEntries entries)
    (key : String) {t : Tree} (added : t.Canonical) : CanonicalEntries (entries.insert key t) := by
  refine ⟨canonical.ordered.insert key t, fun e member => ?_⟩
  rcases KeyMap.mem_insert member with rfl | member
  · exact added
  · exact canonical.each e member

theorem CanonicalEntries.get? {entries : KeyMap Tree} (canonical : CanonicalEntries entries)
    {key : String} {t : Tree} (found : entries.get? key = some t) : t.Canonical :=
  canonical.each (key, t) (KeyMap.mem_of_get? found)

theorem CanonicalEntries.enter? {value : Tree} (added : value.Canonical) {path : List String}
    {key : String} {entries changed : KeyMap Tree} (canonical : CanonicalEntries entries)
    (entered : Tree.enter? value path key entries = some changed) : CanonicalEntries changed := by
  induction path generalizing entries changed with
  | nil =>
    unfold Tree.enter? at entered
    split at entered
    · cases entered
    · cases entered
      exact canonical.insert key added
  | cons first rest ih =>
    unfold Tree.enter? at entered
    split at entered
    · obtain ⟨_, inside, rfl⟩ := Option.map_eq_some_iff.1 entered
      exact canonical.insert first (canonical_table.2 (ih canonicalEntries_nil inside))
    · rename_i origin inner found
      split at entered
      · obtain ⟨_, inside, rfl⟩ := Option.map_eq_some_iff.1 entered
        exact canonical.insert first
          (canonical_table.2 (ih (canonical_table.1 (canonical.get? found)) inside))
      · cases entered
    · rename_i closed last found
      obtain ⟨before, inner⟩ := canonical_tables.1 (canonical.get? found)
      split at entered
      · obtain ⟨_, inside, rfl⟩ := Option.map_eq_some_iff.1 entered
        exact canonical.insert first (canonical_tables.2 ⟨before, ih inner inside⟩)
      · cases entered
    · cases entered

theorem CanonicalEntries.under? {change : KeyMap Tree → Option (KeyMap Tree)}
    (keeps : ∀ {entries changed}, CanonicalEntries entries → change entries = some changed →
      CanonicalEntries changed)
    {path : List String} {entries changed : KeyMap Tree} (canonical : CanonicalEntries entries)
    (under : Tree.under? change path entries = some changed) : CanonicalEntries changed := by
  induction path generalizing entries changed with
  | nil => exact keeps canonical under
  | cons first rest ih =>
    unfold Tree.under? at under
    split at under
    · obtain ⟨_, inside, rfl⟩ := Option.map_eq_some_iff.1 under
      exact canonical.insert first (canonical_table.2 (ih canonicalEntries_nil inside))
    · rename_i origin inner found
      split at under
      · cases under
      · obtain ⟨_, inside, rfl⟩ := Option.map_eq_some_iff.1 under
        exact canonical.insert first
          (canonical_table.2 (ih (canonical_table.1 (canonical.get? found)) inside))
    · rename_i closed last found
      obtain ⟨before, inner⟩ := canonical_tables.1 (canonical.get? found)
      obtain ⟨_, inside, rfl⟩ := Option.map_eq_some_iff.1 under
      exact canonical.insert first (canonical_tables.2 ⟨before, ih inner inside⟩)
    · cases under

theorem CanonicalEntries.openTable? {key : String} {entries changed : KeyMap Tree}
    (canonical : CanonicalEntries entries) (opened : Tree.openTable? key entries = some changed) :
    CanonicalEntries changed := by
  unfold Tree.openTable? at opened
  split at opened
  · cases opened
    exact canonical.insert key (canonical_table.2 canonicalEntries_nil)
  · rename_i inner found
    cases opened
    exact canonical.insert key (canonical_table.2 (canonical_table.1 (canonical.get? found)))
  · cases opened

theorem CanonicalEntries.openItem? {key : String} {entries changed : KeyMap Tree}
    (canonical : CanonicalEntries entries) (opened : Tree.openItem? key entries = some changed) :
    CanonicalEntries changed := by
  unfold Tree.openItem? at opened
  split at opened
  · cases opened
    exact canonical.insert key (canonical_tables.2 ⟨List.forall_mem_nil _, canonicalEntries_nil⟩)
  · rename_i closed last found
    obtain ⟨before, inner⟩ := canonical_tables.1 (canonical.get? found)
    cases opened
    refine canonical.insert key (canonical_tables.2 ⟨?_, canonicalEntries_nil⟩)
    exact List.forall_mem_append.2 ⟨before, List.forall_mem_singleton.2 (canonical_table.2 inner)⟩
  · cases opened

end Tree

/-! ## What is read -/

theorem canonical_of_word? {cs : List Char} {v : Value} (read : word? cs = some v) :
    v.Canonical := by
  unfold word? at read
  split at read
  · cases read
    exact Value.canonical_bool true
  · cases read
    exact Value.canonical_bool false
  · split at read
    · cases read
      exact Value.canonical_map.2
        ⟨List.pairwise_singleton _ _, List.forall_mem_singleton.2 (Value.canonical_string _)⟩
    · split at read
      · obtain ⟨n, -, rfl⟩ := Option.map_eq_some_iff.1 read
        exact Value.canonical_number trivial
      · obtain ⟨x, -, rfl⟩ := Option.map_eq_some_iff.1 read
        exact Value.canonical_number trivial

theorem canonical_of_readWord? {cs rest : List Char} {v : Value}
    (read : readWord? cs = some (v, rest)) : v.Canonical := by
  have some_word {word later : List Char} (read : (word? word).map (·, later) = some (v, rest)) :
      v.Canonical := by
    obtain ⟨w, word, same⟩ := Option.map_eq_some_iff.1 read
    cases same
    exact canonical_of_word? word
  unfold readWord? at read
  simp only at read
  split at read
  · split at read
    · exact some_word read
    · exact some_word read
  · exact some_word read

theorem forall_of_readItems? {α : Type} {P : α → Prop} {skip : List Char → List Char}
    {readItem : List Char → Option (α × List Char)} {close : Char} {trailing mayClose : Bool}
    {cs rest : List Char} {items : List α}
    (each : ∀ {cs rest item}, readItem cs = some (item, rest) → P item)
    (read : readItems? skip readItem close trailing mayClose cs = some (items, rest)) :
    ∀ item ∈ items, P item := by
  fun_induction readItems? skip readItem close trailing mayClose cs generalizing items rest with
  | case1 =>
    cases read
    exact List.forall_mem_nil _
  | case2 =>
    rename_i ih
    obtain ⟨⟨item, after⟩, first, read⟩ := Option.bind_eq_some_iff.1 read
    simp only at read
    split at read
    · split at read
      · rename_i shorter
        obtain ⟨⟨others, _⟩, more, read⟩ := Option.bind_eq_some_iff.1 read
        cases read
        exact List.forall_mem_cons.2 ⟨each first, ih _ shorter more⟩
      · cases read
    · split at read
      · cases read
        exact List.forall_mem_singleton.2 (each first)
      · cases read
    · cases read

theorem canonical_of_readPair? {readValue : List Char → Option (Tree × List Char)}
    (each : ∀ {cs rest t}, readValue cs = some (t, rest) → t.Canonical) {cs rest : List Char}
    {pair : Key × Tree} (read : readPair? readValue cs = some (pair, rest)) : pair.2.Canonical := by
  obtain ⟨⟨key, after⟩, -, read⟩ := Option.bind_eq_some_iff.1 read
  simp only at read
  split at read
  · obtain ⟨⟨t, _⟩, value, same⟩ := Option.map_eq_some_iff.1 read
    cases same
    exact each value
  · cases read

/-- What every step of a fold keeps is kept by the fold. -/
theorem foldlM_keeps {α β : Type} {P : α → Prop} {Q : β → Prop} {f : α → β → Option α}
    (step : ∀ {a b a'}, P a → Q b → f a b = some a' → P a') {bs : List β} (all : ∀ b ∈ bs, Q b)
    {a last : α} (first : P a) (run : bs.foldlM f a = some last) : P last := by
  induction bs generalizing a with
  | nil =>
    cases run
    exact first
  | cons b rest ih =>
    obtain ⟨now, later⟩ := List.forall_mem_cons.1 all
    rw [List.foldlM_cons] at run
    obtain ⟨next, taken, run⟩ := Option.bind_eq_some_iff.1 run
    exact ih later (step first now taken) run

theorem canonical_of_readValue? {depth : Nat} {cs rest : List Char} {t : Tree}
    (read : readValue? depth cs = some (t, rest)) : t.Canonical := by
  induction depth using Nat.strongRecOn generalizing cs rest t with
  | ind depth ih =>
    unfold readValue? at read
    split at read
    · rename_i less inside
      obtain ⟨⟨items, _⟩, inner, same⟩ := Option.map_eq_some_iff.1 read
      cases same
      exact Tree.canonical_array.2 (forall_of_readItems? (ih less (Nat.lt_succ_self less)) inner)
    · rename_i less inside
      obtain ⟨⟨entries, _⟩, inner, read⟩ := Option.bind_eq_some_iff.1 read
      obtain ⟨table, filled, read⟩ := Option.bind_eq_some_iff.1 read
      cases read
      have each : ∀ e ∈ entries, e.2.Canonical :=
        forall_of_readItems? (canonical_of_readPair? (ih less (Nat.lt_succ_self less))) inner
      refine Tree.canonical_table.2 (foldlM_keeps ?_ each Tree.canonicalEntries_nil filled)
      intro table e changed canonical added entered
      exact canonical.enter? added entered
    · split at read
      · cases read
        exact Value.canonical_string _
      · obtain ⟨⟨v, _⟩, word, same⟩ := Option.map_eq_some_iff.1 read
        cases same
        exact canonical_of_readWord? word

/-! ## Statements -/

def Statement.Canonical : Statement → Prop
  | .entry _ value => value.Canonical
  | _ => True

theorem canonical_of_readStatement? {cs rest : List Char} {s : Statement}
    (read : readStatement? cs = some (s, rest)) : s.Canonical := by
  unfold readStatement? at read
  split at read
  · obtain ⟨_, -, read⟩ := Option.bind_eq_some_iff.1 read
    simp only at read
    split at read
    · cases read
      trivial
    · cases read
  · obtain ⟨_, -, read⟩ := Option.bind_eq_some_iff.1 read
    simp only at read
    split at read
    · cases read
      trivial
    · cases read
  · obtain ⟨⟨⟨key, value⟩, _⟩, pair, same⟩ := Option.map_eq_some_iff.1 read
    cases same
    exact canonical_of_readPair? canonical_of_readValue? pair

theorem canonical_of_statements? {cs : List Char} {list : List Statement}
    (read : statements? cs = some list) : ∀ s ∈ list, s.Canonical := by
  fun_induction statements? cs generalizing list with
  | case1 =>
    cases read
    exact List.forall_mem_nil _
  | case2 =>
    rename_i ih
    exact ih read
  | case3 => cases read
  | case4 =>
    rename_i ih
    obtain ⟨⟨statement, _⟩, first, read⟩ := Option.bind_eq_some_iff.1 read
    obtain ⟨rest, -, read⟩ := Option.bind_eq_some_iff.1 read
    split at read
    · rename_i shorter
      obtain ⟨others, more, read⟩ := Option.bind_eq_some_iff.1 read
      cases read
      exact List.forall_mem_cons.2 ⟨canonical_of_readStatement? first, ih rest shorter more⟩
    · cases read

theorem Tables.canonical_add? {tables changed : Tables} {s : Statement}
    (before : Tree.CanonicalEntries tables.root) (added : s.Canonical)
    (run : tables.add? s = some changed) : Tree.CanonicalEntries changed.root := by
  cases s with
  | table key =>
    obtain ⟨root, opened, rfl⟩ := Option.map_eq_some_iff.1 run
    exact before.under? Tree.CanonicalEntries.openTable? opened
  | item key =>
    obtain ⟨root, opened, rfl⟩ := Option.map_eq_some_iff.1 run
    exact before.under? Tree.CanonicalEntries.openItem? opened
  | entry key value =>
    obtain ⟨root, entered, rfl⟩ := Option.map_eq_some_iff.1 run
    exact before.under? (Tree.CanonicalEntries.enter? added) entered

end Toml

theorem Value.canonical_of_readToml? {text : String} {v : Value} (read : readToml? text = some v) :
    v.Canonical := by
  unfold readToml? at read
  obtain ⟨statements, meaning, read⟩ := Option.bind_eq_some_iff.1 read
  obtain ⟨tables, run, read⟩ := Option.bind_eq_some_iff.1 read
  cases read
  have each := Toml.canonical_of_statements? meaning
  have root : Toml.Tree.CanonicalEntries tables.root :=
    Toml.foldlM_keeps Toml.Tables.canonical_add? each Toml.Tree.canonicalEntries_nil run
  exact Toml.Tree.canonical_table.2 root

end LayeredSettings
