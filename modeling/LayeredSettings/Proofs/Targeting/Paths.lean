import LayeredSettings.Resolution
import LayeredSettings.Proofs.Value.Equality
import LayeredSettings.Proofs.Value.Ordered

/-!
What a target asks of the facts, path by path.

A target is met exactly if at every path that leads to something in it the facts hold what is asked
for there: a map where it has a map, one of the elements where it has a list, else an equal value.
-/

namespace LayeredSettings.Value

/-- What a predicate asks of what the facts hold at its place, if they hold anything there. -/
def Asks : (predicate : Value) → (found : Option Value) → Prop
  | .null, _ => False
  | .map _, found => ∃ actual, found = some (.map actual)
  | .list options, found => ∃ v, found = some v ∧ v ≠ .null ∧ ∃ option ∈ options, v.equal option
  | predicate, found => ∃ v, found = some v ∧ v.equal predicate

theorem not_asks_none (predicate : Value) : ¬ predicate.Asks none := by
  cases predicate <;> simp [Asks]

theorem meetsAll_cons_eq_true_iff {actual rest : List (String × Value)} {e : String × Value} :
    meetsAll actual (e :: rest) = true ↔
      (∃ found, KeyMap.get? actual e.1 = some found ∧ meets found e.2 = true) ∧
        meetsAll actual rest = true := by
  rw [meetsAll, Bool.and_eq_true]
  cases KeyMap.get? actual e.1 <;> simp

theorem meetsAll_eq_true_iff {actual required : List (String × Value)} :
    meetsAll actual required = true ↔
      ∀ e ∈ required, ∃ found, KeyMap.get? actual e.1 = some found ∧ meets found e.2 = true := by
  induction required with
  | nil => simp [meetsAll]
  | cons e rest ih => rw [meetsAll_cons_eq_true_iff, ih, List.forall_mem_cons]

theorem isNull_eq_false_iff {v : Value} : v.isNull = false ↔ v ≠ .null := by
  cases v <;> simp [isNull]

/-- Only a map asks for more than what its own place shows. -/
theorem meets_eq_true_iff {facts predicate : Value} :
    meets facts predicate = true ↔ predicate.Asks (some facts) ∧
      ∀ actual required, facts = .map actual → predicate = .map required →
        meetsAll actual required = true := by
  cases predicate with
  | null => simp [meets, Asks]
  | list options =>
    simp [meets, Asks, isNull_eq_false_iff, equal_comm facts]
  | map required => cases facts <;> simp [meets, Asks]
  | bool b => cases facts <;> simp [meets, Asks, isNull, equal, Bool.beq_comm]
  | number n => cases facts <;> simp [meets, Asks, isNull, equal, Number.equal_comm n]
  | string s => cases facts <;> simp [meets, Asks, isNull, equal, Bool.beq_comm]

theorem meets_map_eq_true_iff {facts : Value} {required : List (String × Value)} :
    meets facts (.map required) = true ↔
      ∃ actual, facts = .map actual ∧ meetsAll actual required = true := by
  cases facts <;> simp [meets]

theorem meets_list_eq_true_iff {facts : Value} {options : List Value} :
    meets facts (.list options) = true ↔
      facts ≠ .null ∧ ∃ option ∈ options, option.equal facts = true := by
  simp [meets, isNull_eq_false_iff]

theorem activates_iff_meetsAll {facts : Facts} {l : DataLayer} {required : KeyMap Value}
    (target : l.target = some required) :
    facts.activates l = true ↔ meetsAll facts.known required = true := by
  rw [Facts.activates, target]
  rfl

/-- A predicate is met exactly if what it holds under each path is. -/
def MetByPath (facts predicate : Value) : Prop :=
  ∀ path x, descend? predicate path = some x → x.Asks (descend? facts path)

theorem meetsAll_iff_paths {actual required : KeyMap Value} (ordered : KeyMap.Ordered required)
    (below : ∀ e ∈ required, ∀ facts, meets facts e.2 = true ↔ MetByPath facts e.2) :
    meetsAll actual required = true ↔
      ∀ path x, lookup? required path = some x → x.Asks (lookup? actual path) := by
  rw [meetsAll_eq_true_iff]
  constructor
  · intro met path x found
    cases path with
    | nil => cases found
    | cons key rest =>
      obtain ⟨predicate, held, found⟩ := Option.bind_eq_some_iff.1 found
      have member := KeyMap.mem_of_get? held
      obtain ⟨v, stored, met⟩ := met _ member
      rw [lookup?, stored]
      exact (below _ member v).1 met rest x found
  · rintro asks ⟨key, predicate⟩ member
    have held := ordered.get?_eq_some_iff.2 member
    have here := asks [key] predicate (by simp [lookup?, held, descend?])
    cases stored : actual.get? key with
    | none =>
      rw [lookup?, stored] at here
      exact (not_asks_none _ here).elim
    | some v =>
      refine ⟨v, rfl, (below _ member v).2 ?_⟩
      intro path x found
      have asked := asks (key :: path) x (by simp [lookup?, held, found])
      rwa [lookup?, stored] at asked

theorem meets_map_iff {required : KeyMap Value} (ordered : KeyMap.Ordered required)
    (below : ∀ e ∈ required, ∀ facts, meets facts e.2 = true ↔ MetByPath facts e.2)
    (facts : Value) : meets facts (.map required) = true ↔ MetByPath facts (.map required) := by
  rw [meets_eq_true_iff]
  constructor
  · rintro ⟨⟨actual, here⟩, met⟩ path x found
    cases here
    cases path with
    | nil =>
      cases found
      exact ⟨actual, rfl⟩
    | cons key rest =>
      exact (meetsAll_iff_paths ordered below).1 (met actual required rfl rfl) (key :: rest) x found
  · intro asks
    refine ⟨asks [] _ rfl, ?_⟩
    rintro actual _ rfl same
    cases same
    refine (meetsAll_iff_paths ordered below).2 ?_
    intro path x found
    cases path with
    | nil => cases found
    | cons key rest => exact asks (key :: rest) x found

/-- What is no map leads nowhere but to itself. -/
theorem meets_leaf_iff {predicate : Value} (leaf : predicate.asMap? = none) (facts : Value) :
    meets facts predicate = true ↔ MetByPath facts predicate := by
  rw [meets_eq_true_iff]
  constructor
  · rintro ⟨here, -⟩ path x found
    cases path with
    | nil =>
      cases found
      exact here
    | cons key rest => simp [descend?, get?, leaf] at found
  · intro asks
    refine ⟨asks [] _ rfl, ?_⟩
    rintro actual required rfl rfl
    cases leaf

mutual
theorem meets_iff_metByPath : (predicate : Value) → predicate.Ordered → ∀ facts,
    (meets facts predicate = true ↔ MetByPath facts predicate)
  | .map required, ordered => meets_map_iff ordered.1 (entries_meet_iff required ordered.2)
  | .null, _ | .bool _, _ | .number _, _ | .string _, _ | .list _, _ => meets_leaf_iff rfl

theorem entries_meet_iff : (entries : List (String × Value)) → OrderedEntries entries →
    ∀ e ∈ entries, ∀ facts, (meets facts e.2 = true ↔ MetByPath facts e.2)
  | [], _ => by simp
  | (key, predicate) :: rest, ordered => by
    intro e member
    rcases List.mem_cons.1 member with rfl | member
    · exact meets_iff_metByPath predicate ordered.1
    · exact entries_meet_iff rest ordered.2 e member
end

/-- A target is met exactly if under every path that leads somewhere in it the facts hold what is
asked for there; and so for the layers that have the target. The maps of a target are ordered, as
maps are that are built by insertion. -/
theorem target_met_iff_paths (required actual : KeyMap Value)
    (ordered : (Value.map required).Ordered) :
    (meetsAll actual required = true ↔
      ∀ path x, lookup? required path = some x → x.Asks (lookup? actual path)) ∧
    ∀ l : DataLayer, l.target = some required → (Facts.activates ⟨actual⟩ l = true ↔
      ∀ path x, lookup? required path = some x → x.Asks (lookup? actual path)) := by
  have below := entries_meet_iff required ordered.2
  have met : meetsAll actual required = true ↔ _ := meetsAll_iff_paths ordered.1 below
  refine ⟨met, ?_⟩
  intro l target
  rw [← met, Facts.activates, target]
  rfl

theorem target_met_by_option_and_below :
    let required : KeyMap Value :=
      [("app", .list [.string "web", .number (.int 1)]), ("host", .map [("up", .bool true)]),
        ("zone", .map [])]
    let actual : KeyMap Value :=
      [("app", .number (.int 1)), ("host", .map [("load", .null), ("up", .bool true)]),
        ("zone", .map [("name", .string "east")])]
    (Value.map required).Ordered ∧
      ∀ path x, lookup? required path = some x → x.Asks (lookup? actual path) := by
  intro required actual
  have ordered : (Value.map required).Ordered := by decide +kernel
  exact ⟨ordered, (target_met_iff_paths required actual ordered).1.1 (by decide)⟩

end LayeredSettings.Value
