import LayeredSettings.Proofs.Targeting.Alternatives

/-!
Values in both roles.

A value is compared with a predicate, or is itself a predicate that other facts are compared with. A
predicate that a value meets is met by all facts that meet this value in turn, as long as the lists
in the predicate have null and scalars in them. A value meets itself exactly if nothing that maps
lead to in it is null, a list or a NaN.
-/

namespace LayeredSettings.Value

theorem Atomic.of_equal {v w : Value} (atomic : v.Atomic) (same : v.equal w = true) : w.Atomic := by
  cases w with
  | list items =>
    cases v with
    | list => cases atomic.2
    | _ => cases same
  | map entries =>
    cases v with
    | map => cases atomic.1
    | _ => cases same
  | _ => exact ⟨rfl, rfl⟩

/-- What is equal to a scalar asks for nothing else than the scalar. -/
theorem equal_of_equal_of_meets {v q facts : Value} (atomic : v.Atomic) (same : v.equal q = true)
    (met : meets facts q = true) : facts ≠ .null ∧ v.equal facts = true := by
  obtain ⟨notNull, next⟩ := (meets_atomic_iff (atomic.of_equal same)).1 met
  exact ⟨notNull, equal_trans v q facts same next⟩

/-- A predicate whose lists have null and scalars in them is met by all facts that meet, as a
predicate, facts that meet it. -/
theorem targeting_composes (p : Value) (plain : p.AtomicOptions) (q facts : Value)
    (first : meets q p = true) (second : meets facts q = true) : meets facts p = true := by
  induction p using induction_through_maps generalizing q facts with
  | leaf p noMap =>
    rcases atomic_or_list noMap with atomic | ⟨options, rfl⟩
    · obtain ⟨-, same⟩ := (meets_atomic_iff atomic).1 first
      exact (meets_atomic_iff atomic).2 (equal_of_equal_of_meets atomic same second)
    · obtain ⟨-, option, member, same⟩ := meets_list_eq_true_iff.1 first
      have atomic : option.Atomic := atomicOptions_list.1 plain option member
      obtain ⟨notNull, same⟩ := equal_of_equal_of_meets atomic same second
      exact meets_list_eq_true_iff.2 ⟨notNull, option, member, same⟩
  | node required ih =>
    obtain ⟨middle, rfl, asked⟩ := meets_map_eq_true_iff.1 first
    obtain ⟨known, rfl, met⟩ := meets_map_eq_true_iff.1 second
    rw [meetsAll_eq_true_iff] at asked met
    refine meets_map_eq_true_iff.2 ⟨known, rfl, meetsAll_eq_true_iff.2 ?_⟩
    intro e member
    obtain ⟨between, held, here⟩ := asked e member
    obtain ⟨found, stored, further⟩ := met _ (KeyMap.mem_of_get? held)
    exact ⟨found, stored,
      ih e member (atomicOptions_map.1 plain e member) between found here further⟩

/-- The value in the middle has the other zero, and below a key at which only a map is asked for it
has a list. -/
theorem targeting_composes_nested :
    let p : Value := .map [("app", .list [.string "web", .number (.int 1)]),
      ("host", .map []), ("load", .number (.float 0.0))]
    let q : Value := .map [("app", .number (.int 1)),
      ("host", .map [("zone", .list [.null, .string "east", .string "west"])]),
      ("load", .number (.float (-0.0)))]
    let facts : Value := .map [("app", .number (.int 1)), ("host", .map [("zone", .string "west")]),
      ("load", .number (.float 0.0)), ("user", .null)]
    p.AtomicOptions ∧ meets q p = true ∧ meets facts q = true ∧ meets facts p = true := by
  intro p q facts
  have plain : p.AtomicOptions := by
    have load : (number (.float 0.0)).AtomicOptions := Atomic.atomicOptions (by decide)
    simp only [p, atomicOptions_map, atomicOptions_list, load, List.forall_mem_cons,
      List.not_mem_nil, false_imp_iff, implies_true, and_true]
    decide
  have first : meets q p = true := by decide +kernel
  have second : meets facts q = true := by decide +kernel
  exact ⟨plain, first, second, targeting_composes p plain q facts first second⟩

/-- An option that is a list is compared as a whole, but in the middle it is a choice. -/
example :
    let q : Value := .list [.string "east", .string "west"]
    meets q (.list [q]) = true ∧ meets (.string "west") q = true ∧
      meets (.string "west") (.list [q]) = false := by
  decide

/-! ## Values that meet themselves -/

/-- Null, lists and NaN. -/
inductive Elusive : Value → Prop
  | null : Elusive .null
  | list (items : List Value) : Elusive (.list items)
  | nan {x : Float} (nan : x.isNaN = true) : Elusive (.number (.float x))

theorem not_meets_self_list (items : List Value) : ¬ meets (.list items) (.list items) = true := by
  rw [meets_list_eq_true_iff]
  rintro ⟨-, option, member, same⟩
  exact not_equal_list_of_mem option items member same

theorem meets_self_iff_of_asMap? {v : Value} (noMap : v.asMap? = none) :
    meets v v = true ↔ ¬ v.Elusive := by
  cases v with
  | map => cases noMap
  | null => exact iff_of_false Bool.false_ne_true fun definite => definite .null
  | list items =>
    exact iff_of_false (not_meets_self_list items) fun definite => definite (.list items)
  | number n =>
    cases n with
    | float x =>
      show (x == x) = true ↔ _
      rw [float_beq_self]
      constructor
      · rintro isNumber (_ | _ | isNaN)
        rw [isNumber] at isNaN
        cases isNaN
      · intro definite
        exact Bool.eq_false_iff.2 fun isNaN => definite (.nan isNaN)
    | int n => exact iff_of_true (beq_self_eq_true n) nofun
    | uint n => exact iff_of_true (beq_self_eq_true n) nofun
  | bool b => exact iff_of_true (beq_self_eq_true b) nofun
  | string s => exact iff_of_true (beq_self_eq_true s) nofun

/-- A map finds itself under each of its keys. -/
theorem meetsAll_self_iff {entries : KeyMap Value} (ordered : KeyMap.Ordered entries) :
    meetsAll entries entries = true ↔ ∀ e ∈ entries, meets e.2 e.2 = true := by
  rw [meetsAll_eq_true_iff]
  refine forall₂_congr fun e member => ?_
  have held : KeyMap.get? entries e.1 = some e.2 := ordered.get?_eq_some_iff.2 member
  rw [held]
  simp only [Option.some.injEq, exists_eq_left']

theorem forall_reaches_map_iff {entries : KeyMap Value} :
    (∀ x, Reaches (.map entries) x → ¬ x.Elusive) ↔
      ∀ e ∈ entries, ∀ x, Reaches e.2 x → ¬ x.Elusive := by
  constructor
  · intro definite e member x below
    exact definite x (.under member below)
  · intro definite x reached
    obtain rfl | ⟨e, member, below⟩ := reaches_map_iff.1 reached
    · nofun
    · exact definite e member x below

theorem meets_self_iff (v : Value) (ordered : v.Ordered) :
    meets v v = true ↔ ∀ x, v.Reaches x → ¬ x.Elusive := by
  induction v using induction_through_maps with
  | leaf v noMap =>
    rw [meets_self_iff_of_asMap? noMap]
    simp only [reaches_iff_of_asMap? noMap, forall_eq]
  | node entries ih =>
    obtain ⟨increasing, ordered⟩ := ordered
    rw [orderedEntries_iff] at ordered
    rw [forall_reaches_map_iff]
    show meetsAll entries entries = true ↔ _
    rw [meetsAll_self_iff increasing]
    exact forall₂_congr fun e member => ih e member (ordered e member)

/-- A value meets itself exactly if it is not null and nothing that maps lead to in it is null, a
list or a NaN; so no list does, and facts that are taken as a target activate the layer exactly if
they hold nothing of that kind. The maps of a value are ordered, as maps are that are built by
insertion. -/
theorem values_that_meet_themselves :
    (∀ v : Value, v.Ordered →
      (meets v v = true ↔ v ≠ .null ∧ ∀ x, v.Reaches x → ¬ x.Elusive)) ∧
    (∀ items, meets (.list items) (.list items) = false) ∧
    ∀ (facts : Facts) (l : DataLayer), l.target = some facts.known → (map facts.known).Ordered →
      (facts.activates l = true ↔ ∀ x, Reaches (.map facts.known) x → ¬ x.Elusive) := by
  refine ⟨?_, fun items => Bool.eq_false_iff.2 (not_meets_self_list items), ?_⟩
  · intro v ordered
    rw [meets_self_iff v ordered]
    refine (and_iff_right_of_imp ?_).symm
    rintro definite rfl
    exact definite .null (.here _) .null
  · intro facts l target ordered
    rw [activates_iff_meetsAll target]
    exact meets_self_iff (.map facts.known) ordered

/-- An infinity meets itself, and so does what only has an empty map below a key; a NaN below a key
keeps facts from meeting themselves as a target. -/
theorem values_that_meet_themselves_nested :
    let v : Value := .map [("host", .map []), ("load", .number (.float (1.0 / 0.0)))]
    let known : KeyMap Value :=
      [("app", .string "web"), ("host", .map [("load", .number (.float (0.0 / 0.0)))])]
    v.Ordered ∧ (∀ x, v.Reaches x → ¬ x.Elusive) ∧
      (map known).Ordered ∧ Facts.activates ⟨known⟩ ⟨"a", some known, []⟩ = false := by
  intro v known
  have ordered : v.Ordered := by decide +kernel
  have orderedFacts : (map known).Ordered := by decide +kernel
  obtain ⟨values, -, layers⟩ := values_that_meet_themselves
  refine ⟨ordered, ((values v ordered).1 (by decide +kernel)).2, orderedFacts, ?_⟩
  have isNaN : Float.isNaN (0.0 / 0.0) = true := by decide +kernel
  have reached : Reaches (.map known) (.number (.float (0.0 / 0.0))) :=
    .under (List.mem_cons_of_mem _ (List.mem_singleton_self _))
      (.under (List.mem_singleton_self _) (.here _))
  refine Bool.eq_false_iff.2 fun active => ?_
  exact (layers ⟨known⟩ ⟨"a", some known, []⟩ rfl orderedFacts).1 active _ reached (.nan isNaN)

end LayeredSettings.Value
