import LayeredSettings.Proofs.Targeting.Paths
import LayeredSettings.Proofs.Value.Reach

/-!
Lists in a target as alternatives.

A target with several lists stands for all the targets without a list that come of it when each list
gives way to one of its elements. It is met exactly if one of these is, as long as the elements are
null or scalars. An empty list leaves nothing to take, and then nothing meets the target.
-/

namespace LayeredSettings.Value

mutual
/-- A predicate with one of its elements in the place of each list that maps lead to. -/
inductive Choice : Value → Value → Prop
  | atomic {v : Value} (atomic : v.Atomic) : Choice v v
  | option {options : List Value} {chosen : Value} (member : chosen ∈ options) :
      Choice (.list options) chosen
  | map {required chosen : List (String × Value)} (each : EntryChoices required chosen) :
      Choice (.map required) (.map chosen)

/-- The choice that is made under one key does not depend on those made under others. -/
inductive EntryChoices : List (String × Value) → List (String × Value) → Prop
  | nil : EntryChoices [] []
  | cons {key : String} {v chosen : Value} {rest others : List (String × Value)}
      (here : Choice v chosen) (further : EntryChoices rest others) :
      EntryChoices ((key, v) :: rest) ((key, chosen) :: others)
end

theorem choice_map_iff {required : List (String × Value)} {q : Value} :
    Choice (.map required) q ↔ ∃ chosen, EntryChoices required chosen ∧ q = .map chosen := by
  constructor
  · intro choice
    cases choice with
    | atomic atomic => cases atomic.1
    | map each => exact ⟨_, each, rfl⟩
  · rintro ⟨chosen, each, rfl⟩
    exact .map each

theorem choice_list_iff {options : List Value} {q : Value} :
    Choice (.list options) q ↔ q ∈ options := by
  constructor
  · intro choice
    cases choice with
    | atomic atomic => cases atomic.2
    | option member => exact member
  · exact .option

theorem choice_atomic_iff {v q : Value} (atomic : v.Atomic) : Choice v q ↔ q = v := by
  constructor
  · intro choice
    cases choice with
    | atomic => rfl
    | option => cases atomic.2
    | map => cases atomic.1
  · rintro rfl
    exact .atomic atomic

theorem entryChoices_cons_iff {e : String × Value} {rest chosen : List (String × Value)} :
    EntryChoices (e :: rest) chosen ↔
      ∃ q others, Choice e.2 q ∧ EntryChoices rest others ∧ chosen = (e.1, q) :: others := by
  constructor
  · intro choices
    cases choices with
    | cons here further => exact ⟨_, _, here, further, rfl⟩
  · rintro ⟨q, others, here, further, rfl⟩
    exact .cons here further

/-- What is no map is a list, null or a scalar. -/
theorem atomic_or_list {v : Value} (noMap : v.asMap? = none) :
    v.Atomic ∨ ∃ options, v = .list options := by
  cases v with
  | map => cases noMap
  | list options => exact .inr ⟨options, rfl⟩
  | _ => exact .inl ⟨rfl, rfl⟩

/-! ## Whether there is a choice -/

theorem exists_entryChoices_iff {required : List (String × Value)} :
    (∃ chosen, EntryChoices required chosen) ↔ ∀ e ∈ required, ∃ q, Choice e.2 q := by
  induction required with
  | nil => exact ⟨fun _ => List.forall_mem_nil _, fun _ => ⟨[], .nil⟩⟩
  | cons e rest ih =>
    rw [List.forall_mem_cons, ← ih]
    constructor
    · rintro ⟨chosen, choices⟩
      obtain ⟨q, others, here, further, -⟩ := entryChoices_cons_iff.1 choices
      exact ⟨⟨q, here⟩, ⟨others, further⟩⟩
    · rintro ⟨⟨q, here⟩, ⟨others, further⟩⟩
      exact ⟨_, entryChoices_cons_iff.2 ⟨q, others, here, further, rfl⟩⟩

/-- Only an empty list leaves no choice. -/
theorem exists_choice_iff (p : Value) :
    (∃ q, Choice p q) ↔ ∀ options, p.Reaches (.list options) → options ≠ [] := by
  induction p using induction_through_maps with
  | leaf p noMap =>
    simp only [reaches_iff_of_asMap? noMap]
    rcases atomic_or_list noMap with atomic | ⟨options, rfl⟩
    · refine ⟨?_, fun _ => ⟨p, .atomic atomic⟩⟩
      rintro - options rfl
      cases atomic.2
    · simp only [choice_list_iff, list.injEq, forall_eq]
      constructor
      · rintro ⟨option, member⟩
        exact List.ne_nil_of_mem member
      · exact List.exists_mem_of_ne_nil options
  | node required ih =>
    simp only [choice_map_iff, reaches_map_iff, reduceCtorEq, false_or]
    constructor
    · rintro ⟨_, chosen, choices, -⟩ options ⟨e, member, reached⟩
      exact (ih e member).1 (exists_entryChoices_iff.1 ⟨chosen, choices⟩ e member) options reached
    · intro filled
      obtain ⟨chosen, choices⟩ := exists_entryChoices_iff.2 fun e member =>
        (ih e member).2 fun options reached => filled options ⟨e, member, reached⟩
      exact ⟨_, chosen, choices, rfl⟩

/-! ## What is chosen -/

theorem EntryChoices.origin {required chosen : List (String × Value)}
    (choices : EntryChoices required chosen) : ∀ f ∈ chosen, ∃ e ∈ required, Choice e.2 f.2 := by
  induction required generalizing chosen with
  | nil =>
    cases choices
    exact List.forall_mem_nil _
  | cons e rest ih =>
    obtain ⟨q, others, here, further, rfl⟩ := entryChoices_cons_iff.1 choices
    refine List.forall_mem_cons.2 ⟨⟨e, List.mem_cons_self .., here⟩, ?_⟩
    intro f member
    obtain ⟨d, old, choice⟩ := ih further f member
    exact ⟨d, List.mem_cons_of_mem _ old, choice⟩

/-- No list is left in what is chosen. -/
theorem choice_without_lists (p : Value) : p.AtomicOptions → ∀ q, Choice p q →
    ∀ items, ¬ q.Reaches (.list items) := by
  induction p using induction_through_maps with
  | leaf p noMap =>
    intro plain q choice
    rcases atomic_or_list noMap with atomic | ⟨options, rfl⟩
    · obtain rfl := (choice_atomic_iff atomic).1 choice
      exact atomic.not_reaches_list
    · exact (atomicOptions_list.1 plain q (choice_list_iff.1 choice)).not_reaches_list
  | node required ih =>
    intro plain q choice items reached
    obtain ⟨chosen, choices, rfl⟩ := choice_map_iff.1 choice
    obtain same | ⟨f, member, below⟩ := reaches_map_iff.1 reached
    · cases same
    · obtain ⟨e, origin, choice⟩ := choices.origin f member
      exact ih e origin (atomicOptions_map.1 plain e origin) f.2 choice items below

/-! ## What is met -/

theorem meets_atomic_iff {facts predicate : Value} (atomic : predicate.Atomic) :
    meets facts predicate = true ↔ facts ≠ .null ∧ predicate.equal facts = true := by
  cases predicate with
  | list => cases atomic.2
  | map => cases atomic.1
  | null => cases facts <;> simp [meets, equal]
  | _ => simp [meets, isNull_eq_false_iff]

/-- The choices under the keys of a map can be made one by one. -/
theorem meetsAll_iff_exists_choices {actual required : List (String × Value)}
    (below : ∀ e ∈ required, ∀ facts,
      meets facts e.2 = true ↔ ∃ q, Choice e.2 q ∧ meets facts q = true) :
    meetsAll actual required = true ↔
      ∃ chosen, EntryChoices required chosen ∧ meetsAll actual chosen = true := by
  induction required with
  | nil => exact ⟨fun met => ⟨[], .nil, met⟩, fun _ => rfl⟩
  | cons e rest ih =>
    obtain ⟨here, below⟩ := List.forall_mem_cons.1 below
    rw [meetsAll_cons_eq_true_iff, ih below]
    constructor
    · rintro ⟨⟨found, stored, met⟩, others, choices, all⟩
      obtain ⟨q, choice, met⟩ := (here found).1 met
      exact ⟨_, entryChoices_cons_iff.2 ⟨q, others, choice, choices, rfl⟩,
        meetsAll_cons_eq_true_iff.2 ⟨⟨found, stored, met⟩, all⟩⟩
    · rintro ⟨_, choices, all⟩
      obtain ⟨q, others, choice, further, rfl⟩ := entryChoices_cons_iff.1 choices
      obtain ⟨⟨found, stored, met⟩, all⟩ := meetsAll_cons_eq_true_iff.1 all
      exact ⟨⟨found, stored, (here found).2 ⟨q, choice, met⟩⟩, others, further, all⟩

theorem meets_iff_exists_met_choice (p : Value) : p.AtomicOptions → ∀ facts,
    (meets facts p = true ↔ ∃ q, Choice p q ∧ meets facts q = true) := by
  induction p using induction_through_maps with
  | leaf p noMap =>
    intro plain facts
    rcases atomic_or_list noMap with atomic | ⟨options, rfl⟩
    · simp only [choice_atomic_iff atomic, exists_eq_left]
    -- In its list an element is compared with the facts, in its place it is met by them.
    · simp only [choice_list_iff, meets_list_eq_true_iff, ← exists_and_left]
      refine exists_congr fun option => ?_
      rw [and_left_comm]
      refine and_congr_right fun member => ?_
      exact (meets_atomic_iff (atomicOptions_list.1 plain option member)).symm
  | node required ih =>
    intro plain facts
    have below := fun e member => ih e member (atomicOptions_map.1 plain e member)
    simp only [choice_map_iff, meets_map_eq_true_iff, meetsAll_iff_exists_choices below]
    constructor
    · rintro ⟨actual, rfl, chosen, choices, all⟩
      exact ⟨_, ⟨chosen, choices, rfl⟩, meets_map_eq_true_iff.2 ⟨actual, rfl, all⟩⟩
    · rintro ⟨_, ⟨chosen, choices, rfl⟩, met⟩
      obtain ⟨actual, rfl, all⟩ := meets_map_eq_true_iff.1 met
      exact ⟨actual, rfl, chosen, choices, all⟩

/-- A predicate whose lists have null and scalars in them is met exactly if facts meet a predicate
without lists that comes of it by a choice from each list; and there is such a choice exactly if no
list is empty. -/
theorem lists_are_alternatives (p : Value) (plain : p.AtomicOptions) :
    (∀ facts, meets facts p = true ↔
      ∃ q, Choice p q ∧ (∀ items, ¬ q.Reaches (.list items)) ∧ meets facts q = true) ∧
    ((∃ q, Choice p q) ↔ ∀ options, p.Reaches (.list options) → options ≠ []) := by
  refine ⟨fun facts => ?_, exists_choice_iff p⟩
  rw [meets_iff_exists_met_choice p plain facts]
  refine exists_congr fun q => and_congr_right fun choice => ?_
  exact (and_iff_right (choice_without_lists p plain q choice)).symm

theorem lists_are_alternatives_nested :
    let p : Value := .map [("app", .list [.string "web", .number (.int 1)]),
      ("host", .map [("up", .bool true), ("zone", .list [.null, .string "east"])])]
    let facts : Value := .map [("app", .number (.int 1)),
      ("host", .map [("up", .bool true), ("zone", .string "east")])]
    p.AtomicOptions ∧
      ∃ q, Choice p q ∧ (∀ items, ¬ q.Reaches (.list items)) ∧ meets facts q = true := by
  intro p facts
  have plain : p.AtomicOptions := by
    have up : (bool true).AtomicOptions := Atomic.atomicOptions (by decide)
    simp only [p, atomicOptions_map, atomicOptions_list, up, List.forall_mem_cons, true_and,
      List.not_mem_nil, false_imp_iff, implies_true, and_true]
    decide
  exact ⟨plain, ((lists_are_alternatives p plain).1 facts).1 (by decide)⟩

end LayeredSettings.Value
