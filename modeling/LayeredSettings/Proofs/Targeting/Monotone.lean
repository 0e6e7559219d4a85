import LayeredSettings.Proofs.Targeting.Paths
import Mathlib.Logic.Relation

/-!
Targets that ask for less and facts that say more.

A target asks for less when a requirement is left out or an option is added, at any place that maps
lead to. Facts say more when a key is added, again at any such place. Neither turns a target that is
met into one that is not, as long as what the target compares with a list stays what it was.
-/

namespace LayeredSettings.Value

/-- One change, of the value itself or of what one of its maps holds under a key. -/
inductive Changes (change : Value → Value → Prop) : Value → Value → Prop
  | here {v w : Value} (changed : change v w) : Changes change v w
  | under {m : KeyMap Value} (key : String) {v w : Value} (held : m.get? key = some v)
      (changed : Changes change v w) : Changes change (.map m) (.map (m.insert key w))

/-- Any number of changes, one after the other. -/
abbrev Edited (change : Value → Value → Prop) : Value → Value → Prop :=
  Relation.ReflTransGen (Changes change)

/-- How a predicate comes to ask for less. -/
inductive Eases : Value → Value → Prop
  | drop (required : KeyMap Value) (key : String) :
      Eases (.map required) (.map (required.erase key))
  | allow (before after : List Value) (option : Value) :
      Eases (.list (before ++ after)) (.list (before ++ option :: after))

/-- How facts come to say more. -/
inductive Extends : Value → Value → Prop
  | add {known : KeyMap Value} (key : String) (v : Value) (absent : known.get? key = none) :
      Extends (.map known) (.map (known.insert key v))

/-! ## Less is asked for -/

theorem meets_of_eases {facts predicate eased : Value} (change : Eases predicate eased)
    (met : meets facts predicate = true) : meets facts eased = true := by
  cases change with
  | drop required key =>
    obtain ⟨actual, rfl, all⟩ := meets_map_eq_true_iff.1 met
    rw [meetsAll_eq_true_iff] at all
    refine meets_map_eq_true_iff.2 ⟨actual, rfl, meetsAll_eq_true_iff.2 ?_⟩
    exact fun e member => all e (KeyMap.mem_of_mem_erase member)
  | allow before after option =>
    obtain ⟨notNull, chosen, member, same⟩ := meets_list_eq_true_iff.1 met
    refine meets_list_eq_true_iff.2 ⟨notNull, chosen, ?_, same⟩
    rcases List.mem_append.1 member with early | late
    · exact List.mem_append_left _ early
    · exact List.mem_append_right _ (List.mem_cons_of_mem _ late)

theorem meets_of_changes_eases {facts predicate eased : Value}
    (change : Changes Eases predicate eased) (met : meets facts predicate = true) :
    meets facts eased = true := by
  induction change generalizing facts with
  | here change => exact meets_of_eases change met
  | under key held _ ih =>
    obtain ⟨actual, rfl, all⟩ := meets_map_eq_true_iff.1 met
    rw [meetsAll_eq_true_iff] at all
    refine meets_map_eq_true_iff.2 ⟨actual, rfl, meetsAll_eq_true_iff.2 ?_⟩
    intro e member
    rcases KeyMap.mem_insert member with rfl | old
    · obtain ⟨found, stored, below⟩ := all _ (KeyMap.mem_of_get? held)
      exact ⟨found, stored, ih below⟩
    · exact all e old

theorem meets_of_eased {facts predicate eased : Value} (edited : Edited Eases predicate eased)
    (met : meets facts predicate = true) : meets facts eased = true := by
  induction edited with
  | refl => exact met
  | tail _ change ih => exact meets_of_changes_eases change ih

/-! ## More is known -/

/-- Wherever a path leads, it still leads to the same value, or from one map to another. -/
def Kept (v w : Value) : Prop :=
  ∀ path x, descend? v path = some x →
    descend? w path = some x ∨ ∃ m n, x = .map m ∧ descend? w path = some (.map n)

theorem Kept.refl (v : Value) : Kept v v := fun _ _ found => .inl found

theorem Kept.trans {u v w : Value} (first : Kept u v) (second : Kept v w) : Kept u w := by
  intro path x found
  rcases first path x found with same | ⟨m, n, rfl, grown⟩
  · exact second path x same
  · rcases second path _ grown with same | ⟨_, k, _, again⟩
    · exact .inr ⟨m, n, rfl, same⟩
    · exact .inr ⟨m, k, rfl, again⟩

/-- What a map holds under a key may change to what is kept of it. -/
theorem kept_insert {m : KeyMap Value} {key : String} {w : Value}
    (kept : ∀ v, m.get? key = some v → Kept v w) : Kept (.map m) (.map (m.insert key w)) := by
  intro path x found
  cases path with
  | nil =>
    cases found
    exact .inr ⟨m, _, rfl, rfl⟩
  | cons k rest =>
    obtain ⟨v, held, below⟩ := Option.bind_eq_some_iff.1 found
    have inserted : descend? (.map (m.insert key w)) (k :: rest) =
        ((if key = k then some w else m.get? k).bind (descend? · rest)) := by
      rw [← KeyMap.get?_insert]
      rfl
    rw [inserted]
    by_cases same : key = k
    · subst same
      rw [if_pos rfl]
      exact kept v held rest x below
    · rw [if_neg same]
      exact .inl found

theorem kept_of_changes {v w : Value} (change : Changes Extends v w) : Kept v w := by
  induction change with
  | here change =>
    cases change with
    | add key value absent =>
      refine kept_insert fun v held => ?_
      rw [absent] at held
      cases held
  | under key held _ ih =>
    refine kept_insert fun v stored => ?_
    rw [held] at stored
    cases stored
    exact ih

theorem kept_of_extended {v w : Value} (edited : Edited Extends v w) : Kept v w := by
  induction edited with
  | refl => exact .refl v
  | tail _ change ih => exact ih.trans (kept_of_changes change)

/-- Only a list may ask for something else when a map in the facts grows. -/
theorem MetByPath.of_kept {facts more predicate : Value} (met : MetByPath facts predicate)
    (kept : Kept facts more)
    (same : ∀ path options, descend? predicate path = some (.list options) →
      descend? facts path = descend? more path) : MetByPath more predicate := by
  intro path x found
  have asked := met path x found
  cases x with
  | null => exact asked.elim
  | list options =>
    rw [← same path options found]
    exact asked
  | map required =>
    obtain ⟨actual, here⟩ := asked
    rcases kept path _ here with here | ⟨_, grown, _, here⟩
    · exact ⟨actual, here⟩
    · exact ⟨grown, here⟩
  | bool _ | number _ | string _ =>
    obtain ⟨y, here, equal⟩ := asked
    rcases kept path y here with here | ⟨m, _, rfl, _⟩
    · exact ⟨y, here, equal⟩
    · cases equal

/-! ## Layers -/

/-- Facts that are added beside those known leave every layer active that was so. -/
theorem activates_of_kept {known more : KeyMap Value} {l : DataLayer}
    (kept : ∀ key v, known.get? key = some v → more.get? key = some v)
    (active : Facts.activates ⟨known⟩ l = true) : Facts.activates ⟨more⟩ l = true := by
  cases target : l.target with
  | none =>
    rw [Facts.activates, target]
    rfl
  | some required =>
    rw [activates_iff_meetsAll target, meetsAll_eq_true_iff] at active ⊢
    intro e member
    obtain ⟨found, stored, below⟩ := active e member
    exact ⟨found, kept e.1 found stored, below⟩

/-- A target that is met stays so if it asks for less and the facts say more, whatever the number
of changes on either side, unless the facts change where the target has a list. So no new fact, no
requirement that is dropped and no option that is added deactivates a layer. The maps of a target
are ordered, as maps are that are built by insertion. -/
theorem targeting_is_monotone :
    (∀ predicate eased facts more : Value, predicate.Ordered → Edited Eases predicate eased →
      Edited Extends facts more →
      (∀ path options, descend? predicate path = some (.list options) →
        descend? facts path = descend? more path) →
      meets facts predicate = true → meets more eased = true) ∧
    (∀ (known more : KeyMap Value) (l : DataLayer),
      (∀ key v, known.get? key = some v → more.get? key = some v) →
      Facts.activates ⟨known⟩ l = true → Facts.activates ⟨more⟩ l = true) ∧
    ∀ (facts : Facts) (l eased : DataLayer) (required less : KeyMap Value),
      l.target = some required → eased.target = some less →
      Edited Eases (.map required) (.map less) →
      facts.activates l = true → facts.activates eased = true := by
  refine ⟨?_, fun known more l kept => activates_of_kept kept, ?_⟩
  · intro predicate eased facts more ordered edited extended same met
    -- The facts grow first, as the paths at which they must not are those of the old target.
    have iff_path := meets_iff_metByPath predicate ordered
    have still : MetByPath more predicate :=
      ((iff_path facts).1 met).of_kept (kept_of_extended extended) same
    exact meets_of_eased edited ((iff_path more).2 still)
  · intro facts l eased required less target easedTarget edited active
    rw [activates_iff_meetsAll target] at active
    rw [activates_iff_meetsAll easedTarget]
    have met := meets_of_eased edited (meets_map_eq_true_iff.2 ⟨facts.known, rfl, active⟩)
    obtain ⟨_, same, met⟩ := meets_map_eq_true_iff.1 met
    cases same
    exact met

/-- An option is added, a requirement is dropped at the top and one below a key, while the facts
grow at the top and below the same key; and a layer that has either target. -/
theorem targeting_is_monotone_nested :
    let required : KeyMap Value :=
      [("app", .list [.string "web"]), ("host", .map [("up", .bool true)]),
        ("zone", .number (.int 1))]
    let less : KeyMap Value := [("app", .list [.null, .string "web"]), ("host", .map [])]
    let known : KeyMap Value :=
      [("app", .string "web"), ("host", .map [("up", .bool true)]), ("zone", .number (.int 1))]
    let more : KeyMap Value := [("app", .string "web"),
      ("host", .map [("load", .null), ("up", .bool true)]), ("user", .list []),
      ("zone", .number (.int 1))]
    Edited Eases (.map required) (.map less) ∧ Edited Extends (.map known) (.map more) ∧
      (Value.map required).Ordered ∧ meets (.map known) (.map required) = true ∧
      meets (.map more) (.map less) = true ∧
      Facts.activates ⟨known.insert "user" .null⟩ ⟨"a", some required, []⟩ = true ∧
      Facts.activates ⟨known⟩ ⟨"a", some less, []⟩ = true := by
  intro required less known more
  have edited : Edited Eases (.map required) (.map less) :=
    .tail (.tail (.single (.under "app" rfl (.here (.allow [] [.string "web"] .null))))
      (.here (.drop _ "zone"))) (.under "host" rfl (.here (.drop [("up", .bool true)] "up")))
  have extended : Edited Extends (.map known) (.map more) :=
    .tail (.single (.under "host" rfl (.here (.add "load" .null rfl))))
      (.here (.add "user" (.list []) rfl))
  have ordered : (Value.map required).Ordered := by decide +kernel
  have met : meets (.map known) (.map required) = true := by decide
  have same : ∀ path options, descend? (.map required) path = some (.list options) →
      descend? (.map known) path = descend? (.map more) path := by
    intro path options found
    cases path with
    | nil => cases found
    | cons key rest =>
      obtain ⟨v, held, below⟩ := Option.bind_eq_some_iff.1 found
      have member := KeyMap.mem_of_get? held
      simp only [required, List.mem_cons, Prod.mk.injEq, List.not_mem_nil, or_false] at member
      rcases member with ⟨rfl, rfl⟩ | ⟨rfl, rfl⟩ | ⟨rfl, rfl⟩
      · rfl
      · cases rest with
        | nil => cases below
        | cons k deeper =>
          obtain ⟨u, inside, below⟩ := Option.bind_eq_some_iff.1 below
          obtain ⟨rfl, rfl⟩ := Prod.mk.inj (List.mem_singleton.1 (KeyMap.mem_of_get? inside))
          cases deeper <;> cases below
      · cases rest <;> cases below
  have kept : ∀ key v, known.get? key = some v → (known.insert "user" .null).get? key = some v := by
    intro key v held
    rw [KeyMap.get?_insert, if_neg, held]
    rintro rfl
    cases held
  have active : Facts.activates ⟨known⟩ ⟨"a", some required, []⟩ = true := by decide
  obtain ⟨trees, facts, targets⟩ := targeting_is_monotone
  exact ⟨edited, extended, ordered, met, trees _ _ _ _ ordered edited extended same met,
    facts _ _ _ kept active, targets _ ⟨"a", some required, []⟩ _ _ _ rfl rfl edited active⟩

end LayeredSettings.Value
