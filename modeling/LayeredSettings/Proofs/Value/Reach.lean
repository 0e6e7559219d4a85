import LayeredSettings.Value.Basic

/-!
What a value holds at its own place and below its maps. Lists are not entered.
-/

namespace LayeredSettings.Value

/-- A value is reached in another one through maps only. -/
inductive Reaches : Value → Value → Prop
  | here (v : Value) : Reaches v v
  | under {entries : KeyMap Value} {e : String × Value} {x : Value} (member : e ∈ entries)
      (below : Reaches e.2 x) : Reaches (.map entries) x

theorem reaches_map_iff {entries : KeyMap Value} {x : Value} :
    Reaches (.map entries) x ↔ x = .map entries ∨ ∃ e ∈ entries, Reaches e.2 x := by
  constructor
  · intro reached
    cases reached with
    | here => exact .inl rfl
    | under member below => exact .inr ⟨_, member, below⟩
  · rintro (rfl | ⟨e, member, below⟩)
    · exact .here _
    · exact .under member below

/-- What is no map reaches only itself. -/
theorem reaches_iff_of_asMap? {v x : Value} (noMap : v.asMap? = none) : Reaches v x ↔ x = v := by
  constructor
  · intro reached
    cases reached with
    | here => rfl
    | under => cases noMap
  · rintro rfl
    exact .here _

/-- Null and scalars. -/
def Atomic (v : Value) : Prop := v.asMap? = none ∧ v.asList? = none

instance (v : Value) : Decidable v.Atomic :=
  match v with
  | .null | .bool _ | .number _ | .string _ => isTrue ⟨rfl, rfl⟩
  | .list _ => isFalse fun atomic => Option.some_ne_none _ atomic.2
  | .map _ => isFalse fun atomic => Option.some_ne_none _ atomic.1

/-- The lists that maps lead to have nothing but null and scalars in them. -/
def AtomicOptions (v : Value) : Prop :=
  ∀ options, Reaches v (.list options) → ∀ option ∈ options, option.Atomic

theorem Atomic.not_reaches_list {v : Value} (atomic : v.Atomic) (items : List Value) :
    ¬ v.Reaches (.list items) := by
  rw [reaches_iff_of_asMap? atomic.1]
  rintro rfl
  cases atomic.2

theorem Atomic.atomicOptions {v : Value} (atomic : v.Atomic) : v.AtomicOptions :=
  fun options reached => (atomic.not_reaches_list options reached).elim

theorem atomicOptions_list {options : List Value} :
    AtomicOptions (.list options) ↔ ∀ option ∈ options, option.Atomic := by
  constructor
  · intro h
    exact h options (.here _)
  · intro h items reached
    cases (reaches_iff_of_asMap? rfl).1 reached
    exact h

theorem atomicOptions_map {entries : List (String × Value)} :
    AtomicOptions (.map entries) ↔ ∀ e ∈ entries, e.2.AtomicOptions := by
  constructor
  · intro h e member options reached
    exact h options (.under member reached)
  · intro h options reached
    obtain same | ⟨e, member, below⟩ := reaches_map_iff.1 reached
    · cases same
    · exact h e member options below

mutual
/-- Induction that enters maps only. -/
theorem induction_through_maps {motive : Value → Prop} (leaf : ∀ v, v.asMap? = none → motive v)
    (node : ∀ entries : KeyMap Value, (∀ e ∈ entries, motive e.2) → motive (.map entries)) :
    (v : Value) → motive v
  | .map entries => node entries (induction_through_entries leaf node entries)
  | .null => leaf .null rfl
  | .bool b => leaf (.bool b) rfl
  | .number n => leaf (.number n) rfl
  | .string s => leaf (.string s) rfl
  | .list items => leaf (.list items) rfl

theorem induction_through_entries {motive : Value → Prop} (leaf : ∀ v, v.asMap? = none → motive v)
    (node : ∀ entries : KeyMap Value, (∀ e ∈ entries, motive e.2) → motive (.map entries)) :
    (entries : List (String × Value)) → ∀ e ∈ entries, motive e.2
  | [] => List.forall_mem_nil _
  | (_, v) :: rest =>
    List.forall_mem_cons.2
      ⟨induction_through_maps leaf node v, induction_through_entries leaf node rest⟩
end

end LayeredSettings.Value
