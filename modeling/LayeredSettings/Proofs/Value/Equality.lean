import LayeredSettings.Value.Basic

/-!
Equality of content does not depend on the order in which two values are given, and goes from one
value over a second to a third. A NaN is not equal to itself, and neither is what holds one.
-/

namespace LayeredSettings

section
open Float.Model

/-- The two zeros are one. -/
def unsignedZero : UnpackedFloat → UnpackedFloat
  | .zero _ => .zero .positive
  | x => x

theorem isNaN_unsignedZero (a : UnpackedFloat) : (unsignedZero a).isNaN = a.isNaN := by
  cases a <;> rfl

/-- Floating-point numbers are equal if they are the same but for the sign of a zero, and no NaN. -/
theorem compare_eq_some_eq_iff (a b : UnpackedFloat) :
    a.compare b = some .eq ↔ a.isNaN = false ∧ unsignedZero a = unsignedZero b := by
  constructor
  · intro equal
    cases a with
    | notANumber => cases b <;> cases equal
    | infinity s =>
      cases b with
      | infinity t => cases s <;> cases t <;> first | exact ⟨rfl, rfl⟩ | cases equal
      | _ => cases s <;> cases equal
    | zero s =>
      cases b with
      | zero t => exact ⟨rfl, rfl⟩
      | infinity t | finite t => cases t <;> cases equal
      | notANumber => cases equal
    | finite s m e _ =>
      cases b with
      | finite t n f _ =>
        have parts (order : (compare e f).then (compare m n) = .eq) : e = f ∧ m = n := by
          simpa using order
        cases s with
        | negative =>
          cases t with
          | negative =>
            obtain ⟨rfl, rfl⟩ := parts (Ordering.swap_eq_eq.1 (Option.some.inj equal))
            exact ⟨rfl, rfl⟩
          | positive => cases equal
        | positive =>
          cases t with
          | negative => cases equal
          | positive =>
            obtain ⟨rfl, rfl⟩ := parts (Option.some.inj equal)
            exact ⟨rfl, rfl⟩
      | infinity t => cases t <;> cases equal
      | _ => cases s <;> cases equal
  · rintro ⟨number, same⟩
    cases a with
    | notANumber => cases number
    | infinity s =>
      cases b <;> cases same
      cases s <;> rfl
    | zero s =>
      cases b <;> cases same
      rfl
    | finite s m e _ =>
      cases b <;> cases same
      have order : (compare e e).then (compare m m) = .eq := by simp
      cases s with
      | negative => exact congrArg (fun o => some (Ordering.swap o)) order
      | positive => exact congrArg some order

end

theorem float_beq_iff (x y : Float) :
    (x == y) = true ↔
      x.isNaN = false ∧ unsignedZero x.toModel.unpack = unsignedZero y.toModel.unpack := by
  show (x.toModel.unpack.compare y.toModel.unpack == some .eq) = true ↔ _
  rw [beq_iff_eq, compare_eq_some_eq_iff]
  rfl

theorem float_beq_self (x : Float) : (x == x) = true ↔ x.isNaN = false := by
  rw [float_beq_iff, and_iff_left rfl]

theorem isNaN_eq_of_unsignedZero_eq {x y : Float}
    (same : unsignedZero x.toModel.unpack = unsignedZero y.toModel.unpack) : x.isNaN = y.isNaN := by
  show x.toModel.unpack.isNaN = y.toModel.unpack.isNaN
  rw [← isNaN_unsignedZero, same, isNaN_unsignedZero]

theorem float_beq_symm {x y : Float} (same : (x == y) = true) : (y == x) = true := by
  rw [float_beq_iff] at same ⊢
  obtain ⟨number, same⟩ := same
  exact ⟨isNaN_eq_of_unsignedZero_eq same ▸ number, same.symm⟩

theorem float_beq_comm (x y : Float) : (x == y) = (y == x) :=
  Bool.eq_iff_iff.2 ⟨float_beq_symm, float_beq_symm⟩

theorem float_beq_trans {x y z : Float} (first : (x == y) = true) (second : (y == z) = true) :
    (x == z) = true := by
  rw [float_beq_iff] at first second ⊢
  exact ⟨first.1, first.2.trans second.2⟩

namespace Number

theorem equal_comm (a b : Number) : a.equal b = b.equal a := by
  cases a <;> cases b <;> simp [equal, float_beq_comm, Bool.beq_comm]

theorem equal_trans {a b c : Number} (first : a.equal b = true) (second : b.equal c = true) :
    a.equal c = true := by
  cases a with
  | int m =>
    cases b with
    | int n => rwa [eq_of_beq first]
    | _ => cases first
  | uint m =>
    cases b with
    | uint n => rwa [eq_of_beq first]
    | _ => cases first
  | float x =>
    cases b with
    | float y =>
      cases c with
      | float z => exact float_beq_trans first second
      | _ => cases second
    | _ => cases first

end Number

namespace Value

mutual
theorem equal_comm (a b : Value) : a.equal b = b.equal a := by
  cases a with
  | list as =>
    cases b with
    | list bs =>
      simp only [equal]
      exact equalItems_comm as bs
    | _ => rfl
  | map as =>
    cases b with
    | map bs =>
      simp only [equal]
      exact equalEntries_comm as bs
    | _ => rfl
  | bool a => cases b <;> simp [equal, Bool.beq_comm]
  | number m => cases b <;> simp [equal, Number.equal_comm]
  | string s => cases b <;> simp [equal, Bool.beq_comm]
  | null => cases b <;> rfl

theorem equalItems_comm : (as bs : List Value) → equalItems as bs = equalItems bs as
  | a :: as, b :: bs => by
    simp only [equalItems]
    rw [equal_comm a b, equalItems_comm as bs]
  | [], [] => rfl
  | [], _ :: _ => rfl
  | _ :: _, [] => rfl

theorem equalEntries_comm :
    (as bs : List (String × Value)) → equalEntries as bs = equalEntries bs as
  | (j, a) :: as, (k, b) :: bs => by
    simp only [equalEntries]
    rw [equal_comm a b, equalEntries_comm as bs, Bool.beq_comm]
  | [], [] => rfl
  | [], _ :: _ => rfl
  | _ :: _, [] => rfl
end

mutual
theorem equal_trans (a b c : Value) (first : a.equal b = true) (second : b.equal c = true) :
    a.equal c = true := by
  cases a with
  | list as =>
    cases b with
    | list bs =>
      cases c with
      | list cs =>
        simp only [equal] at first second ⊢
        exact equalItems_trans as bs cs first second
      | _ => cases second
    | _ => cases first
  | map as =>
    cases b with
    | map bs =>
      cases c with
      | map cs =>
        simp only [equal] at first second ⊢
        exact equalEntries_trans as bs cs first second
      | _ => cases second
    | _ => cases first
  | number m =>
    cases b with
    | number n =>
      cases c with
      | number k => exact Number.equal_trans first second
      | _ => cases second
    | _ => cases first
  | bool a =>
    cases b with
    | bool b => rwa [eq_of_beq first]
    | _ => cases first
  | string s =>
    cases b with
    | string t => rwa [eq_of_beq first]
    | _ => cases first
  | null =>
    cases b with
    | null => exact second
    | _ => cases first

theorem equalItems_trans : (as bs cs : List Value) → equalItems as bs = true →
    equalItems bs cs = true → equalItems as cs = true
  | [], [], _, _, second => second
  | a :: as, b :: bs, c :: cs, first, second => by
    simp only [equalItems, Bool.and_eq_true] at first second ⊢
    exact ⟨equal_trans a b c first.1 second.1, equalItems_trans as bs cs first.2 second.2⟩
  | [], _ :: _, _, first, _ => by cases first
  | _ :: _, [], _, first, _ => by cases first
  | _ :: _, _ :: _, [], _, second => by cases second

theorem equalEntries_trans : (as bs cs : List (String × Value)) → equalEntries as bs = true →
    equalEntries bs cs = true → equalEntries as cs = true
  | [], [], _, _, second => second
  | (i, a) :: as, (j, b) :: bs, (k, c) :: cs, first, second => by
    simp only [equalEntries, Bool.and_eq_true, beq_iff_eq] at first second ⊢
    obtain ⟨⟨sameKey, same⟩, rest⟩ := first
    obtain ⟨⟨nextKey, next⟩, others⟩ := second
    exact ⟨⟨sameKey.trans nextKey, equal_trans a b c same next⟩,
      equalEntries_trans as bs cs rest others⟩
  | [], _ :: _, _, first, _ => by cases first
  | _ :: _, [], _, first, _ => by cases first
  | _ :: _, _ :: _, [], _, second => by cases second
end

theorem exists_equal_of_mem {as bs : List Value} (same : equalItems as bs = true) {b : Value}
    (member : b ∈ bs) : ∃ a ∈ as, a.equal b = true := by
  induction bs generalizing as with
  | nil => cases member
  | cons d bs ih =>
    cases as with
    | nil => cases same
    | cons c as =>
      rw [equalItems, Bool.and_eq_true] at same
      rcases List.mem_cons.1 member with rfl | member
      · exact ⟨c, List.mem_cons_self .., same.1⟩
      · obtain ⟨a, inside, equal⟩ := ih same.2 member
        exact ⟨a, List.mem_cons_of_mem _ inside, equal⟩

/-- No list is one of its own elements. -/
theorem not_equal_list_of_mem : (v : Value) → ∀ items, v ∈ items → ¬ v.equal (.list items) = true
  | .list inner, items, member => by
    intro same
    -- what stands in the inner list at the same place is again equal to the list that it is in
    obtain ⟨w, inside, again⟩ := exists_equal_of_mem same member
    have smaller := List.sizeOf_lt_of_mem inside
    exact not_equal_list_of_mem w inner inside again
  | .null, _, _ | .bool _, _, _ | .number _, _, _ | .string _, _, _ | .map _, _, _ =>
    Bool.false_ne_true
termination_by v => sizeOf v

end Value
end LayeredSettings
