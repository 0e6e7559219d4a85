import LayeredSettings.Shape
import LayeredSettings.Proofs.Except
import LayeredSettings.Proofs.Value.Conversion
import LayeredSettings.Proofs.Value.Integer
import Mathlib.Data.List.Forall2
import Mathlib.Tactic.Lift
import Mathlib.Tactic.Zify

/-!
Values that are read as integers, or as optional integers, lists and maps of such.

A value passes its JSON tree on the way, which keeps every integer. So an integer is read exactly if
it lies in the range of the type, and comes out as it is; a list or a map is read item by item.
-/

namespace LayeredSettings

theorem mapM_eq_ok_iff {α β ε : Type} {f : α → Except ε β} {l : List α} {bs : List β} :
    l.mapM f = .ok bs ↔ List.Forall₂ (fun a b => f a = .ok b) l bs := by
  induction l generalizing bs with
  | nil =>
    rw [List.mapM_nil, List.forall₂_nil_left_iff]
    exact ⟨fun same => (Except.ok.inj same).symm, fun same => congrArg Except.ok same.symm⟩
  | cons a rest ih =>
    rw [List.mapM_cons, List.forall₂_cons_left_iff]
    cases first : f a with
    | error e => exact iff_of_false nofun fun ⟨b, _, found, _⟩ => nomatch found
    | ok b =>
      cases later : rest.mapM f with
      | error e =>
        refine iff_of_false nofun ?_
        rintro ⟨c, cs, -, others, -⟩
        rw [← ih, later] at others
        cases others
      | ok cs =>
        have others {ds : List β} : List.Forall₂ (fun a b => f a = .ok b) rest ds ↔ ds = cs := by
          rw [← ih, later, Except.ok.injEq, eq_comm]
        simp only [others, Except.ok.injEq]
        constructor
        · intro same
          exact ⟨b, cs, rfl, rfl, (Except.ok.inj same).symm⟩
        · rintro ⟨_, _, rfl, rfl, rfl⟩
          rfl

namespace Json

/-- An integer of 64 bits, with a sign or without, is written as it is. -/
theorem integer?_ofInteger {n : Int} (low : Int64.minValue.toInt ≤ n) (high : n < UInt64.size) :
    (ofInteger n).integer? = some n := by
  unfold ofInteger
  split
  · rename_i negative
    rw [Int64.toInt_minValue] at low
    rw [integer?, Int64.toInt_ofInt_of_le low (by omega)]
  · rename_i nonneg
    rw [integer?, UInt64.toNat_ofNat_of_lt' (by omega),
      Int.toNat_of_nonneg (Int.not_lt.1 nonneg)]

end Json

namespace Value

/-- The integer that a value is. No floating-point number is one. -/
def integer? : Value → Option Int
  | .number n => n.integer?
  | _ => none

/-- What JSON has no number for, apart from null itself. -/
def Blank (v : Value) : Prop := v = .null ∨ ∃ x : Float, v = .number (.float x) ∧ x.isFinite = false

theorem bounds_of_integer? {v : Value} {n : Int} (integer : v.integer? = some n) :
    Int64.minValue.toInt ≤ n ∧ n < UInt64.size := by
  rw [Int64.toInt_minValue]
  have size : (UInt64.size : Int) = 18446744073709551616 := rfl
  cases v with
  | number m =>
    cases m with
    | int k =>
      cases integer
      have low := k.le_toInt
      have high := k.toInt_lt
      exact ⟨low, by omega⟩
    | uint k =>
      cases integer
      have high := k.toNat_lt
      exact ⟨by omega, by omega⟩
    | float x => cases integer
  | _ => cases integer

theorem integer?_toJson (v : Value) : v.toJson.integer? = v.integer? := by
  cases v with
  | number m =>
    cases m with
    | int k =>
      rw [toJson, Number.toJson]
      split
      · rfl
      · rename_i nonneg
        have nonneg : 0 ≤ k := Int64.not_lt.1 nonneg
        have same : (k.toInt.toNat : Int) = k.toInt :=
          Int.toNat_of_nonneg (Int64.le_iff_toInt_le.1 nonneg)
        show some (k.toUInt64.toNat : Int) = some k.toInt
        rw [Int64.toNat_toUInt64_of_le nonneg]
        exact congrArg some same
    | uint k => rfl
    | float x =>
      rw [toJson, Number.toJson]
      split <;> rfl
  | _ => rfl

theorem toJson_eq_null_iff {v : Value} : v.toJson = .null ↔ v.Blank := by
  cases v with
  | null => exact iff_of_true rfl (.inl rfl)
  | number m =>
    cases m with
    | int k =>
      rw [toJson, Number.toJson]
      split <;> exact iff_of_false Json.noConfusion fun blank => by simp [Blank] at blank
    | uint k => exact iff_of_false Json.noConfusion fun blank => by simp [Blank] at blank
    | float x => simp [toJson, Number.toJson, Blank]
  | _ => exact iff_of_false Json.noConfusion fun blank => by simp [Blank] at blank

theorem toJsonItems_eq_map (items : List Value) : toJsonItems items = items.map toJson := by
  induction items with
  | nil => rfl
  | cons v rest ih => rw [toJsonItems, ih, List.map_cons]

/-- A number takes up one place of a tree. -/
theorem toJson_number_ne (n : Number) :
    (∀ js, n.toJson ≠ .array js) ∧ ∀ entries, n.toJson ≠ .object entries := by
  cases n with
  | uint k => simp [Number.toJson]
  | int k | float x =>
    rw [Number.toJson]
    split <;> simp

theorem toJson_eq_array_iff {v : Value} {js : List Json} :
    v.toJson = .array js ↔ ∃ items, v = .list items ∧ js = items.map toJson := by
  cases v with
  | list items => simp [toJson, toJsonItems_eq_map, eq_comm]
  | number n => exact iff_of_false ((toJson_number_ne n).1 js) (by simp)
  | _ => exact iff_of_false Json.noConfusion (by simp)

theorem toJson_eq_object_iff {v : Value} {js : List (String × Json)} :
    v.toJson = .object js ↔ ∃ entries : KeyMap Value, v = .map entries ∧
      js = entries.mapValues toJson := by
  cases v with
  | map entries => simp [toJson, toJsonEntries_eq_mapValues, eq_comm]
  | number n => exact iff_of_false ((toJson_number_ne n).2 js) (by simp)
  | _ => exact iff_of_false Json.noConfusion (by simp)

end Value

/-! ## Shapes -/

namespace IntegerType

/-- An integer lies in the range of a type. -/
def Holds (t : IntegerType) (n : Int) : Prop := t.low ≤ n ∧ n ≤ t.high
  deriving Decidable

/-- A value is an integer in the range of a type. -/
def Takes (t : IntegerType) (v : Value) (n : Int) : Prop := v.integer? = some n ∧ t.Holds n

/-- The integers of a signed type are those that its words stand for. -/
theorem holds_signed_iff {bits : Nat} (positive : 0 < bits) {n : Int} :
    (signed bits).Holds n ↔ ∃ word : BitVec bits, word.toInt = n := by
  show -2 ^ (bits - 1) ≤ n ∧ n ≤ 2 ^ (bits - 1) - 1 ↔ _
  constructor
  · rintro ⟨low, high⟩
    exact ⟨.ofInt bits n, BitVec.toInt_ofInt_eq_self positive low (Int.lt_of_le_sub_one high)⟩
  · rintro ⟨word, rfl⟩
    exact ⟨word.le_toInt, Int.le_sub_one_of_lt word.toInt_lt⟩

theorem holds_unsigned_iff {bits : Nat} {n : Int} :
    (unsigned bits).Holds n ↔ ∃ word : BitVec bits, (word.toNat : Int) = n := by
  show 0 ≤ n ∧ n ≤ 2 ^ bits - 1 ↔ _
  constructor
  · rintro ⟨low, high⟩
    lift n to Nat using low
    have small : n < 2 ^ bits := by exact_mod_cast Int.lt_of_le_sub_one high
    exact ⟨.ofNatLT n small, congrArg _ (BitVec.toNat_ofNatLT n small)⟩
  · rintro ⟨word, rfl⟩
    have small : (word.toNat : Int) < 2 ^ bits := by exact_mod_cast word.isLt
    exact ⟨Int.natCast_nonneg _, Int.le_sub_one_of_lt small⟩

end IntegerType

namespace Shape

open Value

theorem read_integer_eq_ok_iff {t : IntegerType} {v : Value} {a : Json} :
    read (.integer t) v.toJson = .ok a ↔ ∃ n, t.Takes v n ∧ a = .ofInteger n := by
  rw [read, readInteger, integer?_toJson]
  unfold IntegerType.Takes IntegerType.Holds
  cases v.integer? with
  | none => exact iff_of_false nofun (by simp)
  | some n =>
    dsimp only
    split
    · rename_i holds
      simp [holds, eq_comm]
    · rename_i beyond
      refine iff_of_false nofun ?_
      rintro ⟨_, ⟨⟨⟩, holds⟩, -⟩
      exact beyond holds

theorem read_optional (inner : Shape) (v : Value) :
    (v.Blank → read (.optional inner) v.toJson = .ok .null) ∧
      (¬ v.Blank → read (.optional inner) v.toJson = read inner v.toJson) := by
  rw [← toJson_eq_null_iff]
  cases v.toJson with
  | null => exact ⟨fun _ => rfl, fun other => absurd rfl other⟩
  | _ => exact ⟨nofun, fun _ => rfl⟩

theorem read_list_eq_ok_iff {item : Shape} {v : Value} {a : Json} :
    read (.list item) v.toJson = .ok a ↔ ∃ items answers, v = .list items ∧
      List.Forall₂ (fun v b => read item v.toJson = .ok b) items answers ∧ a = .array answers := by
  have given {j : Json} : read (.list item) j = .ok a ↔ ∃ js answers, j = .array js ∧
      List.Forall₂ (fun j b => read item j = .ok b) js answers ∧ a = .array answers := by
    cases j with
    | array js =>
      rw [read, Except.map_eq_ok_iff]
      simp only [mapM_eq_ok_iff]
      constructor
      · rintro ⟨answers, reads, rfl⟩
        exact ⟨js, answers, rfl, reads, rfl⟩
      · rintro ⟨_, answers, ⟨⟩, reads, rfl⟩
        exact ⟨answers, reads, rfl⟩
    | _ => exact iff_of_false nofun (by simp)
  rw [given]
  constructor
  · rintro ⟨js, answers, tree, reads, rfl⟩
    obtain ⟨items, rfl, rfl⟩ := toJson_eq_array_iff.1 tree
    exact ⟨items, answers, rfl, List.forall₂_map_left_iff.1 reads, rfl⟩
  · rintro ⟨items, answers, rfl, reads, rfl⟩
    exact ⟨items.map toJson, answers, toJson_eq_array_iff.2 ⟨items, rfl, rfl⟩,
      List.forall₂_map_left_iff.2 reads, rfl⟩

theorem read_dictionary_eq_ok_iff {item : Shape} {v : Value} {a : Json} :
    read (.dictionary item) v.toJson = .ok a ↔ ∃ (entries : KeyMap Value) (answers : KeyMap Json),
      v = .map entries ∧
      List.Forall₂ (fun e b => b.1 = e.1 ∧ read item e.2.toJson = .ok b.2) entries answers ∧
      a = .object answers := by
  have given {j : Json} : read (.dictionary item) j = .ok a ↔ ∃ js answers, j = .object js ∧
      List.Forall₂ (fun e b => b.1 = e.1 ∧ read item e.2 = .ok b.2) js answers ∧
      a = .object answers := by
    have entry {e b : String × Json} : (read item e.2).map (e.1, ·) = .ok b ↔
        b.1 = e.1 ∧ read item e.2 = .ok b.2 := by
      obtain ⟨key, answer⟩ := b
      rw [Except.map_eq_ok_iff]
      constructor
      · rintro ⟨_, found, ⟨⟩⟩
        exact ⟨rfl, found⟩
      · rintro ⟨⟨⟩, found⟩
        exact ⟨answer, found, rfl⟩
    cases j with
    | object js =>
      rw [read, Except.map_eq_ok_iff]
      simp only [mapM_eq_ok_iff, entry]
      constructor
      · rintro ⟨answers, reads, rfl⟩
        exact ⟨js, answers, rfl, reads, rfl⟩
      · rintro ⟨_, answers, ⟨⟩, reads, rfl⟩
        exact ⟨answers, reads, rfl⟩
    | _ => exact iff_of_false nofun (by simp)
  rw [given]
  constructor
  · rintro ⟨js, answers, tree, reads, rfl⟩
    obtain ⟨entries, rfl, rfl⟩ := toJson_eq_object_iff.1 tree
    exact ⟨entries, answers, rfl, List.forall₂_map_left_iff.1 reads, rfl⟩
  · rintro ⟨entries, answers, rfl, reads, rfl⟩
    exact ⟨entries.mapValues toJson, answers, toJson_eq_object_iff.2 ⟨entries, rfl, rfl⟩,
      List.forall₂_map_left_iff.2 reads, rfl⟩

end Shape
end LayeredSettings
