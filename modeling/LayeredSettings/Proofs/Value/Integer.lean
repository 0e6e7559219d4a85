import LayeredSettings.Value.Basic

/-!
The integer that a number stands for, whichever of its forms it has.
-/

namespace LayeredSettings.Number

def integer? : Number → Option Int
  | .int n => some n.toInt
  | .uint n => some n.toNat
  | .float _ => none

theorem toInt_toInt64 {n : UInt64} (small : n ≤ 0x7fffffffffffffff) :
    n.toInt64.toInt = n.toNat := by
  have bound : n.toNat ≤ 0x7fffffffffffffff := UInt64.le_iff_toNat_le.1 small
  rw [← Int64.toInt_toBitVec, UInt64.toBitVec_toInt64]
  apply BitVec.toInt_eq_toNat_of_lt
  rw [UInt64.toNat_toBitVec]
  omega

/-- Exactly the integers of 64 bits with a sign can be had as such. -/
theorem asInt64?_eq_some_iff {n : Number} {k : Int64} :
    n.asInt64? = some k ↔ n.integer? = some k.toInt := by
  cases n with
  | int m => simp [asInt64?, integer?, Int64.toInt_inj]
  | uint m =>
    simp only [asInt64?, integer?, Option.some.injEq]
    split
    · rename_i small
      rw [Option.some.injEq, ← Int64.toInt_inj, toInt_toInt64 small]
    · rename_i large
      -- what does not fit is above every integer with a sign
      have above : ¬ m.toNat ≤ 0x7fffffffffffffff := fun h => large (UInt64.le_iff_toNat_le.2 h)
      have below : k.toInt < 2 ^ 63 := k.toInt_lt
      constructor
      · intro h
        cases h
      · intro h
        omega
  | float x => simp [asInt64?, integer?]

end LayeredSettings.Number
