import LayeredSettings.Decimal.Numeral
import Mathlib.Algebra.Group.Nat.Defs
import Mathlib.Data.Nat.Log

/-!
Decimal numbers that are read in one pass are finite.

The size of a number is followed as a bound on its exponent through rounding, packing and division.
A product that grows too large is refused where it arises, and a quotient cannot grow.
-/

namespace LayeredSettings.Decimal

open Float.Model Float.Model.UnpackedFloat

/-! ## Exponents -/

/-- Zero, or a finite number whose exponent stays below a bound. -/
def Within (bound : Int) : UnpackedFloat → Prop
  | .zero _ => True
  | .finite _ _ e _ => e ≤ bound
  | _ => False

theorem log2_mono {m n : Nat} (le : m ≤ n) : m.log2 ≤ n.log2 := by
  rw [Nat.log2_eq_log_two, Nat.log2_eq_log_two]
  exact Nat.log_mono_right le

/-- What is left of a number after a shift. -/
theorem div_lt_two_pow (m k : Nat) : m / 2 ^ k < 2 ^ (m.log2 - k + 1) := by
  rw [Nat.div_lt_iff_lt_mul (Nat.two_pow_pos k), ← Nat.pow_add]
  exact Nat.lt_of_lt_of_le Nat.lt_log2_self (Nat.pow_le_pow_right (by decide) (by omega))

theorem log2_shifted_succ_le (m k : Nat) : (m / 2 ^ k + 1).log2 ≤ m.log2 - k + 1 := by
  have below := div_lt_two_pow m k
  have positive := Nat.two_pow_pos (m.log2 - k + 1)
  have twice : 2 ^ (m.log2 - k + 1 + 1) = 2 ^ (m.log2 - k + 1) * 2 := Nat.pow_succ ..
  exact Nat.le_of_lt_succ ((Nat.log2_lt (Nat.succ_ne_zero _)).2 (by omega))

theorem mantissa_shiftRight (em : ExtendedMantissa) (k : Nat) :
    (em >>> k).mantissa = em.mantissa / 2 ^ k := by
  show (k.repeat ExtendedMantissa.shiftRightOne em).mantissa = em.mantissa / 2 ^ k
  induction k with
  | zero => simp [Nat.repeat]
  | succ k ih =>
    rw [Nat.repeat, ExtendedMantissa.shiftRightOne, ih, Nat.div_div_eq_div_mul, Nat.pow_succ]

theorem mantissa_ofMantissaAndAccuracy (m : Nat) (a : Accuracy) :
    (ExtendedMantissa.ofMantissaAndAccuracy m a).mantissa = m := by
  unfold ExtendedMantissa.ofMantissaAndAccuracy
  split <;> rfl

theorem le_roundedMantissa (em : ExtendedMantissa) : em.mantissa ≤ em.roundedMantissa := by
  unfold ExtendedMantissa.roundedMantissa Accuracy.roundToNearestEven
  split <;> omega

theorem roundedMantissa_le (em : ExtendedMantissa) : em.roundedMantissa ≤ em.mantissa + 1 := by
  unfold ExtendedMantissa.roundedMantissa Accuracy.roundToNearestEven
  split <;> omega

theorem targetExponent_eq (total : Int) :
    Format.binary64.targetExponent total = max (total - 53) (-1074) := rfl

/-- How many digits a number has too many. -/
def excess (m : Nat) (e : Int) : Nat := (max (totalExponent m e - 53) (-1074) - e).toNat

/-- A number that may be zero. -/
def ofParts (sign : Sign) (m : Nat) (e : Int) : UnpackedFloat :=
  if h : m = 0 then .zero sign else .finite sign m e (Nat.pos_of_ne_zero h)

/-- Rounding takes the excess off, may add one, and takes off what that made too many. -/
theorem exists_rounded (sign : Sign) (m : Nat) (e : Int) (a : Accuracy) :
    ∃ q, m / 2 ^ excess m e ≤ q ∧ q ≤ m / 2 ^ excess m e + 1 ∧
      roundWithAccuracy .binary64 sign m e a =
        ofParts sign (q / 2 ^ excess q (e + excess m e))
          (e + excess m e + excess q (e + excess m e)) := by
  have lower := le_roundedMantissa (ExtendedMantissa.ofMantissaAndAccuracy m a >>> excess m e)
  have upper := roundedMantissa_le (ExtendedMantissa.ofMantissaAndAccuracy m a >>> excess m e)
  rw [mantissa_shiftRight, mantissa_ofMantissaAndAccuracy] at lower upper
  refine ⟨_, lower, upper, ?_⟩
  generalize rounded :
    (ExtendedMantissa.ofMantissaAndAccuracy m a >>> excess m e).roundedMantissa = q
  have left : q / 2 ^ excess q (e + excess m e) =
      (ExtendedMantissa.ofMantissaAndAccuracy q .exact >>> excess q (e + excess m e)).mantissa := by
    rw [mantissa_shiftRight, mantissa_ofMantissaAndAccuracy]
  rw [left, ← rounded]
  rfl

/-- Rounding makes a number longer by at most one digit, and then takes the digits that fit. -/
theorem within_roundWithAccuracy (sign : Sign) {m : Nat} {e bound : Int} (a : Accuracy)
    (least : -1074 ≤ bound) (exponent : e ≤ bound) (size : totalExponent m e ≤ bound + 52) :
    Within bound (roundWithAccuracy .binary64 sign m e a) := by
  obtain ⟨q, -, upper, rounded⟩ := exists_rounded sign m e a
  have digits := Nat.le_trans (log2_mono upper) (log2_shifted_succ_le m (excess m e))
  rw [rounded, ofParts]
  by_cases none : q / 2 ^ excess q (e + excess m e) = 0
  · rw [dif_pos none]
    trivial
  · rw [dif_neg none]
    show e + (excess m e : Int) + (excess q (e + excess m e) : Int) ≤ bound
    unfold excess totalExponent at *
    omega

theorem log2_normalized {m : Nat} (long : 52 ≤ m.log2) : (m / 2 ^ (m.log2 - 52)).log2 = 52 := by
  have positive : m ≠ 0 := by
    rintro rfl
    cases long
  have width : 2 ^ 52 * 2 ^ (m.log2 - 52) = 2 ^ m.log2 := by
    rw [← Nat.pow_add]
    congr 1
    omega
  have least : 2 ^ 52 ≤ m / 2 ^ (m.log2 - 52) := by
    rw [Nat.le_div_iff_mul_le (Nat.two_pow_pos _), width]
    exact Nat.log2_self_le positive
  have below := div_lt_two_pow m (m.log2 - 52)
  rw [show m.log2 - (m.log2 - 52) + 1 = 53 by omega] at below
  exact (Nat.log2_eq_iff (by omega)).2 ⟨least, below⟩

/-- A number with enough digits is rounded to one of full length that is not smaller. -/
theorem exists_normal (sign : Sign) {m : Nat} {e : Int} (a : Accuracy) (long : 52 ≤ m.log2)
    (least : -1074 ≤ totalExponent m e - 53) :
    ∃ q f positive, roundWithAccuracy .binary64 sign m e a = .finite sign q f positive ∧
      q.log2 = 52 ∧ totalExponent m e ≤ f + 53 := by
  obtain ⟨q, lower, -, rounded⟩ := exists_rounded sign m e a
  have first : excess m e = m.log2 - 52 := by
    unfold excess totalExponent at *
    omega
  have enough := log2_mono lower
  rw [first, log2_normalized long] at enough
  have second : excess q (e + excess m e) = q.log2 - 52 := by
    unfold excess totalExponent at *
    omega
  have normal := log2_normalized enough
  have nonzero : q / 2 ^ (q.log2 - 52) ≠ 0 := by
    intro zero
    rw [zero] at normal
    cases normal
  rw [second, first] at rounded
  refine ⟨_, _, Nat.pos_of_ne_zero nonzero, rounded.trans (dif_neg nonzero), normal, ?_⟩
  unfold totalExponent
  omega

/-! ## Bits -/

/-- The bits of the exponent. -/
abbrev field (b : BitVec Format.binary64.numBits) : BitVec 11 := @unpackExponent .binary64 b

theorem pack_finite (sign : Sign) {m : Nat} {e : Int} (positive : 0 < m) (most : e ≤ 971) :
    UnpackedFloat.pack .binary64 (.finite sign m e positive) =
      if m.log2 + 1 = 53 then
        packComponents .binary64 sign (BitVec.ofNat 11 (e + 1075).toNat) (BitVec.ofNat 52 m)
      else packComponents .binary64 sign 0#11 (BitVec.ofNat 52 m) := by
  have bias : e + 1075 = e + (1023 : Nat) + (52 : Nat) := by omega
  have fits : ¬ 2 ^ 11 ≤ (e + 1075).toNat + 1 := by omega
  rw [bias] at fits ⊢
  exact if_neg fits

theorem field_pack_le {f : UnpackedFloat} {bound : Int} (within : Within bound f)
    (most : bound ≤ 971) :
    (field (UnpackedFloat.pack .binary64 f)).toNat ≤ (bound + 1075).toNat := by
  cases f with
  | notANumber => cases within
  | infinity sign => cases within
  | zero sign =>
    unfold UnpackedFloat.pack packedZero
    rw [field, unpackExponent_packComponents]
    exact Nat.zero_le _
  | finite sign m e positive =>
    have exponent : e ≤ bound := within
    rw [pack_finite sign positive (Int.le_trans exponent most)]
    split
    · rw [field, unpackExponent_packComponents, BitVec.toNat_ofNat, Nat.mod_eq_of_lt (by omega)]
      omega
    · rw [field, unpackExponent_packComponents]
      exact Nat.zero_le _

theorem within_unpack {b : BitVec Format.binary64.numBits} {bound : Int} (least : -1074 ≤ bound)
    (most : bound ≤ 971) (small : (field b).toNat ≤ (bound + 1075).toNat) :
    Within bound (UnpackedFloat.unpack .binary64 b) := by
  have ordinary : ¬ field b = -1#11 := by
    intro special
    have largest : (field b).toNat = 2047 := congrArg BitVec.toNat special
    omega
  unfold UnpackedFloat.unpack
  dsimp only
  rw [if_neg ordinary]
  by_cases short : field b = 0#11
  · rw [if_pos short]
    by_cases none : @unpackMantissa .binary64 b = 0#52
    · rw [dif_pos none]
      trivial
    · rw [dif_neg none]
      have zero : (field b).toNat = 0 := congrArg BitVec.toNat short
      show ((field b).toNat : Int) - ((1023 : Nat) + (52 : Nat)) + 1 ≤ bound
      omega
  · rw [if_neg short]
    show ((field b).toNat : Int) - ((1023 : Nat) + (52 : Nat)) ≤ bound
    omega

theorem mantissa_lt {b : BitVec Format.binary64.numBits} {sign : Sign} {m : Nat} {e : Int}
    {positive : 0 < m} (parts : UnpackedFloat.unpack .binary64 b = .finite sign m e positive) :
    m < 2 ^ 53 := by
  unfold UnpackedFloat.unpack at parts
  dsimp only at parts
  by_cases special : field b = -1#11
  · rw [if_pos special] at parts
    by_cases none : @unpackMantissa .binary64 b = 0#52
    · rw [if_pos none] at parts
      cases parts
    · rw [if_neg none] at parts
      cases parts
  · rw [if_neg special] at parts
    by_cases short : field b = 0#11
    · rw [if_pos short] at parts
      by_cases none : @unpackMantissa .binary64 b = 0#52
      · rw [dif_pos none] at parts
        cases parts
      · rw [dif_neg none] at parts
        cases parts
        exact Nat.lt_trans (BitVec.isLt _) (by decide)
    · rw [if_neg short] at parts
      cases parts
      exact BitVec.isLt _

/-! ## Floating-point numbers -/

/-- Zero, or a finite number whose exponent stays below a bound. -/
def Below (bound : Int) (x : Float) : Prop := Within bound x.toModel.unpack

theorem below_pack {f : UnpackedFloat} {bound : Int} (least : -1074 ≤ bound) (most : bound ≤ 971)
    (within : Within bound f) : Below bound (.ofModel (Float.Model.pack f)) :=
  within_unpack least most (field_pack_le within most)

theorem isFinite_of_within {f : UnpackedFloat} {bound : Int} (within : Within bound f) :
    f.isFinite = true := by
  cases f with
  | notANumber => cases within
  | infinity sign => cases within
  | zero sign => rfl
  | finite sign m e positive => rfl

theorem Below.isFinite {x : Float} {bound : Int} (below : Below bound x) : x.isFinite = true :=
  isFinite_of_within below

/-- Finite numbers have a greatest exponent. -/
theorem below_of_isFinite {x : Float} (finite : x.isFinite = true) : Below 971 x := by
  apply within_unpack (by decide) (by decide)
  have ordinary : field x.toModel.toBits.toBitVec ≠ -1#11 := by
    intro special
    have finite : (UnpackedFloat.unpack .binary64 x.toModel.toBits.toBitVec).isFinite = true :=
      finite
    unfold UnpackedFloat.unpack at finite
    dsimp only at finite
    rw [if_pos special] at finite
    split at finite <;> cases finite
  have size := (field x.toModel.toBits.toBitVec).isLt
  have other : (field x.toModel.toBits.toBitVec).toNat ≠ 2047 := fun same =>
    ordinary (BitVec.eq_of_toNat_eq same)
  show _ ≤ 2046
  omega

theorem isFinite_neg {x : Float} (finite : x.isFinite = true) : (-x).isFinite = true := by
  suffices below : Below 971 (-x) from below.isFinite
  apply below_pack (by decide) (by decide)
  have below : Within 971 x.toModel.unpack := below_of_isFinite finite
  cases parts : x.toModel.unpack with
  | notANumber => rwa [parts] at below
  | infinity sign =>
    rw [parts] at below
    cases below
  | zero sign => trivial
  | finite sign m e positive => rwa [parts] at below

/-! ## Quotients -/

theorem log2_div_le (m : Nat) {n : Nat} (positive : 0 < n) : (m / n).log2 ≤ m.log2 - n.log2 := by
  have least : 2 ^ n.log2 ≤ n := Nat.log2_self_le (Nat.pos_iff_ne_zero.1 positive)
  have rough : m / n ≤ m / 2 ^ n.log2 := Nat.div_le_div_left least (Nat.two_pow_pos _)
  rcases Nat.eq_zero_or_pos (m / n) with none | some
  · rw [none]
    exact Nat.zero_le _
  · have below := Nat.lt_of_le_of_lt rough (div_lt_two_pow m n.log2)
    exact Nat.le_of_lt_succ ((Nat.log2_lt (Nat.pos_iff_ne_zero.1 some)).2 below)

theorem log2_shiftLeft_le (m k : Nat) : (m <<< k).log2 ≤ m.log2 + k := by
  rw [Nat.shiftLeft_eq]
  rcases Nat.eq_zero_or_pos m with rfl | positive
  · rw [Nat.zero_mul]
    exact Nat.zero_le _
  · have below : m * 2 ^ k < 2 ^ (m.log2 + k + 1) := by
      rw [Nat.add_right_comm, Nat.pow_add]
      exact Nat.mul_lt_mul_of_pos_right Nat.lt_log2_self (Nat.two_pow_pos k)
    have nonzero : m * 2 ^ k ≠ 0 :=
      Nat.pos_iff_ne_zero.1 (Nat.mul_pos positive (Nat.two_pow_pos k))
    exact Nat.le_of_lt_succ ((Nat.log2_lt nonzero).2 below)

/-- The place of the first digit of a finite number other than zero. -/
def leading? : UnpackedFloat → Option Int
  | .finite _ m e _ => some (totalExponent m e)
  | _ => none

/-- At least two to a power, and finite. -/
def AtLeast (power : Int) (x : Float) : Prop :=
  (leading? x.toModel.unpack).any (power < ·) = true

instance (power : Int) (x : Float) : Decidable (AtLeast power x) :=
  inferInstanceAs (Decidable (_ = true))

theorem AtLeast.exists_parts {power : Int} {x : Float} (h : AtLeast power x) :
    ∃ sign m e positive, x.toModel.unpack = .finite sign m e positive ∧
      power < totalExponent m e := by
  obtain ⟨d, found, large⟩ := (Option.any_eq_true _ _).1 h
  cases parts : x.toModel.unpack with
  | finite sign m e positive =>
    rw [parts] at found
    cases found
    exact ⟨sign, m, e, positive, rfl, of_decide_eq_true large⟩
  | _ =>
    rw [parts] at found
    cases found

/-- A quotient is smaller than what is divided by as much as the divisor is larger than one, except
for one digit that rounding may add. -/
theorem below_div {x y : Float} {bound power most : Int} (below : Below bound x)
    (divisor : AtLeast power y) (least : -1074 ≤ most) (fits : most ≤ 971)
    (smaller : bound + 1 - power ≤ most) : Below most (x / y) := by
  obtain ⟨t, n, f, nonzero, second, large⟩ := divisor.exists_parts
  apply below_pack least fits
  rw [second]
  have below : Within bound x.toModel.unpack := below
  cases first : x.toModel.unpack with
  | notANumber =>
    rw [first] at below
    cases below
  | infinity sign =>
    rw [first] at below
    cases below
  | zero sign => trivial
  | finite sign m e positive =>
    rw [first] at below
    have exponent : e ≤ bound := below
    have digits : m.log2 < 53 :=
      (Nat.log2_lt (Nat.pos_iff_ne_zero.1 positive)).2 (mantissa_lt first)
    unfold UnpackedFloat.div divCore
    simp only [targetExponent_eq]
    generalize goal : min (e - f) (max (totalExponent m e - totalExponent n f - 53) (-1074)) = g
    generalize shift : (e - f - g).toNat = k
    have quotient := log2_div_le (m <<< k) nonzero
    have shifted := log2_shiftLeft_le m k
    unfold totalExponent at *
    apply within_roundWithAccuracy _ _ least
    · omega
    · unfold totalExponent
      omega

theorem AtLeast.mono {power most : Int} {x : Float} (h : AtLeast most x) (le : power ≤ most) :
    AtLeast power x := by
  obtain ⟨d, found, large⟩ := (Option.any_eq_true _ _).1 h
  exact (Option.any_eq_true _ _).2
    ⟨d, found, decide_eq_true (Int.lt_of_le_of_lt le (of_decide_eq_true large))⟩

theorem field_pack_normal (sign : Sign) {m : Nat} {e : Int} (positive : 0 < m)
    (normal : m.log2 = 52) (most : e ≤ 971) :
    (field (UnpackedFloat.pack .binary64 (.finite sign m e positive))).toNat =
      (e + 1075).toNat := by
  rw [pack_finite sign positive most, if_pos (congrArg Nat.succ normal), field,
    unpackExponent_packComponents, BitVec.toNat_ofNat, Nat.mod_eq_of_lt (by omega)]

theorem log2_implicit (v : BitVec 52) : (1#1 ++ v).toNat.log2 = 52 := by
  have size : (1#1 ++ v).toNat < 2 ^ 53 := (1#1 ++ v).isLt
  have least : 2 ^ 52 ≤ (1#1 ++ v).toNat := by
    rw [BitVec.toNat_append]
    exact Nat.left_le_or
  exact (Nat.log2_eq_iff (by omega)).2 ⟨least, size⟩

/-- Numbers whose exponent is neither the least nor the greatest are of full length. -/
theorem leading?_unpack {b : BitVec Format.binary64.numBits} (some : 0 < (field b).toNat)
    (ordinary : (field b).toNat < 2047) :
    leading? (UnpackedFloat.unpack .binary64 b) = .some ((field b).toNat - 1022) := by
  have notSpecial : ¬ field b = -1#11 := by
    intro special
    rw [special] at ordinary
    exact absurd ordinary (by decide)
  have notZero : ¬ field b = 0#11 := by
    intro zero
    rw [zero] at some
    exact absurd some (by decide)
  unfold UnpackedFloat.unpack
  dsimp only
  rw [if_neg notSpecial, if_neg notZero]
  have digits := log2_implicit (@unpackMantissa .binary64 b)
  have exponent : totalExponent (1#1 ++ @unpackMantissa .binary64 b).toNat
      ((field b).toNat - ((1023 : Nat) + (52 : Nat))) = (field b).toNat - 1022 := by
    unfold totalExponent
    omega
  exact congrArg Option.some exponent

theorem atLeast_rounded {m : Nat} {e power : Int} (sign : Sign) (a : Accuracy) (long : 52 ≤ m.log2)
    (exponent : e ≤ 971) (least : -1021 ≤ totalExponent m e) (most : totalExponent m e ≤ 1023)
    (large : power < totalExponent m e) :
    AtLeast power (.ofModel (Float.Model.pack (roundWithAccuracy .binary64 sign m e a))) := by
  have size : totalExponent m e ≤ 971 + 52 := most
  have enough : -1074 ≤ totalExponent m e - 53 := by omega
  have within := within_roundWithAccuracy sign a (by decide) exponent size
  obtain ⟨q, f, positive, rounded, normal, kept⟩ := exists_normal sign a long enough
  rw [rounded] at within ⊢
  have highest : f ≤ 971 := within
  have packed := field_pack_normal sign positive normal highest
  have leading := leading?_unpack (b := UnpackedFloat.pack .binary64 (.finite sign q f positive))
    (by omega) (by omega)
  have more : power < ((field (UnpackedFloat.pack .binary64
      (.finite sign q f positive))).toNat : Int) - 1022 := by omega
  exact (Option.any_eq_true _ _).2 ⟨_, leading, decide_eq_true more⟩

theorem atLeast_largest : AtLeast 1023 (powerOfTen 308) := by decide +kernel

theorem powerOfTen_eq {n : Nat} (large : ¬ n ≤ 22) (small : n ≤ 308) :
    powerOfTen n = .ofModel (Float.Model.pack
      (roundWithAccuracy .binary64 .positive (1 <<< 53 * 10 ^ n) (-53) .exact)) := by
  have slow : powerOfTen n = .ofModel (Float.Model.ofScientific 1 n) :=
    dif_neg fun fast => large fast.2
  have moderate : ¬ (n : Int) > 2 ^ Format.binary64.exponentBits := by
    show ¬ (n : Int) > 2 ^ 11
    omega
  have positive : ¬ (n : Int) < -((2 ^ Format.binary64.exponentBits : Int) + Nat.log2 1) := by
    show ¬ (n : Int) < -(2 ^ 11 + 0)
    omega
  rw [slow, Float.Model.ofScientific, UnpackedFloat.ofScientific, dif_neg (by decide),
    if_neg moderate, if_neg positive, if_pos (Int.natCast_nonneg n)]
  rfl

theorem le_log2_shifted_pow (n : Nat) : 53 ≤ (1 <<< 53 * 10 ^ n).log2 := by
  have least : 1 <<< 53 * 1 ≤ 1 <<< 53 * 10 ^ n :=
    Nat.mul_le_mul_left _ (Nat.one_le_pow n 10 (by decide))
  exact log2_mono least

theorem log2_shifted_pow_lt {n : Nat} (small : n ≤ 307) : (1 <<< 53 * 10 ^ n).log2 < 1073 := by
  have most {k : Nat} (le : n ≤ k) : (1 <<< 53 * 10 ^ n).log2 ≤ (1 <<< 53 * 10 ^ k).log2 :=
    log2_mono (Nat.mul_le_mul_left _ (Nat.pow_le_pow_right (by decide) le))
  exact Nat.lt_of_le_of_lt (most small) (by decide +kernel)

theorem atLeast_powerOfTen {n : Nat} (small : n ≤ 308) : AtLeast 0 (powerOfTen n) := by
  rcases Nat.lt_or_eq_of_le small with below | rfl
  · by_cases exact : n ≤ 22
    · have all : ∀ n ≤ 22, AtLeast 0 (powerOfTen n) := by decide +kernel
      exact all n exact
    · rw [powerOfTen_eq exact small]
      have wide := log2_shifted_pow_lt (Nat.le_of_lt_succ below)
      have long := le_log2_shifted_pow n
      have total : totalExponent (1 <<< 53 * 10 ^ n) (-53) = (1 <<< 53 * 10 ^ n).log2 - 52 := by
        unfold totalExponent
        omega
      apply atLeast_rounded <;> omega
  · exact atLeast_largest.mono (by decide)

theorem Below.mono {x : Float} {bound most : Int} (below : Below bound x) (le : bound ≤ most) :
    Below most x := by
  have below : Within bound x.toModel.unpack := below
  show Within most x.toModel.unpack
  cases parts : x.toModel.unpack with
  | zero sign => trivial
  | finite sign m e positive =>
    rw [parts] at below
    exact Int.le_trans below le
  | _ =>
    rw [parts] at below
    cases below

theorem below_divideByPowerOfTen {x : Float} (n : Nat) (below : Below 12 x) :
    Below 13 (divideByPowerOfTen x n) := by
  fun_induction divideByPowerOfTen x n with
  | case1 x n small =>
    exact below_div below (atLeast_powerOfTen small) (by decide) (by decide) (by decide)
  | case2 x n large zero => exact below.mono (by decide)
  | case3 x n large nonzero ih =>
    -- the largest power takes more digits off than rounding adds
    exact ih (below_div below atLeast_largest (by decide) (by decide) (by decide))

/-! ## Numbers of one pass -/

theorem within_round {m : Nat} (fits : m < 2 ^ 64) (sign : Sign) :
    Within 12 (UnpackedFloat.round .binary64 sign m 0) := by
  have digits : m.log2 < 64 := by
    rcases Nat.eq_zero_or_pos m with rfl | positive
    · decide
    · exact (Nat.log2_lt (Nat.pos_iff_ne_zero.1 positive)).2 fits
  unfold UnpackedFloat.round decreaseExponent
  dsimp only
  generalize (0 - Format.binary64.targetExponent (totalExponent m 0)).toNat = k
  have shifted := log2_shiftLeft_le m k
  apply within_roundWithAccuracy _ _ (by decide)
  · omega
  · unfold totalExponent
    omega

theorem below_toFloat (n : UInt64) : Below 12 n.toFloat := by
  apply below_pack (by decide) (by decide)
  have fits : n.toNat < 2 ^ 64 := n.toNat_lt
  unfold UnpackedFloat.ofUInt64 UnpackedFloat.ofNat UnpackedFloat.ofInt UnpackedFloat.normalize
  split
  · exact within_round (by omega) _
  · trivial
  · exact within_round (by omega) _

theorem isFinite_of_isInf_eq_false {f : UnpackedFloat} (finite : f.isFinite = true)
    (fits : (Float.ofModel (Float.Model.pack f)).isInf = false) :
    (Float.ofModel (Float.Model.pack f)).isFinite = true := by
  cases f with
  | notANumber => cases finite
  | infinity sign => cases finite
  | zero sign =>
    have within : Within 0 (.zero sign) := trivial
    exact (below_pack (by decide) (by decide) within).isFinite
  | finite sign m e positive =>
    by_cases most : e ≤ 971
    · exact (below_pack (by decide) (by decide) (f := .finite sign m e positive) most).isFinite
    · have packed : UnpackedFloat.pack .binary64 (.finite sign m e positive) =
          packedInfinity .binary64 sign := by
        have large : 2 ^ 11 ≤ (e + (1023 : Nat) + (52 : Nat)).toNat + 1 := by omega
        exact if_pos large
      have infinite : (UnpackedFloat.unpack .binary64
          (UnpackedFloat.pack .binary64 (.finite sign m e positive))).isInf = true := by
        rw [packed]
        cases sign <;> decide
      exact absurd infinite (Bool.eq_false_iff.1 fits)

theorem isFinite_ofParts (sign : Sign) (m : Nat) (e : Int) :
    (ofParts sign m e).isFinite = true := by
  rw [ofParts]
  by_cases none : m = 0
  · rw [dif_pos none]
    rfl
  · rw [dif_neg none]
    rfl

theorem isFinite_mul {f g : UnpackedFloat} (first : f.isFinite = true)
    (second : g.isFinite = true) : (UnpackedFloat.mul .binary64 f g).isFinite = true := by
  cases f with
  | notANumber => cases first
  | infinity sign => cases first
  | zero sign =>
    cases g with
    | notANumber => cases second
    | infinity sign => cases second
    | _ => rfl
  | finite sign m e positive =>
    cases g with
    | notANumber => cases second
    | infinity sign => cases second
    | zero sign => rfl
    | finite other n f nonzero =>
      obtain ⟨q, -, -, rounded⟩ := exists_rounded (sign * other) (m * n) (e + f) .exact
      show (roundWithAccuracy .binary64 (sign * other) (m * n) (e + f) .exact).isFinite = true
      rw [rounded]
      exact isFinite_ofParts _ _ _

theorem AtLeast.isFinite {power : Int} {x : Float} (h : AtLeast power x) : x.isFinite = true := by
  obtain ⟨sign, m, e, positive, parts, -⟩ := h.exists_parts
  show x.toModel.unpack.isFinite = true
  rw [parts]
  rfl

/-- Whatever is too large to be a finite number is refused. -/
theorem isFinite_of_scaled? {significand : UInt64} {exponent : Int} {x : Float}
    (read : scaled? significand exponent = some x) : x.isFinite = true := by
  have whole := below_toFloat significand
  unfold scaled? at read
  dsimp only at read
  split at read
  · cases read
    exact (below_divideByPowerOfTen _ whole).isFinite
  · split at read
    · split at read
      · cases read
        exact whole.isFinite
      · cases read
    · split at read
      · cases read
      · rename_i fits
        cases read
        have power := atLeast_powerOfTen (n := exponent.toNat) (by omega)
        exact isFinite_of_isInf_eq_false (isFinite_mul whole.isFinite power.isFinite)
          (Bool.eq_false_iff.2 fits)

end LayeredSettings.Decimal
