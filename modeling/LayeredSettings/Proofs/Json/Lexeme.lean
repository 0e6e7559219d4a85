import LayeredSettings.Json.Printer
import LayeredSettings.Json.Token
import Mathlib.Data.List.TakeWhile

/-!
What is written for a number or a string, and the token that it is read as.

Integers are written without leading zeros, and their digits are taken up one by one without loss as
long as the number fits 64 bits. A string is written character by character; the reader undoes the
escape of each.
-/

namespace LayeredSettings

namespace Decimal

theorem isDigit_of_mem_toDigits {n : Nat} {c : Char} (member : c ∈ Nat.toDigits 10 n) :
    isDigit c = true := by
  have digit : c.isDigit = true := Nat.isDigit_of_mem_toDigits (by decide) (by decide) member
  simp only [Char.isDigit, Bool.and_eq_true, decide_eq_true_eq] at digit
  simp only [isDigit, Bool.and_eq_true, decide_eq_true_eq]
  exact digit

/-- Only the number zero is written with a zero in front. -/
theorem head?_toDigits_ne {n : Nat} (positive : 0 < n) :
    (Nat.toDigits 10 n).head?.any (· ≠ '0') = true := by
  induction n using Nat.strongRecOn with
  | ind n ih =>
    by_cases small : n < 10
    · rw [Nat.toDigits_of_lt_base small]
      simpa using Nat.pos_iff_ne_zero.1 positive
    · have shorter := ih (n / 10) (by omega) (by omega)
      obtain ⟨c, first, other⟩ := (Option.any_eq_true _ _).1 shorter
      rw [Nat.toDigits_of_base_le (by decide) (by omega), List.head?_append, first]
      exact other

theorem toDigits_leading (n : Nat) :
    (Nat.toDigits 10 n).length = 1 ∨ (Nat.toDigits 10 n).head?.any (· ≠ '0') = true := by
  rcases Nat.eq_zero_or_pos n with rfl | positive
  · exact .inl rfl
  · exact .inr (head?_toDigits_ne positive)

theorem Parts.read?_digits {cs : List Char} (digits : ∀ c ∈ cs, isDigit c = true) :
    Parts.read? cs = some ⟨cs, none, none⟩ := by
  rw [Parts.read?, List.takeWhile_eq_self_iff.2 digits, List.dropWhile_eq_nil_iff.2 digits]

end Decimal

namespace Json

theorem le_ofDigitChars (cs : List Char) (n : Nat) : n ≤ Nat.ofDigitChars 10 cs n := by
  induction cs generalizing n with
  | nil => exact Nat.le_refl n
  | cons c cs ih =>
    rw [Nat.ofDigitChars_cons]
    exact Nat.le_trans (by omega) (ih _)

/-- Digits of a number that fits are all taken up. -/
theorem accumulate_eq (cs : List Char) {n : Nat} (fits : Nat.ofDigitChars 10 cs n < UInt64.size) :
    accumulate n cs = (Nat.ofDigitChars 10 cs n, []) := by
  induction cs generalizing n with
  | nil => rfl
  | cons c cs ih =>
    rw [Nat.ofDigitChars_cons] at fits ⊢
    have next := Nat.lt_of_le_of_lt (le_ofDigitChars cs _) fits
    rw [accumulate, if_pos next, ih fits]

/-- A whole number, with a sign or without. -/
def numeral (isNegative : Bool) (n : Nat) : List Char :=
  if isNegative then '-' :: Nat.toDigits 10 n else Nat.toDigits 10 n

theorem ofNumber?_numeral {n : Nat} (fits : n < UInt64.size) (isNegative : Bool) :
    Token.ofNumber? (numeral isNegative n) = some (.ofWhole isNegative (UInt64.ofNat n)) := by
  have isDigit {c : Char} : c ∈ Nat.toDigits 10 n → Decimal.isDigit c = true :=
    Decimal.isDigit_of_mem_toDigits
  have parts := Decimal.Parts.read?_digits fun _ => isDigit
  have value : Nat.ofDigitChars 10 (Nat.toDigits 10 n) 0 = n :=
    Nat.ofDigitChars_toDigits (by decide) (by decide)
  have all := accumulate_eq (Nat.toDigits 10 n) (by rwa [value])
  rw [value] at all
  unfold Token.ofNumber?
  split
  rename_i sign digits parted
  -- what is taken for the sign is the sign: no digit is a minus
  obtain ⟨rfl, rfl⟩ : isNegative = sign ∧ Nat.toDigits 10 n = digits := by
    cases isNegative with
    | true => exact Prod.mk.inj parted
    | false =>
      split at parted
      · rename_i cs minus
        have written : Nat.toDigits 10 n = '-' :: cs := minus
        have digit : Decimal.isDigit '-' = true := isDigit (written ▸ List.mem_cons_self)
        cases digit
      · exact Prod.mk.inj parted
  refine Option.bind_eq_some_iff.2 ⟨_, parts, ?_⟩
  refine Option.bind_eq_some_iff.2 ⟨(), if_pos (Decimal.toDigits_leading n), ?_⟩
  refine Option.bind_eq_some_iff.2 ⟨(), if_pos rfl, ?_⟩
  rw [all]
  exact if_pos ⟨rfl, rfl, rfl⟩

theorem numeral_ne_nil (isNegative : Bool) (n : Nat) : numeral isNegative n ≠ [] := by
  cases isNegative with
  | true => exact List.cons_ne_nil _ _
  | false => exact Nat.toDigits_ne_nil

theorem isNumeric_of_mem_numeral {isNegative : Bool} {n : Nat} {c : Char}
    (member : c ∈ numeral isNegative n) : isNumeric c = true := by
  have digit : c ∈ Nat.toDigits 10 n → isNumeric c = true := by
    intro member
    simp [isNumeric, Decimal.isDigit_of_mem_toDigits member]
  cases isNegative with
  | true =>
    rcases List.mem_cons.1 member with rfl | member
    · rfl
    · exact digit member
  | false => exact digit member

theorem toList_toString_nat (n : Nat) : (toString n).toList = numeral false n := by
  rw [Nat.toString_eq_repr, Nat.toList_repr]
  rfl

theorem toList_toString_int {n : Int} (negative : n < 0) :
    (toString n).toList = numeral true n.natAbs := by
  obtain ⟨m, rfl⟩ := Int.eq_negSucc_of_lt_zero negative
  have written : toString (Int.negSucc m) = "-" ++ (m + 1).repr := rfl
  rw [written, String.toList_append, Nat.toList_repr]
  rfl

theorem natAbs_toInt_le (n : Int64) : n.toInt.natAbs ≤ 0x8000000000000000 := by
  have least := n.le_toInt
  have largest := n.toInt_lt
  omega

/-- The sign is put back on the number without it, also for the least number. -/
theorem ofWhole_natAbs {n : Int64} (negative : n < 0) :
    Token.ofWhole true (UInt64.ofNat n.toInt.natAbs) = .negative n := by
  have below : n.toInt < 0 := Int64.lt_iff_toInt_lt.1 negative
  have bound := natAbs_toInt_le n
  have size : (UInt64.ofNat n.toInt.natAbs).toNat = n.toInt.natAbs :=
    UInt64.toNat_ofNat_of_lt' (Nat.lt_of_le_of_lt bound (by decide))
  have small : ¬ (UInt64.ofNat n.toInt.natAbs = 0 ∨
      0x8000000000000000 < UInt64.ofNat n.toInt.natAbs) := by
    rw [← UInt64.toNat_inj, UInt64.lt_iff_toNat_lt, size]
    show ¬ (n.toInt.natAbs = 0 ∨ 0x8000000000000000 < n.toInt.natAbs)
    omega
  have signed : -(UInt64.ofNat n.toInt.natAbs).toInt64 = n := by
    have magnitude : -(n.toInt.natAbs : Int) = n.toInt := by omega
    rw [UInt64.toInt64_ofNat', Int64.neg_ofNat, magnitude, Int64.ofInt_toInt]
  rw [Token.ofWhole, if_neg (by decide), if_neg small, signed]

theorem ofNumber?_unsigned (n : UInt64) :
    Token.ofNumber? (toString n.toNat).toList = some (.unsigned n) := by
  rw [toList_toString_nat, ofNumber?_numeral n.toNat_lt_size, UInt64.ofNat_toNat]
  rfl

theorem ofNumber?_negative {n : Int64} (negative : n < 0) :
    Token.ofNumber? (toString n.toInt).toList = some (.negative n) := by
  have fits : n.toInt.natAbs < UInt64.size := Nat.lt_of_le_of_lt (natAbs_toInt_le n) (by decide)
  rw [toList_toString_int (Int64.lt_iff_toInt_lt.1 negative), ofNumber?_numeral fits,
    ofWhole_natAbs negative]

/-- The digits that a control character is written with give it back. -/
theorem hex4?_control {n : Nat} (control : n < 32) :
    hex4? '0' '0' (hexDigit (n / 16)) (hexDigit (n % 16)) = some n := by
  have all : ∀ m < 32, hex4? '0' '0' (hexDigit (m / 16)) (hexDigit (m % 16)) = some m := by decide
  exact all n control

theorem readString?_escape (c : Char) (cs : List Char) :
    readString? (escape c ++ cs) = withChar (some c) (readString? cs) := by
  unfold escape
  split
  case h_8 noQuote noBackslash _ _ _ _ _ =>
    split
    · rename_i control
      have below : c.toNat < 32 := control
      have plane : c.toNat < 0xD800 ∨ 0xDFFF < c.toNat := by omega
      simp only [List.cons_append, List.nil_append, readString?, hex4?_control below,
        Option.bind_some, if_pos plane, Char.ofNat_toNat]
    · rename_i visible
      have itself : c ≠ '\\' ∧ '\x20' ≤ c := ⟨noBackslash, Char.not_lt.1 visible⟩
      rw [List.cons_append, List.nil_append, readString?, if_pos itself]
      · exact noQuote
      · exact fun _ _ _ _ _ first _ => noBackslash first
      · exact fun _ _ first _ => noBackslash first
  -- what has an escape of its own is read as the character that follows the backslash stands for
  all_goals rfl

theorem readString?_flatMap_escape (cs rest : List Char) :
    readString? (cs.flatMap escape ++ '"' :: rest) = some (cs, rest) := by
  induction cs with
  | nil => rfl
  | cons c cs ih =>
    rw [List.flatMap_cons, List.append_assoc, readString?_escape, ih]
    rfl

end Json
end LayeredSettings
