import LayeredSettings.Decimal.Numeral

/-!
Characters given by their code points.
-/

namespace LayeredSettings.Text

/-- The character whose code point is written by the first `count` digits; none if there are fewer
digits or no such character. -/
def hexEscape? (digits : List Char) (count : Nat) : Option Char := do
  guard (count ≤ digits.length)
  let n ← Decimal.readNat? 16 (digits.take count)
  guard (n.isValidChar)
  return Char.ofNat n

end LayeredSettings.Text
