import LayeredSettings.Decimal.Shortest

/-!
How the digits of a floating-point number are laid out as text.
-/

namespace LayeredSettings.Decimal

/-- The choices that one output format makes. -/
structure Layout where
  tie : Tie
  /-- Which numbers are written without an exponent, by the exponent of their first digit. -/
  positional : Int → Bool
  /-- A whole number written without an exponent ends in `.0`. -/
  pointZero : Bool
  notANumber : String
  infinity : String

namespace Layout

def positionalText (l : Layout) (d : Digits) : String :=
  let fraction (cs : List Char) : List Char :=
    if cs.isEmpty then (if l.pointZero then ['.', '0'] else []) else '.' :: cs
  if d.point ≤ 0 then
    String.ofList ('0' :: fraction (List.replicate (-d.point).toNat '0' ++ d.digits))
  else
    let whole := d.digits.take d.point.toNat
    String.ofList (whole ++ List.replicate (d.point.toNat - whole.length) '0' ++
      fraction (d.digits.drop d.point.toNat))

/-- One digit before the point, then the exponent with its sign. -/
def exponentText (d : Digits) : String :=
  let exponent := d.point - 1
  let mantissa := match d.digits with
    | [] => []
    | [c] => [c]
    | c :: rest => c :: '.' :: rest
  String.ofList mantissa ++ (if exponent < 0 then "e-" else "e+") ++ toString exponent.natAbs

/-- The text of the absolute value of a number that is not a NaN. -/
def magnitudeText (l : Layout) (x : Float) : String :=
  if x.isInf then l.infinity
  else if x == 0 then l.positionalText ⟨['0'], 1⟩
  else
    let d := shortest x l.tie
    if l.positional (d.point - 1) then l.positionalText d else exponentText d

def write (l : Layout) (x : Float) : String :=
  if x.isNaN then l.notANumber
  else if Nat.pow 2 63 ≤ x.toBits.toNat then "-" ++ l.magnitudeText x
  else l.magnitudeText x

end Layout
end LayeredSettings.Decimal
