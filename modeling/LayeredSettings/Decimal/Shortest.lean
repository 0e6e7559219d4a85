/-!
The shortest decimal digits that read back as a given floating-point number.

A finite number is an integer times a power of two. The reals that round to it form an interval,
closed when that integer is even. Of all decimal grids 10^k, from the coarsest to the finest, the
first one with a point in the interval gives the digits; of two such points the nearer is taken, and
the format decides between two that are equally near. All comparisons are between natural numbers.
-/

namespace LayeredSettings.Decimal

/-- Decimal digits with the place of the point: the value is 0.d₁d₂d₃… times ten to the `point`. -/
structure Digits where
  digits : List Char
  point : Int

/-- Which of two equally near neighbours is taken. -/
inductive Tie
  | even
  | up

def Tie.choose (t : Tie) (down : Nat) : Nat :=
  match t with
  | .even => if down % 2 = 0 then down else down + 1
  | .up => down + 1

/-- The reals that round to one positive number, as fractions over a common denominator. -/
structure Interval where
  low : Nat
  centre : Nat
  high : Nat
  unit : Nat
  closed : Bool

/-- The number `significand · 2^exponent`. Below a power of two numbers are closer by half. -/
def Interval.ofBinary (significand : Nat) (exponent : Int) (narrowBelow : Bool) : Interval :=
  let scale := Nat.pow 2 (exponent - 2).toNat
  { low := (4 * significand - (if narrowBelow then 1 else 2)) * scale
    centre := 4 * significand * scale
    high := (4 * significand + 2) * scale
    unit := Nat.pow 2 (2 - exponent).toNat
    closed := significand % 2 == 0 }

/-- The interval of a number other than zero, infinity and NaN; the sign is left out. -/
def Interval.ofFloat (x : Float) : Interval :=
  let bits := x.toBits.toNat
  let fraction := bits % Nat.pow 2 52
  let field : Nat := bits / Nat.pow 2 52 % Nat.pow 2 11
  if field = 0 then .ofBinary fraction (-1074) false
  else
    .ofBinary (Nat.pow 2 52 + fraction) ((field : Int) - 1075) (fraction == 0 && decide (1 < field))

namespace Interval

/-- The interval measured in units of 10^k. -/
def rescale (i : Interval) (k : Int) : Interval :=
  let up := Nat.pow 10 (-k).toNat
  { low := i.low * up
    centre := i.centre * up
    high := i.high * up
    unit := i.unit * Nat.pow 10 k.toNat
    closed := i.closed }

def Contains (i : Interval) (n : Nat) : Prop :=
  if i.closed then i.low ≤ n * i.unit ∧ n * i.unit ≤ i.high
  else i.low < n * i.unit ∧ n * i.unit < i.high

instance (i : Interval) (n : Nat) : Decidable (i.Contains n) := by
  unfold Contains
  infer_instance

/-- The integer of the interval that is nearest to its centre, if one of the two neighbours of the
centre lies in the interval. -/
def nearest? (i : Interval) (tie : Tie) : Option Nat :=
  let down := i.centre / i.unit
  let up := down + 1
  let below := i.centre - down * i.unit
  let above := up * i.unit - i.centre
  match decide (i.Contains down), decide (i.Contains up) with
  | true, true =>
    if below < above then some down
    else if above < below then some up
    else some (tie.choose down)
  | true, false => some down
  | false, true => some up
  | false, false => none

/-- The least power of ten above the centre. -/
def magnitude (i : Interval) : Int :=
  if i.unit ≤ i.centre then (Nat.toDigits 10 (i.centre / i.unit)).length
  else 1 - ((List.range 400).find? fun j => i.unit ≤ i.centre * Nat.pow 10 j).getD 0

/-- The shortest digits in the interval; seventeen always suffice. -/
def shortest (i : Interval) (tie : Tie) : Digits :=
  let magnitude := i.magnitude
  let grid (count : Nat) : Option Digits :=
    ((i.rescale (magnitude - count)).nearest? tie).map fun n =>
      let written := Nat.toDigits 10 n
      { digits := (written.reverse.dropWhile (· = '0')).reverse
        point := magnitude - count + written.length }
  ((List.range' 1 17).findSome? grid).getD ⟨['0'], 1⟩

end Interval

/-- The shortest digits of a number other than zero, infinity and NaN; the sign is left out. -/
def shortest (x : Float) (tie : Tie) : Digits := (Interval.ofFloat x).shortest tie

end LayeredSettings.Decimal
