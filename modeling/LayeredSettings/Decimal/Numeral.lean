/-!
Reading integers and decimal numbers.

A decimal number is a significand times a power of ten. `nearest` rounds it to the nearest
floating-point number. `scaled` rounds three times: the significand, the power of ten and their
product or quotient; it is the rule of formats that read a number in one pass.
-/

namespace LayeredSettings.Decimal

def digitValue? (radix : Nat) (c : Char) : Option Nat :=
  let value? :=
    if '0' ≤ c ∧ c ≤ '9' then some (c.toNat - '0'.toNat)
    else if 'a' ≤ c ∧ c ≤ 'z' then some (c.toNat - 'a'.toNat + 10)
    else if 'A' ≤ c ∧ c ≤ 'Z' then some (c.toNat - 'A'.toNat + 10)
    else none
  value?.filter (· < radix)

def isDigit (c : Char) : Bool := '0' ≤ c && c ≤ '9'

/-- The number written by digits of a radix, most significant first; `none` for no digits at all. -/
def readNat? (radix : Nat) (cs : List Char) : Option Nat :=
  if cs.isEmpty then none
  else cs.foldlM (fun n c => (digitValue? radix c).map (radix * n + ·)) 0

/-- An integer with an optional sign. -/
def readInt? (radix : Nat) : List Char → Option Int
  | '-' :: cs => (readNat? radix cs).map fun n => -(n : Int)
  | '+' :: cs => (readNat? radix cs).map fun n => (n : Int)
  | cs => (readNat? radix cs).map fun n => (n : Int)

def toInt64? (n : Int) : Option Int64 :=
  if Int64.minValue.toInt ≤ n ∧ n ≤ Int64.maxValue.toInt then some (Int64.ofInt n) else none

def toUInt64? (n : Nat) : Option UInt64 :=
  if n < UInt64.size then some (UInt64.ofNat n) else none

/-- The floating-point number nearest to `significand · 10^exponent`, infinity if it is too big. -/
def nearest (significand : Nat) (exponent : Int) : Float :=
  if significand = 0 then 0
  else
    let magnitude := exponent + (Nat.toDigits 10 significand).length
    if 310 < magnitude then 1 / 0
    else if magnitude < -330 then 0
    else Float.ofScientific significand (exponent < 0) exponent.natAbs

/-- The power of ten up to 10^308 as a floating-point number. -/
def powerOfTen (n : Nat) : Float := Float.ofScientific 1 false n

/-- Divides by 10^n in steps of at most 10^308. -/
def divideByPowerOfTen (x : Float) (n : Nat) : Float :=
  if n ≤ 308 then x / powerOfTen n
  else if x == 0 then x
  else divideByPowerOfTen (x / powerOfTen 308) (n - 308)
termination_by n

/-- `significand · 10^exponent` with a rounding after each step; `none` when it is too large. -/
def scaled? (significand : UInt64) (exponent : Int) : Option Float :=
  let x := significand.toFloat
  if exponent < 0 then some (divideByPowerOfTen x exponent.natAbs)
  else if 308 < exponent then (if x == 0 then some x else none)
  else
    let y := x * powerOfTen exponent.toNat
    if y.isInf then none else some y

/-- The parts of a decimal number: whole digits, fractional digits, exponent. -/
structure Parts where
  whole : List Char
  fraction : Option (List Char)
  exponent : Option Int

/-- Splits an unsigned decimal number at the point and at the `e` of its exponent. -/
def Parts.read? (cs : List Char) : Option Parts := do
  let whole := cs.takeWhile isDigit
  let (fraction, rest) := match cs.dropWhile isDigit with
    | '.' :: cs => (some (cs.takeWhile isDigit), cs.dropWhile isDigit)
    | cs => (none, cs)
  match rest with
  | [] => some ⟨whole, fraction, none⟩
  | c :: rest =>
    if c = 'e' ∨ c = 'E' then (readInt? 10 rest).map fun e => ⟨whole, fraction, some e⟩
    else none

/-- A decimal number with an optional sign and at least one digit before or after the point, as the
nearest floating-point number. -/
def readFloat? (cs : List Char) : Option Float := do
  let (negative, cs) := match cs with
    | '-' :: cs => (true, cs)
    | '+' :: cs => (false, cs)
    | cs => (false, cs)
  let parts ← Parts.read? cs
  let fraction := parts.fraction.getD []
  let significand ← readNat? 10 (parts.whole ++ fraction)
  let x := nearest significand (parts.exponent.getD 0 - fraction.length)
  return if negative then -x else x

/-- A decimal number, or a word for infinity or NaN in any case, with an optional sign. -/
def readExtendedFloat? (cs : List Char) : Option Float :=
  let (negative, word) := match cs with
    | '-' :: cs => (true, cs)
    | '+' :: cs => (false, cs)
    | cs => (false, cs)
  match String.ofList (word.map Char.toLower) with
  | "inf" | "infinity" => some (if negative then -(1 / 0) else 1 / 0)
  | "nan" => some (0 / 0)
  | _ => readFloat? cs

end LayeredSettings.Decimal
