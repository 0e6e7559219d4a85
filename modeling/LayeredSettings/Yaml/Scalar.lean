import LayeredSettings.Yaml.Token
import LayeredSettings.Decimal.Numeral

/-!
What the text of a scalar means.

A plain scalar without a tag is tried as null, truth value, integer and floating-point number, in
this order, before it is taken as a string. Tags of the standard types ask for one of these.
-/

namespace LayeredSettings.Yaml

inductive Scalar
  | null
  | bool (b : Bool)
  | unsigned (n : UInt64)
  | signed (n : Int64)
  /-- An integer of more than 64 but at most 128 bits. -/
  | wide (n : Int)
  | float (x : Float)
  | string (s : String)

namespace Scalar

def isNullWord (s : String) : Bool := s = "~" || s = "null" || s = "Null" || s = "NULL"

def bool? (s : String) : Option Bool :=
  if s = "true" ∨ s = "True" ∨ s = "TRUE" then some true
  else if s = "false" ∨ s = "False" ∨ s = "FALSE" then some false
  else none

def dropSign : List Char → List Char
  | '-' :: cs => cs
  | '+' :: cs => cs
  | cs => cs

def startsWithSign (cs : List Char) : Bool := cs.head?.any fun c => c = '-' || c = '+'

/-- Digits that begin with a needless zero, after one optional sign. They are no number. -/
def isZeroPadded (cs : List Char) : Bool :=
  match dropSign cs with
  | '0' :: d :: ds => (d :: ds).all Decimal.isDigit
  | _ => false

/-- The radix that a prefix announces, and the digits after the prefix. -/
def radixPrefix? : List Char → Option (Nat × List Char)
  | '0' :: 'x' :: ds => some (16, ds)
  | '0' :: 'o' :: ds => some (8, ds)
  | '0' :: 'b' :: ds => some (2, ds)
  | _ => none

/-- An integer of any size: an optional sign, then decimal digits or digits after a prefix. -/
def integer? (cs : List Char) : Option Int :=
  let digits := dropSign cs
  if startsWithSign digits then none
  else
    let magnitude := match radixPrefix? digits with
      | some (radix, ds) => Decimal.readNat? radix ds
      | none => if isZeroPadded cs then none else Decimal.readNat? 10 digits
    magnitude.map fun n => if cs.head? = some '-' then -(n : Int) else n

/-- An integer in the narrowest form that holds it; `none` if even 128 bits are too few. -/
def ofInteger? (n : Int) : Option Scalar :=
  if 0 ≤ n ∧ n < UInt64.size then some (.unsigned (UInt64.ofNat n.toNat))
  else if Int64.minValue.toInt ≤ n ∧ n < 0 then some (.signed (Int64.ofInt n))
  else if -Int.pow 2 127 ≤ n ∧ n < Int.pow 2 128 then some (.wide n)
  else none

def int? (s : String) : Option Scalar := (integer? s.toList).bind ofInteger?

/-- A floating-point number; a decimal number must not be too large for one. -/
def float? (s : String) : Option Float :=
  let cs := s.toList
  let unsigned := if cs.head? = some '+' then cs.drop 1 else cs
  if cs.head? = some '+' ∧ startsWithSign unsigned then none
  else match String.ofList unsigned with
    | ".inf" | ".Inf" | ".INF" => some (1 / 0)
    | "-.inf" | "-.Inf" | "-.INF" => if cs.head? = some '+' then none else some (-1 / 0)
    | ".nan" | ".NaN" | ".NAN" => if cs.head? = some '+' then none else some (0 / 0)
    | _ => (Decimal.readFloat? unsigned).filter Float.isFinite

/-- The meaning of a plain scalar without a tag. -/
def ofPlain (s : String) : Scalar :=
  if s.isEmpty ∨ isNullWord s then .null
  else match bool? s with
    | some b => .bool b
    | none =>
      match int? s with
      | some n => n
      | none =>
        match (if isZeroPadded s.toList then none else float? s) with
        | some x => .float x
        | none => .string s

def standardTag (name : String) : Octets := ("tag:yaml.org,2002:" ++ name).toUTF8.toList

/-- Tags of one's own begin with an exclamation mark. -/
def isLocalTag (tag : Octets) : Bool := tag.head? = some '!'.toUInt8

def isText (tag : Octets) : Bool := (ByteArray.mk tag.toArray).validateUTF8

/-- The meaning of a scalar. A text that does not suit its tag and a local tag have none. -/
def read? (tag : Option Octets) (s : String) (plain : Bool) : Option Scalar :=
  match tag with
  | none => some (if plain then ofPlain s else .string s)
  | some tag =>
    if tag = standardTag "bool" then (bool? s).map .bool
    else if tag = standardTag "int" then int? s
    else if tag = standardTag "float" then (float? s).map .float
    else if tag = standardTag "null" then (if isNullWord s then some .null else none)
    else if isLocalTag tag then
      if isText tag then none else some (if plain then ofPlain s else .string s)
    else some (.string s)

end Scalar
end LayeredSettings.Yaml
