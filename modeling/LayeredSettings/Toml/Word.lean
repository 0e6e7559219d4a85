import LayeredSettings.Toml.Moment
import LayeredSettings.Value.Basic

/-!
Values of TOML that are written without quotes or brackets: booleans, numbers, dates and times.
-/

namespace LayeredSettings.Toml

/-- Letters, digits and the marks inside numbers, dates and times. -/
def isWordly (c : Char) : Bool :=
  c.isAlphanum || c = '_' || c = '+' || c = '-' || c = '.' || c = ':'

/-- Digits without the underscores, each of which has to stand between two digits. -/
def digits? (isDigit : Char → Bool) : List Char → Option (List Char)
  | [c] => if isDigit c then some [c] else none
  | c :: '_' :: cs => if isDigit c then (digits? isDigit cs).map (c :: ·) else none
  | c :: cs => if isDigit c then (digits? isDigit cs).map (c :: ·) else none
  | [] => none

/-- Decimal digits without a leading zero. -/
def whole? (cs : List Char) : Option (List Char) :=
  (digits? Decimal.isDigit cs).filter fun ds => ds.length = 1 || ds.head? ≠ some '0'

def inRadix? (radix : Nat) (cs : List Char) : Option Int := do
  let n ← Decimal.readNat? radix (← digits? (fun c => (Decimal.digitValue? radix c).isSome) cs)
  return n

/-- Digits with a radix have no sign. -/
def integer? : List Char → Option Int
  | '0' :: 'x' :: cs => inRadix? 16 cs
  | '0' :: 'o' :: cs => inRadix? 8 cs
  | '0' :: 'b' :: cs => inRadix? 2 cs
  | '+' :: cs => (whole? cs).bind fun ds => (Decimal.readInt? 10 ds)
  | '-' :: cs => (whole? cs).bind fun ds => (Decimal.readInt? 10 ('-' :: ds))
  | cs => (whole? cs).bind fun ds => (Decimal.readInt? 10 ds)

/-- An exponent with its `e`, without underscores. -/
def exponent? : List Char → Option (List Char)
  | '+' :: cs => (digits? Decimal.isDigit cs).map ('e' :: ·)
  | '-' :: cs => (digits? Decimal.isDigit cs).map ('e' :: '-' :: ·)
  | cs => (digits? Decimal.isDigit cs).map ('e' :: ·)

/-- A number with a fraction or an exponent, without its sign. -/
def magnitude? (cs : List Char) : Option Float := do
  let isPart (c : Char) : Bool := Decimal.isDigit c || c = '_'
  let isExponent (c : Char) : Bool := c = 'e' || c = 'E'
  let whole ← whole? (cs.takeWhile isPart)
  match cs.dropWhile isPart with
  | '.' :: rest =>
    let fraction ← digits? Decimal.isDigit (rest.takeWhile isPart)
    match rest.dropWhile isPart with
    | [] => Decimal.readFloat? (whole ++ '.' :: fraction)
    | c :: rest =>
      guard (isExponent c)
      Decimal.readFloat? (whole ++ '.' :: fraction ++ (← exponent? rest))
  | c :: rest =>
    guard (isExponent c)
    Decimal.readFloat? (whole ++ (← exponent? rest))
  | [] => none

/-- A positive number must not be too large; a negative one that is becomes an infinity. -/
def float? (cs : List Char) : Option Float :=
  let (negative, rest) := match cs with
    | '-' :: rest => (true, rest)
    | '+' :: rest => (false, rest)
    | rest => (false, rest)
  let magnitude : Option Float := match rest with
    | ['i', 'n', 'f'] => some (1 / 0)
    | ['n', 'a', 'n'] => some (0 / 0)
    | rest => (magnitude? rest).filter fun x => negative || !x.isInf
  magnitude.map fun x => if negative then -x else x

/-- Dates and times have no kind of their own among values; each is a map with this one key. -/
def momentKey : String := "$__toml_private_datetime"

def word? (cs : List Char) : Option Value :=
  match cs with
  | ['t', 'r', 'u', 'e'] => some (.bool true)
  | ['f', 'a', 'l', 's', 'e'] => some (.bool false)
  | cs =>
    match Moment.read? cs with
    | some moment => some (.map [(momentKey, .string moment.text)])
    | none =>
      match integer? cs with
      | some n => (Decimal.toInt64? n).map fun n => .number (.int n)
      | none => (float? cs).map fun x => .number (.float x)

/-- A word, and what follows it. A blank may stand between a date and a time. -/
def readWord? (cs : List Char) : Option (Value × List Char) :=
  let word := cs.takeWhile isWordly
  let rest := cs.dropWhile isWordly
  match rest with
  | ' ' :: later =>
    let time := later.takeWhile isWordly
    if (Date.read? word).isSome ∧ !time.isEmpty then
      (word? (word ++ ' ' :: time)).map (·, later.dropWhile isWordly)
    else (word? word).map (·, rest)
  | rest => (word? word).map (·, rest)

end LayeredSettings.Toml
