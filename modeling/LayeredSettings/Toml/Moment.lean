import LayeredSettings.Decimal.Numeral

/-!
Dates and times of TOML, and their text.
-/

namespace LayeredSettings.Toml

structure Date where
  year : Nat
  month : Nat
  day : Nat
  deriving DecidableEq

structure Time where
  hour : Nat
  minute : Nat
  second : Nat
  nanosecond : Nat
  deriving DecidableEq

/-- The distance of local time from universal time. -/
inductive Offset
  | zulu
  | minutes (n : Int)
  deriving DecidableEq

inductive Moment
  | date (date : Date)
  | time (time : Time)
  | dateTime (date : Date) (time : Time) (offset : Option Offset)
  deriving DecidableEq

/-- A number of exactly `count` digits. -/
def fixed? (count : Nat) (cs : List Char) : Option Nat := do
  guard (cs.length = count)
  Decimal.readNat? 10 cs

namespace Date

def isLeapYear (year : Nat) : Bool := year % 4 = 0 && (year % 100 ≠ 0 || year % 400 = 0)

def daysInMonth (year month : Nat) : Nat :=
  if month = 2 then (if isLeapYear year then 29 else 28)
  else if month ∈ [4, 6, 9, 11] then 30
  else 31

def read? (cs : List Char) : Option Date := do
  let [year, month, day] := cs.splitOn '-' | none
  let year ← fixed? 4 year
  let month ← fixed? 2 month
  let day ← fixed? 2 day
  guard (1 ≤ month ∧ month ≤ 12)
  guard (1 ≤ day ∧ day ≤ daysInMonth year month)
  return ⟨year, month, day⟩

end Date

namespace Time

/-- The fraction of a second in nanoseconds; further digits are dropped. -/
def fraction? (cs : List Char) : Option Nat := do
  guard (cs.all Decimal.isDigit)
  let n ← Decimal.readNat? 10 (cs.take 9)
  return n * Nat.pow 10 (9 - cs.length)

/-- A minute may have 61 seconds. -/
def read? (cs : List Char) : Option Time := do
  let [hour, minute, rest] := cs.splitOn ':' | none
  let hour ← fixed? 2 hour
  let minute ← fixed? 2 minute
  let second ← fixed? 2 (rest.take 2)
  let nanosecond ← match rest.drop 2 with
    | [] => some 0
    | '.' :: digits => fraction? digits
    | _ => none
  guard (hour ≤ 23 ∧ minute ≤ 59 ∧ second ≤ 60)
  return ⟨hour, minute, second, nanosecond⟩

end Time

namespace Offset

def minutes? (cs : List Char) : Option Nat := do
  let [hour, minute] := cs.splitOn ':' | none
  let hour ← fixed? 2 hour
  let minute ← fixed? 2 minute
  guard (hour ≤ 23 ∧ minute ≤ 59)
  return 60 * hour + minute

def read? : List Char → Option Offset
  | ['Z'] | ['z'] => some .zulu
  | '+' :: cs => (minutes? cs).map fun n => .minutes n
  | '-' :: cs => (minutes? cs).map fun n => .minutes (-n)
  | _ => none

end Offset

namespace Moment

/-- A time with an offset, if there is one. -/
def readTimeAndOffset? (cs : List Char) : Option (Time × Option Offset) := do
  let isTimely (c : Char) : Bool := Decimal.isDigit c || c = ':' || c = '.'
  let t ← Time.read? (cs.takeWhile isTimely)
  match cs.dropWhile isTimely with
  | [] => some (t, none)
  | cs => (Offset.read? cs).map fun offset => (t, some offset)

def read? (cs : List Char) : Option Moment :=
  match Time.read? cs with
  | some t => some (.time t)
  | none => do
    let d ← Date.read? (cs.take 10)
    match cs.drop 10 with
    | [] => some (.date d)
    | c :: cs =>
      guard (c = 'T' ∨ c = 't' ∨ c = ' ')
      let (t, offset) ← readTimeAndOffset? cs
      return .dateTime d t offset

def padded (width n : Nat) : List Char :=
  let digits := Nat.toDigits 10 n
  List.replicate (width - digits.length) '0' ++ digits

def dateText (d : Date) : List Char :=
  padded 4 d.year ++ '-' :: padded 2 d.month ++ '-' :: padded 2 d.day

/-- Zeros at the end of a fraction are left out. -/
def timeText (t : Time) : List Char :=
  let fraction := if t.nanosecond = 0 then []
    else '.' :: ((padded 9 t.nanosecond).reverse.dropWhile (· = '0')).reverse
  padded 2 t.hour ++ ':' :: padded 2 t.minute ++ ':' :: padded 2 t.second ++ fraction

def offsetText : Offset → List Char
  | .zulu => ['Z']
  | .minutes n =>
    (if n < 0 then '-' else '+') :: padded 2 (n.natAbs / 60) ++ ':' :: padded 2 (n.natAbs % 60)

def text : Moment → String
  | .date d => String.ofList (dateText d)
  | .time t => String.ofList (timeText t)
  | .dateTime d t offset =>
    String.ofList (dateText d ++ 'T' :: timeText t ++ (offset.map offsetText).getD [])

end Moment
end LayeredSettings.Toml
