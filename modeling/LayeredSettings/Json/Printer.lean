import LayeredSettings.Json.Tree
import LayeredSettings.Decimal.Layout

/-!
Compact JSON text: no blanks, the entries of an object in their order.
-/

namespace LayeredSettings.Json

/-- Numbers from 10⁻⁵ up to 10¹⁶ are written without an exponent; infinities and NaN have no JSON
form and are written as null. -/
def numbers : Decimal.Layout where
  tie := .even
  positional exponent := -5 ≤ exponent && exponent < 16
  pointZero := true
  notANumber := "null"
  infinity := "null"

def hexDigit (n : Nat) : Char := (Nat.toDigits 16 n).headD '0'

/-- Quotes, backslashes and control characters below the blank are escaped, all else stands for
itself. -/
def escape (c : Char) : List Char :=
  match c with
  | '"' => ['\\', '"']
  | '\\' => ['\\', '\\']
  | '\x08' => ['\\', 'b']
  | '\t' => ['\\', 't']
  | '\n' => ['\\', 'n']
  | '\x0c' => ['\\', 'f']
  | '\r' => ['\\', 'r']
  | c =>
    if c < '\x20' then ['\\', 'u', '0', '0', hexDigit (c.toNat / 16), hexDigit (c.toNat % 16)]
    else [c]

def quote (s : String) : String := String.ofList ('"' :: s.toList.flatMap escape ++ ['"'])

def floatText (x : Float) : String := if x.isFinite then numbers.write x else "null"

mutual
def text : Json → String
  | .null => "null"
  | .bool b => if b then "true" else "false"
  | .unsigned n => toString n.toNat
  | .negative n => toString n.toInt
  | .float x => floatText x
  | .string s => quote s
  | .array items => "[" ++ itemsText items ++ "]"
  | .object entries => "\x7b" ++ entriesText entries ++ "\x7d"

def itemsText : List Json → String
  | [] => ""
  | [j] => text j
  | j :: rest => text j ++ "," ++ itemsText rest

def entriesText : List (String × Json) → String
  | [] => ""
  | [(k, j)] => quote k ++ ":" ++ text j
  | (k, j) :: rest => quote k ++ ":" ++ text j ++ "," ++ entriesText rest
end

end LayeredSettings.Json
