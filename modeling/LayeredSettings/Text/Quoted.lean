import LayeredSettings.Text.Shapeless

/-!
Strings in double quotes, as messages show them.
-/

namespace LayeredSettings.Text

def escapeShown (c : Char) : List Char :=
  match c with
  | '"' => ['\\', '"']
  | '\\' => ['\\', '\\']
  | '\x00' => ['\\', '0']
  | '\t' => ['\\', 't']
  | '\n' => ['\\', 'n']
  | '\r' => ['\\', 'r']
  | c => if isShapeless c then ['\\', 'u', '{'] ++ Nat.toDigits 16 c.toNat ++ ['}'] else [c]

/-- A character without a shape of its own is shown by its code point. -/
def quote (s : String) : String := String.ofList ('"' :: s.toList.flatMap escapeShown ++ ['"'])

end LayeredSettings.Text
