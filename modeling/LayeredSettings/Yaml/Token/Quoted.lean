import LayeredSettings.Yaml.Cursor
import LayeredSettings.Text.Escape

/-!
Quoted scalars, and the folding of lines they share with plain scalars.
-/

namespace LayeredSettings.Yaml

/-- White space inside a scalar that counts only if more of the scalar follows. -/
inductive Gap
  | none
  | blanks (run : List Char)
  /-- Line breaks; the first one is missing if it was escaped. -/
  | lines (first : Option Char) (more : List Char)

namespace Gap

def addBlank (c : Char) : Gap → Gap
  | .none => .blanks [c]
  | .blanks run => .blanks (run ++ [c])
  | .lines first more => .lines first more

def addBreak (c : Char) : Gap → Gap
  | .lines first more => .lines first (more ++ [c])
  | _ => .lines (some c) []

/-- A single line feed becomes a blank; of several the first one is dropped. -/
def folded : Gap → List Char
  | .none => []
  | .blanks run => run
  | .lines (some '\n') [] => [' ']
  | .lines (some '\n') more => more
  | .lines first more => first.toList ++ more

def isNone : Gap → Bool
  | .none => true
  | _ => false

def hasLines : Gap → Bool
  | .lines .. => true
  | _ => false

end Gap

/-- Characters that a backslash and one letter stand for. -/
def shortEscape? : Char → Option Char
  | '0' => some '\x00'
  | 'a' => some '\x07'
  | 'b' => some '\x08'
  | 't' => some '\t'
  | '\t' => some '\t'
  | 'n' => some '\n'
  | 'v' => some '\x0b'
  | 'f' => some '\x0c'
  | 'r' => some '\r'
  | 'e' => some '\x1b'
  | ' ' => some ' '
  | '"' => some '"'
  | '/' => some '/'
  | '\\' => some '\\'
  | 'N' => some '\u0085'
  | '_' => some '\u00a0'
  | 'L' => some '\u2028'
  | 'P' => some '\u2029'
  | _ => none

/-- The character that an escape stands for, and the length of the escape without its backslash. -/
def escape? : List Char → Option (Char × Nat)
  | 'x' :: digits => (Text.hexEscape? digits 2).map (·, 3)
  | 'u' :: digits => (Text.hexEscape? digits 4).map (·, 5)
  | 'U' :: digits => (Text.hexEscape? digits 8).map (·, 9)
  | c :: _ => (shortEscape? c).map (·, 1)
  | [] => none

/-- The rest of a quoted scalar after its opening quote. `text` is what was read so far, in reverse
order. -/
def quotedScalar? (single : Bool) (gap : Gap) (text : List Char) (c : Cursor) :
    Option (List Char × Cursor) :=
  if c.atDocumentMark then none
  else match _hrest : c.rest with
    | [] => none
    | ch :: rest =>
      if isBlank ch then quotedScalar? single (gap.addBlank ch) text (c.advance 1)
      else match _hbreak : c.takeBreak? with
        | some (b, next) => quotedScalar? single (gap.addBreak b) text next
        | none =>
          let text := gap.folded.reverse ++ text
          if ch = '\'' ∧ single then
            if rest.head? = some '\'' then quotedScalar? single .none ('\'' :: text) (c.advance 2)
            else some (text.reverse, c.advance 1)
          else if ch = '"' ∧ !single then some (text.reverse, c.advance 1)
          else if ch = '\\' ∧ !single then
            match _hescaped : (c.advance 1).takeBreak? with
            | some (_, next) => quotedScalar? single (.lines none []) text next
            | none =>
              match escape? rest with
              | some (e, n) => quotedScalar? single .none (e :: text) (c.advance (n + 1))
              | none => none
          else quotedScalar? single .none (ch :: text) (c.advance 1)
termination_by c.rest.length
decreasing_by
  all_goals try simp only [Cursor.rest_advance, _hrest, List.length_drop, List.length_cons]
  any_goals omega
  · have := Cursor.takeBreak?_length _hbreak
    simpa [_hrest] using this
  · have := Cursor.takeBreak?_length _hescaped
    simp only [Cursor.rest_advance, _hrest, List.drop_one, List.tail_cons] at this
    omega

end LayeredSettings.Yaml
