import LayeredSettings.Yaml.Cursor
import LayeredSettings.Yaml.Token
import LayeredSettings.Decimal.Numeral

/-!
Directives, and the properties that stand before a node: anchors, aliases and tags.
-/

namespace LayeredSettings.Yaml

/-- What may follow the name of an anchor or an alias without a gap. -/
def endsName (c : Option Char) : Bool :=
  isGap c || c.any fun ch => "?:,]\x7d%@\x60".contains ch

/-- A name after the sign of an anchor or an alias. -/
def anchorName? (c : Cursor) : Option (String × Cursor) :=
  let (name, next) := c.takeWhile isNameChar
  if name.isEmpty ∨ !endsName (next.peek? 0) then none else some (String.ofList name, next)

/-- Characters of a tag. Indicators of flow collections belong to it only between angle brackets. -/
def isTagChar (verbatim : Bool) (c : Char) : Bool :=
  isNameChar c || ";/?:@&=+$.!~*'()".contains c || (verbatim && ",[]".contains c)

/-- How many octets continue the character that begins with this octet. -/
def continuation? (octet : UInt8) : Option Nat :=
  if octet &&& 0x80 = 0 then some 0
  else if octet &&& 0xe0 = 0xc0 then some 1
  else if octet &&& 0xf0 = 0xe0 then some 2
  else if octet &&& 0xf8 = 0xf0 then some 3
  else none

/-- A zero octet ends a tag. What follows it must be well formed all the same. -/
def untilZero (octets : Octets) : Octets := octets.takeWhile (· ≠ 0)

/-- The octets of the longest tag text, with its length in characters. A percent sign and two
hexadecimal digits stand for an octet; `due` octets are missing of a character begun before. -/
def tagText? (verbatim : Bool) : Nat → List Char → Option (Octets × Nat)
  | due, '%' :: a :: b :: rest => do
    let octet ← (Decimal.readNat? 16 [a, b]).map UInt8.ofNat
    let due ←
      if due = 0 then continuation? octet
      else if octet &&& 0xc0 = 0x80 then some (due - 1)
      else none
    let (octets, n) ← tagText? verbatim due rest
    return (octet :: octets, n + 3)
  | 0, c :: rest => do
    guard (c ≠ '%')
    if isTagChar verbatim c then
      let (octets, n) ← tagText? verbatim 0 rest
      return (UInt8.ofNat c.toNat :: octets, n + 1)
    else return ([], 0)
  | 0, [] => some ([], 0)
  | _ + 1, _ => none

def tagAt? (verbatim : Bool) (c : Cursor) : Option (Octets × Cursor) := do
  let (octets, n) ← tagText? verbatim 0 c.rest
  return (octets, c.advance n)

def octetsOf (cs : List Char) : Octets := cs.map fun c => UInt8.ofNat c.toNat

/-- An exclamation mark, name characters, and a second exclamation mark if there is one. -/
def tagHandle? (c : Cursor) : Option (List Char × Cursor) :=
  if c.peek? 0 ≠ some '!' then none
  else
    let (name, next) := (c.advance 1).takeWhile isNameChar
    if next.peek? 0 = some '!' then some ('!' :: name ++ ['!'], next.advance 1)
    else some ('!' :: name, next)

/-- A tag: its handle, empty for a complete tag, and the text after the handle. -/
def tag? (flow : Bool) (c : Cursor) : Option (Token × Cursor) := do
  let (token, next) ←
    if c.peek? 1 = some '<' then do
      let (octets, next) ← tagAt? true (c.advance 2)
      guard (!octets.isEmpty ∧ next.peek? 0 = some '>')
      some (Token.tag "" (untilZero octets), next.advance 1)
    else do
      let (handle, next) ← tagHandle? c
      let (octets, next) ← tagAt? false next
      if handle.length ≥ 2 ∧ handle.getLast? = some '!' then
        guard (!octets.isEmpty)
        some (Token.tag (String.ofList handle) (untilZero octets), next)
      else
        let suffix := untilZero (octetsOf (handle.drop 1) ++ octets)
        if suffix.isEmpty then some (Token.tag "" (octetsOf ['!']), next)
        else some (Token.tag "!" suffix, next)
  guard (isGap (next.peek? 0) ∨ (flow ∧ next.peek? 0 = some ','))
  return (token, next)

/-- A number of at most nine digits. -/
def versionNumber? (c : Cursor) : Option (Nat × Cursor) := do
  let (digits, next) := c.takeWhile Decimal.isDigit
  guard (digits.length ≤ 9)
  let n ← Decimal.readNat? 10 digits
  return (n, next)

/-- A directive after its percent sign, up to the end of its line. -/
def directive? (c : Cursor) : Option (Token × Cursor) := do
  let (name, c) := c.takeWhile isNameChar
  guard (isGap (c.peek? 0))
  let (token, c) ← match String.ofList name with
    | "YAML" => do
      let (major, c) ← versionNumber? (c.skipWhile isBlank)
      guard (c.peek? 0 = some '.')
      let (minor, c) ← versionNumber? (c.advance 1)
      some (Token.version major minor, c)
    | "TAG" => do
      let (handle, c) ← tagHandle? (c.skipWhile isBlank)
      guard (handle = ['!'] ∨ handle.length ≥ 2 ∧ handle.getLast? = some '!')
      guard ((c.peek? 0).any isBlank)
      let (octets, c) ← tagAt? true (c.skipWhile isBlank)
      guard (!octets.isEmpty ∧ isGap (c.peek? 0))
      some (Token.tagHandle (String.ofList handle) (untilZero octets), c)
    | _ => none
  let c ← c.endLine?
  return (token, c)

end LayeredSettings.Yaml
