/-!
A place in YAML text: what is left of the text, and the line and column.

There are five line breaks; a carriage return with a line feed counts as one. The two Unicode
separators keep their identity when a break becomes part of a scalar, the others become line feeds.
-/

namespace LayeredSettings.Yaml

def isBreak (c : Char) : Bool :=
  c = '\n' || c = '\r' || c = '\u0085' || c = '\u2028' || c = '\u2029'

def isBlank (c : Char) : Bool := c = ' ' || c = '\t'

/-- A blank, a line break or the end of the text. -/
def isGap : Option Char → Bool
  | none => true
  | some c => isBlank c || isBreak c

/-- The characters of names: anchors, directives and tag handles. -/
def isNameChar (c : Char) : Bool :=
  ('0' ≤ c && c ≤ '9') || ('A' ≤ c && c ≤ 'Z') || ('a' ≤ c && c ≤ 'z') || c = '_' || c = '-'

/-- Control characters may not occur in YAML text, nor may the last two characters of the first
plane. -/
def isAllowed (c : Char) : Bool :=
  c = '\t' || c = '\n' || c = '\r' || c = '\u0085' || ('\x20' ≤ c && c ≤ '\x7e') ||
    ('\u00a0' ≤ c && c ≤ '\ufffd') || 0x10000 ≤ c.toNat

def byteCount (cs : List Char) : Nat := (String.ofList cs).utf8ByteSize

structure Cursor where
  rest : List Char
  line : Nat
  column : Nat
  /-- How many bytes came before, in UTF-8. -/
  offset : Nat

namespace Cursor

def start (text : List Char) : Cursor := ⟨text, 0, 0, 0⟩

def peek? (c : Cursor) (n : Nat) : Option Char := c.rest[n]?

/-- Skips characters of one line. -/
def advance (c : Cursor) (n : Nat) : Cursor :=
  { c with
    rest := c.rest.drop n, column := c.column + n, offset := c.offset + byteCount (c.rest.take n) }

/-- A byte order mark at the start of a line stands for no character of the line, but it takes a
column. -/
def skipByteOrderMark (c : Cursor) : Cursor :=
  if c.column = 0 ∧ c.peek? 0 = some '\ufeff' then c.advance 1 else c

/-- The longest run of characters with a property, none of which is a line break. -/
def takeWhile (c : Cursor) (p : Char → Bool) : List Char × Cursor :=
  let run := c.rest.takeWhile p
  (run, c.advance run.length)

def skipWhile (c : Cursor) (p : Char → Bool) : Cursor := (c.takeWhile p).2

def nextLine (c : Cursor) (rest : List Char) (n : Nat) : Cursor :=
  ⟨rest, c.line + 1, 0, c.offset + n⟩

/-- A line break, as the character it stands for in a scalar. -/
def takeBreak? (c : Cursor) : Option (Char × Cursor) :=
  match c.rest with
  | [] => none
  | '\r' :: '\n' :: rest => some ('\n', c.nextLine rest 2)
  | ch :: rest =>
    if ch = '\u2028' ∨ ch = '\u2029' then some (ch, c.nextLine rest ch.utf8Size)
    else if isBreak ch then some ('\n', c.nextLine rest ch.utf8Size)
    else none

/-- Three equal characters at the start of a line that a gap follows: the mark between documents. -/
def atMark (c : Cursor) (ch : Char) : Bool :=
  c.column = 0 && c.peek? 0 = some ch && c.peek? 1 = some ch && c.peek? 2 = some ch &&
    isGap (c.peek? 3)

def atDocumentMark (c : Cursor) : Bool := c.atMark '-' || c.atMark '.'

@[simp] theorem rest_advance (c : Cursor) (n : Nat) : (c.advance n).rest = c.rest.drop n := rfl

theorem rest_skipWhile_length_le (c : Cursor) (p : Char → Bool) :
    (c.skipWhile p).rest.length ≤ c.rest.length := by
  simp [skipWhile, takeWhile]

theorem rest_skipByteOrderMark_length_le (c : Cursor) :
    c.skipByteOrderMark.rest.length ≤ c.rest.length := by
  unfold skipByteOrderMark
  split <;> simp

theorem takeBreak?_length {c c' : Cursor} {ch : Char} (h : c.takeBreak? = some (ch, c')) :
    c'.rest.length < c.rest.length := by
  unfold takeBreak? at h
  split at h
  · simp at h
  · rename_i rest hrest
    obtain ⟨-, rfl⟩ := Prod.mk.inj (Option.some.inj h)
    simp only [nextLine, hrest, List.length_cons]
    omega
  · rename_i first rest _ hrest
    split at h
    · obtain ⟨-, rfl⟩ := Prod.mk.inj (Option.some.inj h)
      simp [nextLine, hrest]
    · split at h
      · obtain ⟨-, rfl⟩ := Prod.mk.inj (Option.some.inj h)
        simp [nextLine, hrest]
      · simp at h

/-- Skips the rest of a line up to its break. -/
def skipLine (c : Cursor) : Cursor := c.skipWhile (!isBreak ·)

/-- Blanks, then a comment if there is one. -/
def skipComment (c : Cursor) : Cursor :=
  let c := c.skipWhile isBlank
  if c.peek? 0 = some '#' then c.skipLine else c

/-- Past the end of a line on which nothing but blanks and a comment are left. -/
def endLine? (c : Cursor) : Option Cursor :=
  let c := c.skipComment
  match c.takeBreak? with
  | some (_, next) => some next
  | none => if c.rest.isEmpty then some c else none

end Cursor
end LayeredSettings.Yaml
