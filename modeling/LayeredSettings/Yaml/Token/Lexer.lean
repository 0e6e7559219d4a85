import LayeredSettings.Yaml.Token.Property
import LayeredSettings.Yaml.Token.Plain
import LayeredSettings.Yaml.Token.Block

/-!
The elements of a YAML text.

A mapping without braces shows itself only by the colon after its first key. The lexer therefore
remembers where a key might have begun, once for every open flow collection and once outside, and
puts the missing marks there when the colon comes. Such a key lies within one line and takes at most
1024 bytes.
-/

namespace LayeredSettings.Yaml

/-- Collections nest at most this deep. -/
def maxDepth : Nat := 128

/-- A place where a key may have begun. -/
structure KeyStart where
  /-- Nothing but a key can stand here: it is at the indentation of the enclosing mapping. -/
  required : Bool
  /-- How many elements precede it. -/
  position : Nat
  line : Nat
  column : Nat
  offset : Nat

structure Lexer where
  cursor : Cursor
  tokens : Array Token
  /-- The column of the innermost block collection, -1 outside all of them. -/
  indent : Int
  outer : List Int
  keyAllowed : Bool
  /-- Possible keys, innermost first: one for each open flow collection and one for the block
  around. -/
  keys : List (Option KeyStart)

namespace Lexer

def start (text : List Char) : Lexer := ⟨.start text, #[], -1, [], true, [none]⟩

def inFlow (s : Lexer) : Bool := 1 < s.keys.length

def emit (s : Lexer) (t : Token) : Lexer := { s with tokens := s.tokens.push t }

def emitAt (s : Lexer) (position : Nat) (t : Token) : Lexer :=
  { s with
    tokens := s.tokens.extract 0 position ++ #[t] ++ s.tokens.extract position s.tokens.size }

/-- Skips blanks, comments, line breaks and byte order marks. A new line may start a key; where a
key may start, tabs are no blanks. -/
def toToken (flow keyAllowed : Bool) (c : Cursor) : Cursor × Bool :=
  let c' := c.skipByteOrderMark.skipWhile fun ch => ch = ' ' || (ch = '\t' && (flow || !keyAllowed))
  let c' := if c'.peek? 0 = some '#' then c'.skipLine else c'
  match _h : c'.takeBreak? with
  | none => (c', keyAllowed)
  | some (_, next) => toToken flow (keyAllowed || !flow) next
termination_by c.rest.length
decreasing_by
  have hbreak := Cursor.takeBreak?_length _h
  have hmark := c.rest_skipByteOrderMark_length_le
  have hskip : c'.rest.length ≤ c.skipByteOrderMark.rest.length := by
    simp only [c']
    split
    · exact Nat.le_trans (Cursor.rest_skipWhile_length_le _ _) (Cursor.rest_skipWhile_length_le _ _)
    · exact Cursor.rest_skipWhile_length_le _ _
  omega

/-- Gives up keys that are no longer possible; a required one must not be given up. -/
def dropStaleKeys? (s : Lexer) : Option Lexer := do
  let keys ← s.keys.mapM fun key? =>
    match key? with
    | some k =>
      if k.line < s.cursor.line ∨ k.offset + 1024 < s.cursor.offset then
        if k.required then none else some none
      else some (some k)
    | none => some none
  return { s with keys }

/-- Gives up the innermost possible key. -/
def dropKey? (s : Lexer) : Option Lexer :=
  match s.keys with
  | some k :: rest => if k.required then none else some { s with keys := none :: rest }
  | _ => some s

/-- Remembers that a key may begin here. -/
def noteKey? (s : Lexer) : Option Lexer :=
  if s.keyAllowed then do
    let s ← s.dropKey?
    let key : KeyStart :=
      { required := !s.inFlow && s.indent = s.cursor.column
        position := s.tokens.size
        line := s.cursor.line
        column := s.cursor.column
        offset := s.cursor.offset }
    return { s with keys := some key :: s.keys.drop 1 }
  else some s

/-- Opens a block collection at a column deeper than the enclosing one. -/
def indentTo (s : Lexer) (column : Nat) (position : Nat) (t : Token) : Lexer :=
  if s.inFlow ∨ (column : Int) ≤ s.indent then s
  else { s.emitAt position t with indent := column, outer := s.indent :: s.outer }

def closeBlocks (column : Int) (indent : Int) (outer : List Int) (tokens : Array Token) :
    Int × List Int × Array Token :=
  match outer with
  | [] => (indent, [], tokens)
  | o :: rest =>
    if column < indent then closeBlocks column o rest (tokens.push .blockEnd)
    else (indent, o :: rest, tokens)

/-- Closes the block collections that are deeper than a column. -/
def dedentTo (s : Lexer) (column : Int) : Lexer :=
  if s.inFlow then s
  else
    let (indent, outer, tokens) := closeBlocks column s.indent s.outer s.tokens
    { s with indent, outer, tokens }

/-- An element of `n` characters. -/
def take (s : Lexer) (n : Nat) (t : Token) (keyAllowed : Bool) : Lexer :=
  { s.emit t with cursor := s.cursor.advance n, keyAllowed }

def documentMark? (s : Lexer) (t : Token) : Option Lexer := do
  let s ← (s.dedentTo (-1)).dropKey?
  return s.take 3 t false

def flowStart? (s : Lexer) (t : Token) : Option Lexer := do
  let s ← s.noteKey?
  return { s.take 1 t true with keys := none :: s.keys }

def flowEnd? (s : Lexer) (t : Token) : Option Lexer := do
  let s ← s.dropKey?
  return { s.take 1 t false with keys := if s.inFlow then s.keys.drop 1 else s.keys }

def flowEntry? (s : Lexer) : Option Lexer := do
  let s ← s.dropKey?
  return s.take 1 .flowEntry true

def blockEntry? (s : Lexer) : Option Lexer := do
  guard (s.inFlow ∨ s.keyAllowed)
  let s ← (s.indentTo s.cursor.column s.tokens.size .blockSequenceStart).dropKey?
  return s.take 1 .blockEntry true

def explicitKey? (s : Lexer) : Option Lexer := do
  guard (s.inFlow ∨ s.keyAllowed)
  let s ← (s.indentTo s.cursor.column s.tokens.size .blockMappingStart).dropKey?
  return s.take 1 .key (!s.inFlow)

/-- A colon: if a key began before, its mark is put there, and the start of a mapping if needed. -/
def value? (s : Lexer) : Option Lexer :=
  match s.keys with
  | some k :: rest =>
    let s := (s.emitAt k.position .key).indentTo k.column k.position .blockMappingStart
    some ({ s with keys := none :: rest }.take 1 .value false)
  | _ =>
    if s.inFlow then some (s.take 1 .value false)
    else if s.keyAllowed then
      some ((s.indentTo s.cursor.column s.tokens.size .blockMappingStart).take 1 .value true)
    else none

/-- An element that may be a key or begin one. -/
def keyLike? (s : Lexer) (read : Cursor → Option (Token × Cursor)) : Option Lexer := do
  let s ← s.noteKey?
  let (t, cursor) ← read s.cursor
  return { s.emit t with cursor, keyAllowed := false }

def quoted? (s : Lexer) (single : Bool) : Option Lexer :=
  s.keyLike? fun c => do
    let (text, next) ← quotedScalar? single .none [] (c.advance 1)
    return (.scalar (String.ofList text) false, next)

def plain? (s : Lexer) : Option Lexer := do
  let s ← s.noteKey?
  let (text, brokenOff, cursor) ← plainScalar? s.inFlow (s.indent + 1) .none [] s.cursor
  return { s.emit (.scalar (String.ofList text) true) with cursor, keyAllowed := brokenOff }

def block? (s : Lexer) (literal : Bool) : Option Lexer := do
  let s ← s.dropKey?
  let (text, cursor) ← blockScalar? literal s.indent (s.cursor.advance 1)
  return { s.emit (.scalar (String.ofList text) false) with cursor, keyAllowed := true }

def directiveLine? (s : Lexer) : Option Lexer := do
  let s ← (s.dedentTo (-1)).dropKey?
  let (t, cursor) ← directive? (s.cursor.advance 1)
  return { s.emit t with cursor, keyAllowed := false }

/-- The characters that have a meaning of their own at the start of an element. -/
def isIndicator (c : Char) : Bool := "-?:,[]\x7b\x7d#&*!|>'\"%@\x60".contains c

/-- Reads the element that begins with a character; the text before it was skipped. -/
def element? (s : Lexer) (ch : Char) : Option Lexer :=
  let next := s.cursor.peek? 1
  let flow := s.inFlow
  if s.cursor.column = 0 ∧ ch = '%' then s.directiveLine?
  else if s.cursor.atMark '-' then s.documentMark? .documentStart
  else if s.cursor.atMark '.' then s.documentMark? .documentEnd
  else if ch = '[' then s.flowStart? .flowSequenceStart
  else if ch = '{' then s.flowStart? .flowMappingStart
  else if ch = ']' then s.flowEnd? .flowSequenceEnd
  else if ch = '}' then s.flowEnd? .flowMappingEnd
  else if ch = ',' then s.flowEntry?
  else if ch = '-' ∧ isGap next then s.blockEntry?
  else if ch = '?' ∧ (flow ∨ isGap next) then s.explicitKey?
  else if ch = ':' ∧ (flow ∨ isGap next) then s.value?
  else if ch = '*' then
    s.keyLike? fun c => (anchorName? (c.advance 1)).map fun (name, next) => (.alias name, next)
  else if ch = '&' then
    s.keyLike? fun c => (anchorName? (c.advance 1)).map fun (name, next) => (.anchor name, next)
  else if ch = '!' then s.keyLike? (tag? flow)
  else if ch = '|' ∧ !flow then s.block? true
  else if ch = '>' ∧ !flow then s.block? false
  else if ch = '\'' then s.quoted? true
  else if ch = '"' then s.quoted? false
  else if !isBlank ch ∧ !isIndicator ch then s.plain?
  else if ch = '-' ∧ !next.any isBlank then s.plain?
  else if !flow ∧ (ch = '?' ∨ ch = ':') ∧ !isGap next then s.plain?
  else none

/-- No document may nest deeper, so a text that does is given up early. -/
def isTooDeep (s : Lexer) : Bool := maxDepth < s.outer.length || maxDepth + 1 < s.keys.length

def finish? (s : Lexer) : Option (List Token) := do
  let s ← (s.dedentTo (-1)).dropKey?
  return (s.emit .streamEnd).tokens.toList

/-- Reads elements up to the end of the text. Every element takes a character, so the length of the
text bounds their number. -/
def run? : Nat → Lexer → Option (List Token)
  | 0, _ => none
  | n + 1, s => do
    let (cursor, keyAllowed) := toToken s.inFlow s.keyAllowed s.cursor
    let s ← dropStaleKeys? { s with cursor, keyAllowed }
    let s := s.dedentTo s.cursor.column
    guard (!s.isTooDeep)
    match s.cursor.peek? 0 with
    | none => s.finish?
    | some ch => run? n (← s.element? ch)

end Lexer

/-- The elements of a text. -/
def Token.read? (text : String) : Option (List Token) :=
  let cs := text.toList
  if cs.all isAllowed then Lexer.run? (cs.length + 1) (.start cs) else none

end LayeredSettings.Yaml
