import LayeredSettings.Yaml.Cursor

/-!
Literal and folded block scalars.
-/

namespace LayeredSettings.Yaml

/-- What happens to the line breaks at the end of a block scalar. -/
inductive Chomping
  | strip
  | clip
  | keep

/-- The signs between the indicator of a block scalar and its first line break. -/
structure BlockHeader where
  chomping : Chomping
  /-- The indentation relative to the parent, if it is given. -/
  increment : Option Nat

namespace BlockHeader

def chomping? : Option Char → Option Chomping
  | some '-' => some .strip
  | some '+' => some .keep
  | _ => none

def increment? (c : Option Char) : Option Nat :=
  c.bind fun ch => if '0' ≤ ch ∧ ch ≤ '9' then some (ch.toNat - '0'.toNat) else none

def read? (c : Cursor) : Option (BlockHeader × Cursor) := do
  let (header, n) : BlockHeader × Nat :=
    match chomping? (c.peek? 0), increment? (c.peek? 0) with
    | some k, _ =>
      match increment? (c.peek? 1) with
      | some i => (⟨k, some i⟩, 2)
      | none => (⟨k, none⟩, 1)
    | none, some i =>
      match chomping? (c.peek? 1) with
      | some k => (⟨k, some i⟩, 2)
      | none => (⟨.clip, some i⟩, 1)
    | none, none => (⟨.clip, none⟩, 0)
  guard (header.increment ≠ some 0)
  let next ← (c.advance n).endLine?
  return (header, next)

end BlockHeader

/-- Empty lines of a block scalar and the indentation of the line after them, with the deepest
indentation seen. A tab may not stand in the indentation; without a known indentation every blank
belongs to it. -/
def emptyLines? (indent : Option Nat) (breaks : List Char) (deepest : Nat) (c : Cursor) :
    Option (List Char × Nat × Cursor) :=
  let spaces := (c.rest.takeWhile (· = ' ')).length
  let c' := c.advance (indent.elim spaces fun n => min spaces (n - c.column))
  if indent.all (c'.column < ·) ∧ c'.peek? 0 = some '\t' then none
  else match _h : c'.takeBreak? with
    | none => some (breaks, max deepest c'.column, c')
    | some (b, next) => emptyLines? indent (breaks ++ [b]) (max deepest c'.column) next
termination_by c.rest.length
decreasing_by
  have hbreak := Cursor.takeBreak?_length _h
  have hskip : c'.rest.length ≤ c.rest.length := by simp [c']
  omega

theorem emptyLines?_length {indent : Option Nat} {breaks : List Char} {deepest : Nat} {c : Cursor}
    {result : List Char × Nat × Cursor} (h : emptyLines? indent breaks deepest c = some result) :
    result.2.2.rest.length ≤ c.rest.length := by
  fun_induction emptyLines? indent breaks deepest c with
  | case1 => simp at h
  | case2 breaks deepest c spaces c' _ _ =>
    obtain rfl := Option.some.inj h
    simp [c']
  | case3 breaks deepest c spaces c' _ b next hbreak ih =>
    have hnext := Cursor.takeBreak?_length hbreak
    have hskip : c'.rest.length ≤ c.rest.length := by simp [c']
    have hrest := ih h
    omega

/-- The part of a block scalar that is still undecided: the break that ended the last line, whether
that line began with a blank, and the empty lines after it. -/
structure BlockEnd where
  lineBreak : Option Char
  afterBlank : Bool
  breaks : List Char

/-- In a folded scalar a line feed between two lines that do not begin with a blank becomes a blank,
or nothing if empty lines follow it. -/
def BlockEnd.joined (e : BlockEnd) (literal beforeBlank : Bool) : List Char :=
  if !literal ∧ e.lineBreak = some '\n' ∧ !e.afterBlank ∧ !beforeBlank then
    if e.breaks.isEmpty then [' '] else e.breaks
  else e.lineBreak.toList ++ e.breaks

def blockLines? (literal : Bool) (indent : Nat) (e : BlockEnd) (text : List Char) (c : Cursor) :
    Option (List Char × BlockEnd × Cursor) :=
  if c.column ≠ indent then some (text.reverse, e, c)
  else match _hrest : c.rest with
    | [] => some (text.reverse, e, c)
    | ch :: _ =>
      let blank := isBlank ch
      let line := (c.advance 1).rest.takeWhile (!isBreak ·)
      let c₁ := (c.advance 1).skipLine
      let text := line.reverse ++ ch :: ((e.joined literal blank).reverse ++ text)
      match _hbreak : c₁.takeBreak? with
      | none => some (text.reverse, ⟨none, blank, []⟩, c₁)
      | some (b, c₂) =>
        match _hempty : emptyLines? indent [] 0 c₂ with
        | none => none
        | some (breaks, _, c₃) => blockLines? literal indent ⟨some b, blank, breaks⟩ text c₃
termination_by c.rest.length
decreasing_by
  have hbreaks : c₃.rest.length ≤ c₂.rest.length := emptyLines?_length _hempty
  have hbreak := Cursor.takeBreak?_length _hbreak
  have hline := Cursor.rest_skipWhile_length_le (c.advance 1) (!isBreak ·)
  simp only [Cursor.rest_advance, List.length_drop, _hrest, List.length_cons] at hline
  simp only [c₁, Cursor.skipLine] at hbreak
  simp only [_hrest, List.length_cons]
  omega

/-- A block scalar after its indicator, inside a collection at the column `parent`. -/
def blockScalar? (literal : Bool) (parent : Int) (c : Cursor) : Option (List Char × Cursor) := do
  let (header, c) ← BlockHeader.read? c
  let known := header.increment.map fun i => (max parent 0).toNat + i
  let (breaks, deepest, c) ← emptyLines? known [] 0 c
  let indent := known.getD (max (max deepest 1) (parent + 1).toNat)
  let (text, e, c) ← blockLines? literal indent ⟨none, false, breaks⟩ [] c
  let tail := match header.chomping with
    | .strip => []
    | .clip => e.lineBreak.toList
    | .keep => e.lineBreak.toList ++ e.breaks
  return (text ++ tail, c)

end LayeredSettings.Yaml
