import LayeredSettings.Text.Escape

/-!
Characters, line ends and strings of TOML text.

A line ends in a line feed, which a carriage return may precede. The functions here take what is
left of the text and return what is left after them.
-/

namespace LayeredSettings.Toml

def isBlank (c : Char) : Bool := c = ' ' || c = '\t'

/-- Of the control characters only the tab may stand in comments and strings. -/
def isPlain (c : Char) : Bool := c = '\t' || ('\x20' ≤ c && c ≠ '\x7f')

def skipBlanks (cs : List Char) : List Char := cs.dropWhile isBlank

def newline? : List Char → Option (List Char)
  | '\n' :: cs => some cs
  | '\r' :: '\n' :: cs => some cs
  | _ => none

/-- Past a comment, if one stands here. -/
def skipComment : List Char → List Char
  | '#' :: cs => cs.dropWhile isPlain
  | cs => cs

/-- Past the end of a line on which nothing but a comment is left. -/
def endLine? (cs : List Char) : Option (List Char) :=
  match skipComment (skipBlanks cs) with
  | [] => some []
  | cs => newline? cs

/-- Past blanks and line ends. -/
def skipEmptyLines : List Char → List Char
  | '\r' :: '\n' :: cs => skipEmptyLines cs
  | c :: cs => if isBlank c || c = '\n' then skipEmptyLines cs else c :: cs
  | [] => []

theorem newline?_length {cs rest : List Char} (h : newline? cs = some rest) :
    rest.length < cs.length := by
  unfold newline? at h
  split at h
  · obtain rfl := Option.some.inj h
    simp
  · obtain rfl := Option.some.inj h
    simp only [List.length_cons]
    omega
  · simp at h

theorem skipComment_length_le (cs : List Char) : (skipComment cs).length ≤ cs.length := by
  unfold skipComment
  split
  · exact Nat.le_succ_of_le (List.dropWhile_sublist ..).length_le
  · exact Nat.le_refl _

theorem skipBlanks_length_le (cs : List Char) : (skipBlanks cs).length ≤ cs.length :=
  (List.dropWhile_sublist ..).length_le

theorem skipEmptyLines_length_le (cs : List Char) : (skipEmptyLines cs).length ≤ cs.length := by
  fun_induction skipEmptyLines cs with
  | case1 cs ih =>
    simp only [List.length_cons]
    omega
  | case2 c cs _ _ ih => exact Nat.le_succ_of_le ih
  | case3 => exact Nat.le_refl _
  | case4 => exact Nat.le_refl _

/-- Past blanks, line ends and comments that end their lines. -/
def skipLines (cs : List Char) : List Char :=
  match _h : newline? (skipComment (skipBlanks cs)) with
  | some next => skipLines next
  | none => skipBlanks cs
termination_by cs.length
decreasing_by
  have := newline?_length _h
  have := skipComment_length_le (skipBlanks cs)
  have := skipBlanks_length_le cs
  omega

/-- The character that an escape stands for, and the length of the escape without its backslash. -/
def escape? : List Char → Option (Char × Nat)
  | 'b' :: _ => some ('\x08', 1)
  | 't' :: _ => some ('\t', 1)
  | 'n' :: _ => some ('\n', 1)
  | 'f' :: _ => some ('\x0c', 1)
  | 'r' :: _ => some ('\r', 1)
  | '"' :: _ => some ('"', 1)
  | '\\' :: _ => some ('\\', 1)
  | 'u' :: digits => (Text.hexEscape? digits 4).map (·, 5)
  | 'U' :: digits => (Text.hexEscape? digits 8).map (·, 9)
  | _ => none

def withChar (c : Char) (r : List Char × List Char) : List Char × List Char := (c :: r.1, r.2)

/-- A string on one line after its opening quote. Double quotes allow escapes. -/
def line? (quote : Char) : List Char → Option (List Char × List Char)
  | [] => none
  | c :: rest =>
    if c = quote then some ([], rest)
    else if c = '\\' ∧ quote = '"' then
      match escape? rest with
      | some (e, n) => (line? quote (rest.drop n)).map (withChar e)
      | none => none
    else if isPlain c then (line? quote rest).map (withChar c)
    else none
termination_by cs => cs.length
decreasing_by all_goals simp only [List.length_cons, List.length_drop]; omega

/-- A string over several lines after its opening quotes. Up to two quotes are content, also right
before the three that close the string. In double quotes a backslash at the end of a line skips to
the next character that is no white space. -/
def lines? (quote : Char) : List Char → Option (List Char × List Char)
  | [] => none
  | c :: rest =>
    if c = quote then
      let more := (rest.takeWhile (· = quote)).length
      if more < 2 then
        (lines? quote (rest.drop more)).map fun r => (List.replicate (more + 1) quote ++ r.1, r.2)
      else if more < 5 then some (List.replicate (more - 2) quote, rest.drop more)
      else none
    else if c = '\\' ∧ quote = '"' then
      match _h : newline? (skipBlanks rest) with
      | some next => lines? quote (skipEmptyLines next)
      | none =>
        match escape? rest with
        | some (e, n) => (lines? quote (rest.drop n)).map (withChar e)
        | none => none
    else if isPlain c then (lines? quote rest).map (withChar c)
    else
      match _h : newline? (c :: rest) with
      | some next => (lines? quote next).map (withChar '\n')
      | none => none
termination_by cs => cs.length
decreasing_by
  all_goals simp only [List.length_cons, List.length_drop]
  any_goals omega
  · have := newline?_length _h
    have := skipBlanks_length_le rest
    have := skipEmptyLines_length_le next
    omega
  · simpa using newline?_length _h

/-- A string of any kind. A line end right after three opening quotes does not count. -/
def string? : List Char → Option (List Char × List Char)
  | '"' :: '"' :: '"' :: cs => lines? '"' ((newline? cs).getD cs)
  | '"' :: cs => line? '"' cs
  | '\'' :: '\'' :: '\'' :: cs => lines? '\'' ((newline? cs).getD cs)
  | '\'' :: cs => line? '\'' cs
  | _ => none

end LayeredSettings.Toml
