import LayeredSettings.Proofs.Json.Lexeme

/-!
The text of a tree is read as the tokens of the tree.

What is written for a number or a word ends where a character follows that belongs to no number and
to no word. All text of a tree is followed by such a character or by nothing.
-/

namespace LayeredSettings.Json

/-- What may follow a number or a word. -/
def Separated (rest : List Char) : Prop :=
  ∀ c ∈ rest.head?, isNumeric c = false ∧ isWordly c = false

theorem separated_nil : Separated [] := by
  rintro _ ⟨⟩

/-- The characters that are tokens by themselves. -/
inductive Punctuation : Char → Token → Prop
  | openArray : Punctuation '[' .openArray
  | closeArray : Punctuation ']' .closeArray
  | openObject : Punctuation '{' .openObject
  | closeObject : Punctuation '}' .closeObject
  | comma : Punctuation ',' .comma
  | colon : Punctuation ':' .colon

theorem Punctuation.separated {c : Char} {token : Token} (mark : Punctuation c token)
    (rest : List Char) : Separated (c :: rest) := by
  rintro _ ⟨⟩
  cases mark <;> exact ⟨by decide, by decide⟩

theorem takeWhile_append_of_ends {p : Char → Bool} {cs rest : List Char}
    (all : ∀ c ∈ cs, p c = true) (ends : ∀ c ∈ rest.head?, p c = false) :
    (cs ++ rest).takeWhile p = cs := by
  rw [List.takeWhile_append_of_pos all]
  cases rest with
  | nil => simp
  | cons c rest => simp [ends c rfl]

theorem dropWhile_append_of_ends {p : Char → Bool} {cs rest : List Char}
    (all : ∀ c ∈ cs, p c = true) (ends : ∀ c ∈ rest.head?, p c = false) :
    (cs ++ rest).dropWhile p = rest := by
  rw [List.dropWhile_append_of_pos all]
  cases rest with
  | nil => simp
  | cons c rest => simp [ends c rfl]

theorem not_isBlank_of_isNumeric {c : Char} (numeric : isNumeric c = true) :
    ¬ isBlank c = true := by
  intro blank
  simp only [isBlank, Bool.or_eq_true, decide_eq_true_eq] at blank
  rcases blank with ((rfl | rfl) | rfl) | rfl <;> cases numeric

theorem tokens?_nil : tokens? [] = some [] := by
  rw [tokens?]

theorem Punctuation.tokens? {c : Char} {token : Token} (mark : Punctuation c token)
    (rest : List Char) : tokens? (c :: rest) = (tokens? rest).map (token :: ·) := by
  rw [tokens?.eq_def]
  cases mark <;> rfl

theorem tokens?_string (s : String) (rest : List Char) :
    tokens? ((quote s).toList ++ rest) = (tokens? rest).map (.string s :: ·) := by
  have written : (quote s).toList ++ rest = '"' :: (s.toList.flatMap escape ++ '"' :: rest) := by
    simp [quote]
  have read := readString?_flatMap_escape s.toList rest
  rw [written, tokens?.eq_def]
  simp only [show isBlank '"' = false from rfl, show isNumeric '"' = false from rfl,
    show isWordly '"' = false from rfl, Bool.false_eq_true, if_false]
  split
  · rename_i found
    rw [read] at found
    cases found
    rw [String.ofList_toList]
  · rename_i missing
    rw [read] at missing
    cases missing

theorem tokens?_number {cs rest : List Char} {token : Token} (nonempty : cs ≠ [])
    (numeric : ∀ c ∈ cs, isNumeric c = true) (read : Token.ofNumber? cs = some token)
    (separated : Separated rest) : tokens? (cs ++ rest) = (tokens? rest).map (token :: ·) := by
  obtain ⟨c, cs, rfl⟩ := List.exists_cons_of_ne_nil nonempty
  obtain ⟨first, later⟩ := List.forall_mem_cons.1 numeric
  have ends : ∀ c ∈ rest.head?, isNumeric c = false := fun c member => (separated c member).1
  rw [List.cons_append, tokens?.eq_def]
  simp only
  rw [if_neg (not_isBlank_of_isNumeric first), if_pos first, takeWhile_append_of_ends later ends,
    dropWhile_append_of_ends later ends, read]
  rfl

theorem tokens?_word {c : Char} {cs rest : List Char} {token : Token}
    (notBlank : ¬ isBlank c = true) (notNumeric : ¬ isNumeric c = true)
    (wordly : (c :: cs).all isWordly = true) (read : Token.ofWord? (c :: cs) = some token)
    (separated : Separated rest) :
    tokens? (c :: cs ++ rest) = (tokens? rest).map (token :: ·) := by
  obtain ⟨first, later⟩ := List.forall_mem_cons.1 (List.all_eq_true.1 wordly)
  have ends : ∀ c ∈ rest.head?, isWordly c = false := fun c member => (separated c member).2
  rw [List.cons_append, tokens?.eq_def]
  simp only
  rw [if_neg notBlank, if_neg notNumeric, if_pos first, takeWhile_append_of_ends later ends,
    dropWhile_append_of_ends later ends, read]
  rfl

theorem tokens?_null {rest : List Char} (separated : Separated rest) :
    tokens? ("null".toList ++ rest) = (tokens? rest).map (.null :: ·) :=
  tokens?_word (by decide) (by decide) rfl rfl separated

theorem tokens?_bool (b : Bool) {rest : List Char} (separated : Separated rest) :
    tokens? ((if b then "true" else "false").toList ++ rest) =
      (tokens? rest).map (.bool b :: ·) := by
  cases b with
  | true => exact tokens?_word (by decide) (by decide) rfl rfl separated
  | false => exact tokens?_word (by decide) (by decide) rfl rfl separated

mutual
/-- Trees that are written so that they can be read as they are: no floating-point numbers, and what
is called negative is negative. -/
def Exact : Json → Prop
  | .negative n => n < 0
  | .float _ => False
  | .array items => ExactItems items
  | .object entries => ExactEntries entries
  | _ => True

def ExactItems : List Json → Prop
  | [] => True
  | j :: rest => j.Exact ∧ ExactItems rest

def ExactEntries : List (String × Json) → Prop
  | [] => True
  | (_, j) :: rest => j.Exact ∧ ExactEntries rest
end

mutual
/-- The tokens of a tree in order. -/
def tokens : Json → List Token
  | .null => [.null]
  | .bool b => [.bool b]
  | .unsigned n => [.unsigned n]
  | .negative n => [.negative n]
  | .float x => [.float x]
  | .string s => [.string s]
  | .array items => .openArray :: tokensOfItems items ++ [.closeArray]
  | .object entries => .openObject :: tokensOfEntries entries ++ [.closeObject]

def tokensOfItems : List Json → List Token
  | [] => []
  | [j] => j.tokens
  | j :: rest => j.tokens ++ .comma :: tokensOfItems rest

def tokensOfEntries : List (String × Json) → List Token
  | [] => []
  | [(k, j)] => .string k :: .colon :: j.tokens
  | (k, j) :: rest => .string k :: .colon :: j.tokens ++ .comma :: tokensOfEntries rest
end

mutual
theorem tokens?_text {j : Json} (exact : j.Exact) {rest : List Char} (separated : Separated rest) :
    tokens? (j.text.toList ++ rest) = (tokens? rest).map (j.tokens ++ ·) := by
  cases j with
  | null => exact tokens?_null separated
  | bool b => exact tokens?_bool b separated
  | unsigned n =>
    apply tokens?_number _ _ (ofNumber?_unsigned n) separated
    · rw [toList_toString_nat]
      exact numeral_ne_nil _ _
    · rw [toList_toString_nat]
      exact fun _ => isNumeric_of_mem_numeral
  | negative n =>
    have negative : n.toInt < 0 := Int64.lt_iff_toInt_lt.1 exact
    apply tokens?_number _ _ (ofNumber?_negative exact) separated
    · rw [toList_toString_int negative]
      exact numeral_ne_nil _ _
    · rw [toList_toString_int negative]
      exact fun _ => isNumeric_of_mem_numeral
  | float x => exact exact.elim
  | string s => exact tokens?_string s rest
  | array items =>
    have written : (text (.array items)).toList ++ rest =
        '[' :: ((itemsText items).toList ++ ']' :: rest) := by
      simp [text]
    rw [written, Punctuation.openArray.tokens?,
      tokens?_itemsText exact (Punctuation.closeArray.separated rest),
      Punctuation.closeArray.tokens?]
    simp [tokens, Function.comp_def]
  | object entries =>
    have written : (text (.object entries)).toList ++ rest =
        '{' :: ((entriesText entries).toList ++ '}' :: rest) := by
      simp [text]
    rw [written, Punctuation.openObject.tokens?,
      tokens?_entriesText exact (Punctuation.closeObject.separated rest),
      Punctuation.closeObject.tokens?]
    simp [tokens, Function.comp_def]

theorem tokens?_itemsText {items : List Json} (exact : ExactItems items) {rest : List Char}
    (separated : Separated rest) :
    tokens? ((itemsText items).toList ++ rest) = (tokens? rest).map (tokensOfItems items ++ ·) := by
  cases items with
  | nil => simp [itemsText, tokensOfItems]
  | cons j later =>
    cases later with
    | nil => exact tokens?_text exact.1 separated
    | cons k later =>
      have written : (itemsText (j :: k :: later)).toList ++ rest =
          (text j).toList ++ ',' :: ((itemsText (k :: later)).toList ++ rest) := by
        simp [itemsText]
      rw [written, tokens?_text exact.1 (Punctuation.comma.separated _), Punctuation.comma.tokens?,
        tokens?_itemsText exact.2 separated]
      simp [tokensOfItems, Function.comp_def]

theorem tokens?_entriesText {entries : List (String × Json)} (exact : ExactEntries entries)
    {rest : List Char} (separated : Separated rest) :
    tokens? ((entriesText entries).toList ++ rest) =
      (tokens? rest).map (tokensOfEntries entries ++ ·) := by
  cases entries with
  | nil => simp [entriesText, tokensOfEntries]
  | cons e later =>
    obtain ⟨k, j⟩ := e
    cases later with
    | nil =>
      have written : (entriesText [(k, j)]).toList ++ rest =
          (quote k).toList ++ ':' :: ((text j).toList ++ rest) := by
        simp [entriesText]
      rw [written, tokens?_string, Punctuation.colon.tokens?, tokens?_text exact.1 separated]
      simp [tokensOfEntries, Function.comp_def]
    | cons e later =>
      have written : (entriesText ((k, j) :: e :: later)).toList ++ rest =
          (quote k).toList ++ ':' :: ((text j).toList ++
            ',' :: ((entriesText (e :: later)).toList ++ rest)) := by
        simp [entriesText]
      rw [written, tokens?_string, Punctuation.colon.tokens?,
        tokens?_text exact.1 (Punctuation.comma.separated _), Punctuation.comma.tokens?,
        tokens?_entriesText exact.2 separated]
      simp [tokensOfEntries, Function.comp_def]
end

/-- The text of a tree by itself is read as its tokens. -/
theorem tokens?_toList_text {j : Json} (exact : j.Exact) :
    tokens? j.text.toList = some j.tokens := by
  have read := tokens?_text exact separated_nil
  rwa [List.append_nil, tokens?_nil, Option.map_some, List.append_nil] at read

end LayeredSettings.Json
