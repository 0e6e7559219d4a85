import LayeredSettings.Json.Reader
import LayeredSettings.Proofs.Json.Tokens

/-!
The reader builds from the text of a tree what the tree is folded to.

While the tokens of a tree pass by, the containers that were open before stay as they are. So the
reader comes out of the tokens with the folded tree delivered to the innermost of them, if there is
room for the containers of the tree itself.
-/

namespace LayeredSettings.Json

mutual
/-- How deep containers nest. -/
def depth : Json → Nat
  | .array items => depthOfItems items + 1
  | .object entries => depthOfEntries entries + 1
  | _ => 0

def depthOfItems : List Json → Nat
  | [] => 0
  | j :: rest => max j.depth (depthOfItems rest)

def depthOfEntries : List (String × Json) → Nat
  | [] => 0
  | (_, j) :: rest => max j.depth (depthOfEntries rest)
end

section
variable {α : Type} (b : Builder α)

theorem foldlM_step {s t : State α} {token : Token} (next : step b s token = some t)
    (rest : List Token) :
    (token :: rest).foldlM (step b) s = rest.foldlM (step b) t := by
  rw [List.foldlM_cons, next]
  rfl

theorem tokens_eq_cons (j : Json) : ∃ t ts, j.tokens = t :: ts ∧ t ≠ .closeArray := by
  cases j <;> exact ⟨_, _, rfl, nofun⟩

theorem tokensOfItems_eq_cons (j : Json) (later : List Json) :
    ∃ t ts, tokensOfItems (j :: later) = t :: ts ∧ t ≠ .closeArray := by
  obtain ⟨t, ts, first, other⟩ := tokens_eq_cons j
  cases later with
  | nil => exact ⟨t, ts, first, other⟩
  | cons k later =>
    refine ⟨t, ts ++ .comma :: tokensOfItems (k :: later), ?_, other⟩
    rw [tokensOfItems, first, List.cons_append]
    exact List.cons_ne_nil _ _

theorem tokensOfEntries_eq_cons (k : String) (j : Json) (later : List (String × Json)) :
    ∃ ts, tokensOfEntries ((k, j) :: later) = .string k :: ts := by
  cases later <;> exact ⟨_, rfl⟩

/-- An array that does not end at once is read like one that already has items. -/
theorem foldlM_firstItem (j : Json) (later : List Json) (stack : List (Open α))
    (rest : List Token) :
    (tokensOfItems (j :: later) ++ rest).foldlM (step b) (.firstItem stack) =
      (tokensOfItems (j :: later) ++ rest).foldlM (step b) (.value (.array [] :: stack)) := by
  obtain ⟨t, ts, first, other⟩ := tokensOfItems_eq_cons j later
  have same : step b (.firstItem stack) t = step b (.value (.array [] :: stack)) t := by
    cases t with
    | closeArray => exact absurd rfl other
    | _ => rfl
  rw [first, List.cons_append, List.foldlM_cons, List.foldlM_cons, same]

theorem foldlM_firstKey (k : String) (j : Json) (later : List (String × Json))
    (stack : List (Open α)) (rest : List Token) :
    (tokensOfEntries ((k, j) :: later) ++ rest).foldlM (step b) (.firstKey stack) =
      (tokensOfEntries ((k, j) :: later) ++ rest).foldlM (step b) (.key stack []) := by
  obtain ⟨ts, first⟩ := tokensOfEntries_eq_cons k j later
  rw [first]
  rfl

mutual
theorem foldlM_tokens (j : Json) {stack : List (Open α)}
    (room : stack.length + j.depth ≤ maxDepth) (rest : List Token) :
    (j.tokens ++ rest).foldlM (step b) (.value stack) =
      rest.foldlM (step b) (deliver (j.fold b) stack) := by
  cases j with
  | null => rfl
  | bool x => rfl
  | unsigned n => rfl
  | negative n => rfl
  | float x => rfl
  | string s => rfl
  | array items =>
    rw [depth] at room
    have opened : step b (.value stack) .openArray = some (.firstItem stack) :=
      if_pos (by omega)
    rw [tokens, List.append_assoc, List.cons_append, foldlM_step b opened]
    cases items with
    | nil => rfl
    | cons j later =>
      rw [foldlM_firstItem, List.singleton_append,
        foldlM_tokensOfItems (List.cons_ne_nil j later) (by omega)]
      rfl
  | object entries =>
    rw [depth] at room
    have opened : step b (.value stack) .openObject = some (.firstKey stack) :=
      if_pos (by omega)
    rw [tokens, List.append_assoc, List.cons_append, foldlM_step b opened]
    cases entries with
    | nil => rfl
    | cons e later =>
      obtain ⟨k, j⟩ := e
      rw [foldlM_firstKey, List.singleton_append,
        foldlM_tokensOfEntries (List.cons_ne_nil (k, j) later) (by omega)]
      rfl

/-- Items are put in front of the items before them, which were read in reverse. -/
theorem foldlM_tokensOfItems {items : List Json} (nonempty : items ≠ []) {stack : List (Open α)}
    {before : List α} (room : stack.length + (depthOfItems items + 1) ≤ maxDepth)
    (rest : List Token) :
    (tokensOfItems items ++ .closeArray :: rest).foldlM (step b) (.value (.array before :: stack)) =
      rest.foldlM (step b) (deliver (b.array (before.reverse ++ foldItems b items)) stack) := by
  cases items with
  | nil => exact absurd rfl nonempty
  | cons j later =>
    rw [depthOfItems] at room
    have inside : (Open.array before :: stack).length + j.depth ≤ maxDepth := by
      rw [List.length_cons]
      omega
    cases later with
    | nil =>
      have closed : step b (.afterItem stack (j.fold b :: before)) .closeArray =
          some (deliver (b.array (j.fold b :: before).reverse) stack) := rfl
      rw [tokensOfItems, foldlM_tokens j inside, deliver, foldlM_step b closed, List.reverse_cons,
        foldItems, foldItems]
    | cons k later =>
      have goesOn : step b (.afterItem stack (j.fold b :: before)) .comma =
          some (.value (.array (j.fold b :: before) :: stack)) := rfl
      have split : tokensOfItems (j :: k :: later) =
        j.tokens ++ .comma :: tokensOfItems (k :: later) := rfl
      rw [split, List.append_assoc, foldlM_tokens j inside, deliver, List.cons_append,
        foldlM_step b goesOn, foldlM_tokensOfItems (List.cons_ne_nil k later) (by omega),
        List.reverse_cons, List.append_assoc, List.singleton_append, ← foldItems]

theorem foldlM_tokensOfEntries {entries : List (String × Json)} (nonempty : entries ≠ [])
    {stack : List (Open α)} {before : List (String × α)}
    (room : stack.length + (depthOfEntries entries + 1) ≤ maxDepth) (rest : List Token) :
    (tokensOfEntries entries ++ .closeObject :: rest).foldlM (step b) (.key stack before) =
      rest.foldlM (step b)
        (deliver (b.object (before.reverse ++ foldEntries b entries)) stack) := by
  cases entries with
  | nil => exact absurd rfl nonempty
  | cons e later =>
    obtain ⟨k, j⟩ := e
    rw [depthOfEntries] at room
    have inside : (Open.object before k :: stack).length + j.depth ≤ maxDepth := by
      rw [List.length_cons]
      omega
    have key : step b (.key stack before) (.string k) = some (.colon stack before k) := rfl
    have colon : step b (.colon stack before k) .colon =
      some (.value (.object before k :: stack)) := rfl
    cases later with
    | nil =>
      have closed : step b (.afterEntry stack ((k, j.fold b) :: before)) .closeObject =
          some (deliver (b.object ((k, j.fold b) :: before).reverse) stack) := rfl
      rw [tokensOfEntries, List.cons_append, List.cons_append, foldlM_step b key,
        foldlM_step b colon, foldlM_tokens j inside, deliver, foldlM_step b closed,
        List.reverse_cons, foldEntries, foldEntries]
    | cons e later =>
      have goesOn : step b (.afterEntry stack ((k, j.fold b) :: before)) .comma =
          some (.key stack ((k, j.fold b) :: before)) := rfl
      have split : tokensOfEntries ((k, j) :: e :: later) =
        .string k :: .colon :: j.tokens ++ .comma :: tokensOfEntries (e :: later) := rfl
      rw [split]
      simp only [List.cons_append, List.append_assoc]
      rw [foldlM_step b key, foldlM_step b colon, foldlM_tokens j inside, deliver,
        foldlM_step b goesOn, foldlM_tokensOfEntries (List.cons_ne_nil e later) (by omega),
        List.reverse_cons, List.append_assoc, List.singleton_append, ← foldEntries]
end

/-- Nothing of the tree is lost on the way through its text. -/
theorem readWith?_text {j : Json} (exact : j.Exact) (shallow : j.depth ≤ maxDepth) :
    readWith? b j.text = some (j.fold b) := by
  have room : ([] : List (Open α)).length + j.depth ≤ maxDepth := by
    rwa [List.length_nil, Nat.zero_add]
  have read := foldlM_tokens b j room []
  rw [List.append_nil] at read
  rw [readWith?, tokens?_toList_text exact, Option.bind_eq_bind, Option.bind_some, read]
  rfl

end
end LayeredSettings.Json
