import LayeredSettings.Json.Reader
import LayeredSettings.Proofs.Decimal.Finite

/-!
Readers of JSON text that build different things.

A function that respects every operation of two builders takes what one reader builds to what the
other one builds, and neither accepts a text that the other one refuses. Of floating-point numbers
only the finite ones have to be respected, since no text has others.
-/

namespace LayeredSettings

namespace KeyMap

variable {α β : Type}

theorem insert_mapValues (f : α → β) (m : KeyMap α) (key : String) (value : α) :
    insert (mapValues f m) key (f value) = mapValues f (insert m key value) := by
  induction m with
  | nil => rfl
  | cons e rest ih =>
    obtain ⟨k, v⟩ := e
    have unfolded : mapValues f ((k, v) :: rest) = (k, f v) :: mapValues f rest := rfl
    rw [unfolded, insert, insert]
    split
    · rfl
    · split
      · rfl
      · rw [ih]
        rfl

/-- Which of several entries with one key counts does not depend on the values. -/
theorem ofList_mapValues (f : α → β) (entries : List (String × α)) :
    ofList (mapValues f entries) = mapValues f (ofList entries) := by
  suffices from_any : ∀ m : KeyMap α,
      (mapValues f entries).foldl (fun m e => insert m e.1 e.2) (mapValues f m) =
        mapValues f (entries.foldl (fun m e => insert m e.1 e.2) m) from from_any []
  induction entries with
  | nil => exact fun _ => rfl
  | cons e rest ih =>
    intro m
    have unfolded : mapValues f (e :: rest) = (e.1, f e.2) :: mapValues f rest := rfl
    rw [unfolded, List.foldl_cons, List.foldl_cons, insert_mapValues, ih]

theorem ordered_mapValues {m : KeyMap α} {f : α → β} : Ordered (mapValues f m) ↔ Ordered m :=
  List.pairwise_map

end KeyMap

namespace Json

/-! ## Numbers of a text -/

def Token.Finite : Token → Prop
  | .float x => x.isFinite = true
  | _ => True

theorem Token.finite_ofWhole (isNegative : Bool) (n : UInt64) : (ofWhole isNegative n).Finite := by
  unfold ofWhole
  split
  · trivial
  · split
    · exact Decimal.isFinite_neg (Decimal.below_toFloat n).isFinite
    · trivial

theorem Token.finite_of_ofNumber? {cs : List Char} {t : Token} (read : ofNumber? cs = some t) :
    t.Finite := by
  unfold ofNumber? at read
  split at read
  rename_i isNegative digits _
  obtain ⟨parts, -, read⟩ := Option.bind_eq_some_iff.1 read
  obtain ⟨_, -, read⟩ := Option.bind_eq_some_iff.1 read
  obtain ⟨_, -, read⟩ := Option.bind_eq_some_iff.1 read
  simp only at read
  split at read
  · cases read
    exact finite_ofWhole _ _
  · obtain ⟨x, scaled, read⟩ := Option.bind_eq_some_iff.1 read
    cases read
    have finite := Decimal.isFinite_of_scaled? scaled
    cases isNegative with
    | true => exact Decimal.isFinite_neg finite
    | false => exact finite

theorem Token.finite_of_ofWord? {cs : List Char} {t : Token} (read : ofWord? cs = some t) :
    t.Finite := by
  unfold ofWord? at read
  split at read <;> cases read <;> trivial

theorem finite_of_map_cons {t : Token} {rest? : Option (List Token)} {ts : List Token}
    (first : t.Finite) (later : ∀ {ts}, rest? = some ts → ∀ t ∈ ts, t.Finite)
    (read : rest?.map (t :: ·) = some ts) : ∀ t ∈ ts, t.Finite := by
  obtain ⟨rest, found, rfl⟩ := Option.map_eq_some_iff.1 read
  exact List.forall_mem_cons.2 ⟨first, later found⟩

/-- A number that is too large makes the text invalid, so what is left are finite numbers. -/
theorem finite_of_tokens? {cs : List Char} {ts : List Token} (read : tokens? cs = some ts) :
    ∀ t ∈ ts, t.Finite := by
  fun_induction tokens? cs generalizing ts with
  | case1 =>
    cases read
    exact List.forall_mem_nil _
  | case2 c rest blank ih => exact ih read
  | case3 c rest _ numeric ih =>
    obtain ⟨t, number, read⟩ := Option.bind_eq_some_iff.1 read
    exact finite_of_map_cons (Token.finite_of_ofNumber? number) ih read
  | case4 c rest _ _ wordly ih =>
    obtain ⟨t, word, read⟩ := Option.bind_eq_some_iff.1 read
    exact finite_of_map_cons (Token.finite_of_ofWord? word) ih read
  | case5 _ _ _ _ ih | case6 _ _ _ _ ih | case7 _ _ _ _ ih | case8 _ _ _ _ ih
  | case9 _ _ _ _ ih | case10 _ _ _ _ ih | case11 _ _ _ _ _ _ _ ih =>
    refine finite_of_map_cons ?_ ih read
    trivial
  | case12 => cases read
  | case13 => cases read

/-! ## What is built -/

section
variable {α β : Type}

/-- A function that respects the operations of two builders. -/
structure Builder.Respected (b : Builder α) (c : Builder β) (f : α → β) : Prop where
  null : f b.null = c.null
  bool : ∀ x, f (b.bool x) = c.bool x
  unsigned : ∀ n, f (b.unsigned n) = c.unsigned n
  negative : ∀ n, f (b.negative n) = c.negative n
  float : ∀ x, x.isFinite = true → f (b.float x) = c.float x
  string : ∀ s, f (b.string s) = c.string s
  array : ∀ items, f (b.array items) = c.array (items.map f)
  object : ∀ entries, f (b.object entries) = c.object (KeyMap.mapValues f entries)

def Open.map (f : α → β) : Open α → Open β
  | .array items => .array (items.map f)
  | .object entries key => .object (KeyMap.mapValues f entries) key

def State.map (f : α → β) : State α → State β
  | .value stack => .value (stack.map (Open.map f))
  | .firstItem stack => .firstItem (stack.map (Open.map f))
  | .firstKey stack => .firstKey (stack.map (Open.map f))
  | .key stack entries => .key (stack.map (Open.map f)) (KeyMap.mapValues f entries)
  | .colon stack entries k => .colon (stack.map (Open.map f)) (KeyMap.mapValues f entries) k
  | .afterItem stack items => .afterItem (stack.map (Open.map f)) (items.map f)
  | .afterEntry stack entries => .afterEntry (stack.map (Open.map f)) (KeyMap.mapValues f entries)
  | .complete result => .complete (f result)

theorem map_deliver (f : α → β) (v : α) (stack : List (Open α)) :
    (deliver v stack).map f = deliver (f v) (stack.map (Open.map f)) := by
  cases stack with
  | nil => rfl
  | cons innermost stack => cases innermost <;> rfl

variable {b : Builder α} {c : Builder β} {f : α → β}

theorem start_map (h : b.Respected c f) {t : Token} (finite : t.Finite) (stack : List (Open α)) :
    start c (stack.map (Open.map f)) t = (start b stack t).map (State.map f) := by
  cases t with
  | null => rw [start, start, Option.map_some, map_deliver, h.null]
  | bool x => rw [start, start, Option.map_some, map_deliver, h.bool]
  | unsigned n => rw [start, start, Option.map_some, map_deliver, h.unsigned]
  | negative n => rw [start, start, Option.map_some, map_deliver, h.negative]
  | float x => rw [start, start, Option.map_some, map_deliver, h.float x finite]
  | string s => rw [start, start, Option.map_some, map_deliver, h.string]
  | openArray =>
    rw [start, start, List.length_map]
    split <;> rfl
  | openObject =>
    rw [start, start, List.length_map]
    split <;> rfl
  | _ => rfl

/-- Both readers take the same steps. -/
theorem step_map (h : b.Respected c f) {t : Token} (finite : t.Finite) (s : State α) :
    step c (s.map f) t = (step b s t).map (State.map f) := by
  cases s with
  | value stack => exact start_map h finite stack
  | firstItem stack =>
    cases t with
    | closeArray =>
      rw [State.map, step, step, Option.map_some, map_deliver, h.array]
      rfl
    | _ => exact start_map h finite (.array [] :: stack)
  | firstKey stack =>
    cases t with
    | closeObject =>
      rw [State.map, step, step, Option.map_some, map_deliver, h.object]
      rfl
    | _ => rfl
  | key stack entries => cases t <;> rfl
  | colon stack entries key => cases t <;> rfl
  | afterItem stack items =>
    cases t with
    | closeArray =>
      rw [State.map, step, step, Option.map_some, map_deliver, h.array, List.map_reverse]
    | _ => rfl
  | afterEntry stack entries =>
    cases t with
    | closeObject =>
      rw [State.map, step, step, Option.map_some, map_deliver, h.object, KeyMap.mapValues,
        KeyMap.mapValues, List.map_reverse]
    | _ => rfl
  | complete result => cases t <;> rfl

theorem foldlM_step_map (h : b.Respected c f) {ts : List Token} (finite : ∀ t ∈ ts, t.Finite)
    (s : State α) :
    ts.foldlM (step c) (s.map f) = (ts.foldlM (step b) s).map (State.map f) := by
  induction ts generalizing s with
  | nil => rfl
  | cons t rest ih =>
    obtain ⟨first, later⟩ := List.forall_mem_cons.1 finite
    rw [List.foldlM_cons, List.foldlM_cons, step_map h first]
    cases step b s t with
    | none => rfl
    | some s => exact ih later s

/-- Two readers accept the same texts, and what one of them builds gives what the other one
builds. -/
theorem readWith?_map (h : b.Respected c f) (text : String) :
    readWith? c text = (readWith? b text).map f := by
  unfold readWith?
  cases read : tokens? text.toList with
  | none => rfl
  | some ts =>
    have run := foldlM_step_map h (finite_of_tokens? read) (.value [])
    have start : (State.value [] : State α).map f = .value [] := rfl
    rw [start] at run
    simp only [Option.bind_eq_bind, Option.bind_some, run]
    cases ts.foldlM (step b) (.value []) with
    | none => rfl
    | some s => cases s <;> rfl

end

end Json
end LayeredSettings
