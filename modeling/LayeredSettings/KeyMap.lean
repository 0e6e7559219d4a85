/-!
Maps from strings, written as lists of entries in increasing order of the keys.

Strings are compared code point by code point, which is also the order of their UTF-8 bytes. A map
that is built by `insert` alone has each key once, so equal maps are equal lists. Decoders and
conversions make no other maps, at any depth (`Value.Canonical`).
-/

namespace LayeredSettings

/-- A map from strings: entries in increasing order of the keys. -/
abbrev KeyMap (α : Type) := List (String × α)

namespace KeyMap

variable {α β : Type}

/-- The keys increase strictly; in particular none occurs twice. -/
def Ordered (m : KeyMap α) : Prop := m.Pairwise (fun a b => a.1 < b.1)

def get? : KeyMap α → String → Option α
  | [], _ => none
  | (k, v) :: rest, key => if k = key then some v else get? rest key

/-- Sets the value under a key; an earlier value under the same key is replaced. -/
def insert : KeyMap α → String → α → KeyMap α
  | [], key, value => [(key, value)]
  | (k, v) :: rest, key, value =>
    if key < k then (key, value) :: (k, v) :: rest
    else if key = k then (key, value) :: rest
    else (k, v) :: insert rest key value

/-- Of several entries with one key the last one counts. -/
def ofList (entries : List (String × α)) : KeyMap α :=
  entries.foldl (fun m e => insert m e.1 e.2) []

def erase : KeyMap α → String → KeyMap α
  | [], _ => []
  | (k, v) :: rest, key => if k = key then rest else (k, v) :: erase rest key

def keys (m : KeyMap α) : List String := m.map Prod.fst

def mapValues (f : α → β) (m : KeyMap α) : KeyMap β := m.map fun e => (e.1, f e.2)

@[simp] theorem get?_nil (key : String) : get? ([] : KeyMap α) key = none := rfl

theorem get?_cons (k : String) (v : α) (rest : KeyMap α) (key : String) :
    get? ((k, v) :: rest) key = if k = key then some v else get? rest key := rfl

theorem get?_insert (m : KeyMap α) (key : String) (value : α) (other : String) :
    get? (insert m key value) other = if key = other then some value else get? m other := by
  induction m with
  | nil => simp [insert, get?]
  | cons e rest ih =>
    obtain ⟨k, v⟩ := e
    by_cases hlt : key < k
    · simp [insert, hlt, get?]
    · by_cases heq : key = k
      · subst heq
        by_cases ho : key = other <;> simp [insert, get?, ho]
      · by_cases hk : k = other
        · subst hk
          simp [insert, hlt, heq, get?]
        · simp [insert, hlt, heq, get?, hk, ih]

theorem mem_insert {m : KeyMap α} {key : String} {value : α} {e : String × α}
    (h : e ∈ insert m key value) : e = (key, value) ∨ e ∈ m := by
  induction m with
  | nil => simpa [insert] using h
  | cons d rest ih =>
    obtain ⟨k, v⟩ := d
    unfold insert at h
    split at h
    · simpa using h
    · split at h
      · rcases List.mem_cons.1 h with rfl | h
        · exact .inl rfl
        · exact .inr (List.mem_cons_of_mem _ h)
      · rcases List.mem_cons.1 h with rfl | h
        · exact .inr (List.mem_cons_self ..)
        · exact (ih h).imp_right (List.mem_cons_of_mem _)

theorem Ordered.insert {m : KeyMap α} (h : Ordered m) (key : String) (value : α) :
    Ordered (KeyMap.insert m key value) := by
  induction m with
  | nil => simp [KeyMap.insert, Ordered]
  | cons d rest ih =>
    obtain ⟨k, v⟩ := d
    obtain ⟨hhead, hrest⟩ := List.pairwise_cons.1 h
    unfold KeyMap.insert
    split
    · rename_i hlt
      refine List.pairwise_cons.2 ⟨?_, h⟩
      intro e he
      rcases List.mem_cons.1 he with rfl | he
      · exact hlt
      · exact String.lt_trans hlt (hhead e he)
    · rename_i hlt
      split
      · rename_i heq
        subst heq
        exact List.pairwise_cons.2 ⟨hhead, hrest⟩
      · rename_i hne
        refine List.pairwise_cons.2 ⟨?_, ih hrest⟩
        intro e he
        rcases mem_insert he with rfl | he
        · exact Decidable.byContradiction fun hge =>
            hne (String.le_antisymm (String.not_lt.1 hge) (String.not_lt.1 hlt))
        · exact hhead e he

theorem ordered_ofList (entries : List (String × α)) : Ordered (ofList entries) := by
  suffices h : ∀ (m : KeyMap α), Ordered m →
      Ordered (entries.foldl (fun m e => insert m e.1 e.2) m) from h [] List.Pairwise.nil
  induction entries with
  | nil => exact fun _ h => h
  | cons e rest ih => exact fun m h => ih _ (h.insert e.1 e.2)

end KeyMap
end LayeredSettings
