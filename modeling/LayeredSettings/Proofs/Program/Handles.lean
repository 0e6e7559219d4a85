import LayeredSettings.Proofs.Program.Adherence

/-!
Which handles are held.

No name is held twice, so once a handle is dropped its name refers to nothing.
-/

namespace LayeredSettings

namespace KeyMap

variable {α : Type} {m : KeyMap α}

theorem get?_erase_of_ne {key other : String} (hne : key ≠ other) :
    (m.erase key).get? other = m.get? other := by
  induction m with
  | nil => rfl
  | cons e rest ih =>
    obtain ⟨k, v⟩ := e
    unfold erase
    split
    · rename_i same
      rw [get?_cons, if_neg fun h => hne (same ▸ h)]
    · rw [get?_cons, get?_cons, ih]

theorem Ordered.get?_erase_self (ordered : Ordered m) (key : String) :
    (m.erase key).get? key = none := by
  induction m with
  | nil => rfl
  | cons e rest ih =>
    obtain ⟨k, v⟩ := e
    obtain ⟨first, later⟩ := List.pairwise_cons.1 ordered
    unfold KeyMap.erase
    split
    · rename_i same
      subst same
      exact get?_eq_none_of_forall_lt first
    · rename_i other
      rw [get?_cons, if_neg other]
      exact ih later

theorem Ordered.erase (ordered : Ordered m) (key : String) : Ordered (m.erase key) := by
  induction m with
  | nil => exact ordered
  | cons e rest ih =>
    obtain ⟨k, v⟩ := e
    obtain ⟨first, later⟩ := List.pairwise_cons.1 ordered
    unfold KeyMap.erase
    split
    · exact later
    · exact List.pairwise_cons.2 ⟨fun d member => first d (mem_of_mem_erase member), ih later⟩

theorem insert_of_forall_lt {key : String} (h : ∀ e ∈ m, key < e.1) (value : α) :
    m.insert key value = (key, value) :: m := by
  cases m with
  | nil => rfl
  | cons e rest => exact if_pos (h e (List.mem_cons_self ..))

theorem Ordered.insert_erase (ordered : Ordered m) {key other : String} (hne : key ≠ other)
    (value : α) : (m.erase key).insert other value = (m.insert other value).erase key := by
  -- Wherever the new entry comes first, erasing passes over it.
  have kept (rest : KeyMap α) :
      KeyMap.erase ((other, value) :: rest) key = (other, value) :: KeyMap.erase rest key :=
    if_neg (Ne.symm hne)
  induction m with
  | nil => exact (kept []).symm
  | cons e rest ih =>
    obtain ⟨k, v⟩ := e
    obtain ⟨first, later⟩ := List.pairwise_cons.1 ordered
    by_cases before : other < k
    · have inserted : KeyMap.insert ((k, v) :: rest) other value =
          (other, value) :: (k, v) :: rest := if_pos before
      rw [inserted, kept]
      refine insert_of_forall_lt (fun e member => ?_) value
      rcases List.mem_cons.1 (mem_of_mem_erase member) with rfl | member
      · exact before
      · exact String.lt_trans before (first e member)
    · by_cases same : other = k
      · subst same
        have inserted : KeyMap.insert ((other, v) :: rest) other value =
            (other, value) :: rest := by
          simp [KeyMap.insert]
        rw [inserted, kept]
        simp [KeyMap.erase, Ne.symm hne, KeyMap.insert]
      · by_cases erased : k = key
        · subst erased
          simp [KeyMap.erase, KeyMap.insert, before, same]
        · simp [KeyMap.erase, KeyMap.insert, before, same, erased, ih later]

theorem erase_erase (key other : String) :
    (m.erase key).erase other = (m.erase other).erase key := by
  induction m with
  | nil => rfl
  | cons e rest ih =>
    obtain ⟨k, v⟩ := e
    by_cases first : k = key
    · by_cases second : k = other
      · rw [← first, ← second]
      · simp [erase, first, first ▸ second]
    · by_cases second : k = other
      · simp [erase, second, second ▸ first]
      · simp [erase, first, second, ih]

/-- Erasing an entry takes nothing away from the other values. -/
theorem any_erase {key : String} {value : α} (held : m.get? key = some value) {f : α → Bool}
    (other : f value = false) : (m.erase key).any (fun e => f e.2) = m.any fun e => f e.2 := by
  induction m with
  | nil => rfl
  | cons e rest ih =>
    obtain ⟨k, v⟩ := e
    rw [get?_cons] at held
    unfold erase
    split at held
    · rename_i same
      cases held
      rw [if_pos same, List.any_cons, other, Bool.false_or]
    · rename_i later
      rw [if_neg later, List.any_cons, List.any_cons, ih held]

end KeyMap

namespace Program

/-- Names of settings are held in order, each of them once. -/
theorem ordered_settings_effect {p : Program} (op : Operation)
    (ordered : p.names.settings.Ordered) : (op.effect p).names.settings.Ordered := by
  cases refers : op.refers with
  | false => exact (sameReferences_effect refers p).settings ▸ ordered
  | true =>
    cases op with
    | holdSettings name i => exact ordered.insert name i
    | dropSettings name => exact ordered.erase name
    | install installed => exact ordered
    | holdRegistry name i => exact ordered
    | _ => cases refers

theorem ordered_settings (run : List Action) : (ofRun run).names.settings.Ordered := by
  obtain ⟨t, same, -, kept⟩ := Terms.ok_after (I := fun p => p.names.settings.Ordered)
    (fun _ ordered _ => ordered_settings_effect _ ordered) (Terms.ok_start trivial) .nil run
    fun a _ => Terms.admits_free a
  rw [ofRun, ← same]
  exact kept

end Program
end LayeredSettings
