import LayeredSettings.Proofs.Document.Closed

/-!
Which offence is reported of a list that is no document.

Elements are looked at from the left. Each has to be a layer by itself, and metadata has to come
last. The first element that offends is reported with its index and its text, whatever follows it.
Only if no element offends is the end of the list looked at.
-/

namespace LayeredSettings

/-- The index of the element that a fault is about. -/
def Fault.index? : Fault → Option Nat
  | .layer index _ _ => some index
  | _ => none

namespace Document

/-- What an element does wrong in front of other ones. -/
inductive Offends (v : Value) (after : List Value) : LayerFault → Prop
  | unreadable {cause : LayerFault} (refused : Layer.ofValue v = .error cause) :
      Offends v after cause
  | misplaced {m : Metadata} (read : Reads v (.metadata m)) (more : after ≠ []) :
      Offends v after .misplacedMetadata

namespace Offends

variable {v : Value} {after later : List Value} {cause : LayerFault}

theorem iff_of_error {reason : LayerFault} (refused : Layer.ofValue v = .error reason) :
    Offends v after cause ↔ cause = reason := by
  constructor
  · intro offends
    cases offends with
    | unreadable again =>
      rw [refused] at again
      cases again
      rfl
    | misplaced read _ =>
      rw [Reads, refused] at read
      cases read
  · rintro rfl
    exact .unreadable refused

theorem not_of_data {l : DataLayer} (read : Reads v (.data l)) : ¬ Offends v after cause := by
  intro offends
  cases offends with
  | unreadable refused =>
    rw [Reads, refused] at read
    cases read
  | misplaced again _ =>
    rw [Reads, again] at read
    cases read

theorem iff_of_metadata {m : Metadata} (read : Reads v (.metadata m)) :
    Offends v after cause ↔ after ≠ [] ∧ cause = .misplacedMetadata := by
  constructor
  · intro offends
    cases offends with
    | unreadable refused =>
      rw [Reads, refused] at read
      cases read
    | misplaced _ more => exact ⟨more, rfl⟩
  · rintro ⟨more, rfl⟩
    exact .misplaced read more

/-- What follows an offending element does not matter, except that metadata is in its place if
nothing follows it. -/
theorem before (offends : Offends v after cause)
    (more : (∃ m, Reads v (.metadata m)) → later ≠ []) : Offends v later cause := by
  cases offends with
  | unreadable refused => exact .unreadable refused
  | misplaced read _ => exact .misplaced read (more ⟨_, read⟩)

end Offends

section
variable {index : Nat} {v : Value} {rest items : List Value} {fault : Fault}

theorem checkItems_cons_of_error {cause : LayerFault} (refused : Layer.ofValue v = .error cause) :
    checkItems index (v :: rest) = .error (.layer index cause (some v.text)) := by
  rw [checkItems, Layer.ofValueAt, refused]
  rfl

theorem checkItems_cons_of_data {l : DataLayer} (read : Reads v (.data l)) :
    checkItems index (v :: rest) = (checkItems (index + 1) rest).map (.data l :: ·) := by
  rw [checkItems, Layer.ofValueAt, read]
  rfl

theorem checkItems_cons_of_metadata {m : Metadata} (read : Reads v (.metadata m)) :
    checkItems index (v :: rest) =
      if rest = [] then .ok [.metadata m]
      else .error (.layer index .misplacedMetadata (some v.text)) := by
  rw [checkItems, Layer.ofValueAt, read]
  cases rest <;> rfl

/-- The first element is reported if it offends, and else what is found behind it. -/
theorem checkItems_cons_eq_error_iff :
    checkItems index (v :: rest) = .error fault ↔
      (∃ cause, Offends v rest cause ∧ fault = .layer index cause (some v.text)) ∨
      (∃ l, Reads v (.data l)) ∧ checkItems (index + 1) rest = .error fault := by
  cases read : Layer.ofValue v with
  | error cause =>
    rw [checkItems_cons_of_error read]
    simp [Offends.iff_of_error read, read, eq_comm]
  | ok layer =>
    cases layer with
    | data l =>
      have data : ∃ l, Reads v (.data l) := ⟨l, read⟩
      rw [checkItems_cons_of_data read, Except.map_eq_error_iff]
      simp [Offends.not_of_data read, data]
    | metadata m =>
      rw [checkItems_cons_of_metadata read]
      by_cases none : rest = []
      · simp [Offends.iff_of_metadata read, read, none]
      · simp [Offends.iff_of_metadata read, read, none, eq_comm]

/-- A fault of the elements is that of the first one that offends; all before it are data layers. -/
theorem checkItems_eq_error_iff :
    checkItems index items = .error fault ↔
      ∃ before v after cause, items = before ++ v :: after ∧
        (∀ e ∈ before, ∃ l, Reads e (.data l)) ∧ Offends v after cause ∧
        fault = .layer (index + before.length) cause (some v.text) := by
  induction items generalizing index with
  | nil => simp [checkItems]
  | cons e rest ih =>
    rw [checkItems_cons_eq_error_iff, ih]
    constructor
    · rintro (⟨cause, offends, rfl⟩ | ⟨data, before, v, after, cause, rfl, held, offends, rfl⟩)
      · exact ⟨[], e, rest, cause, rfl, by simp, offends, rfl⟩
      · refine ⟨e :: before, v, after, cause, rfl, List.forall_mem_cons.2 ⟨data, held⟩, offends, ?_⟩
        rw [List.length_cons, Nat.add_right_comm, Nat.add_assoc]
    · rintro ⟨before, v, after, cause, same, held, offends, rfl⟩
      cases before with
      | nil =>
        cases same
        exact .inl ⟨cause, offends, rfl⟩
      | cons d before =>
        obtain ⟨rfl, rfl⟩ := List.cons.inj same
        obtain ⟨data, held⟩ := List.forall_mem_cons.1 held
        refine .inr ⟨data, before, v, after, cause, rfl, held, offends, ?_⟩
        rw [List.length_cons, Nat.add_right_comm, Nat.add_assoc]

end

/-- The end of a list is looked at only if none of its elements offends. -/
theorem check_list_eq_error_iff {items : List Value} {fault : Fault} :
    check (.list items) = .error fault ↔ checkItems 0 items = .error fault ∨
      ∃ layers, checkItems 0 items = .ok layers ∧
        (∀ version, layers.getLast? ≠ some (.metadata ⟨version, true⟩)) ∧
        fault = .whole .missingMetadata := by
  rw [check, Except.bind_eq_error_iff]
  refine or_congr_right (exists_congr fun layers => and_congr_right fun _ => ?_)
  constructor
  · intro h
    split at h
    · cases h
    · rename_i unclosed
      cases h
      exact ⟨unclosed, rfl⟩
  · rintro ⟨unclosed, rfl⟩
    split
    · rename_i version closed
      exact (unclosed version closed).elim
    · rfl

/-- What is read from elements, looked up by the elements. -/
theorem reads_of_checked {items : List Value} {layers : List Layer}
    (checked : checkItems 0 items = .ok layers) :
    (∀ e ∈ items, ∃ l, Reads e l) ∧ (∀ e ∈ items.dropLast, ∀ m, ¬ Reads e (.metadata m)) ∧
      layers.getLast?.map .ok = items.getLast?.map Layer.ofValue := by
  obtain ⟨all, onlyData⟩ := checkItems_eq_ok_iff.1 checked
  have same := forall₂_reads_iff_map.1 all
  refine ⟨?_, ?_, ?_⟩
  · intro e member
    have read := List.mem_map_of_mem (f := Layer.ofValue) member
    rw [same] at read
    obtain ⟨l, -, read⟩ := List.mem_map.1 read
    exact ⟨l, read.symm⟩
  · intro e member m metadata
    have read := List.mem_map_of_mem (f := Layer.ofValue) member
    rw [List.map_dropLast, same, ← List.map_dropLast] at read
    obtain ⟨l, held, read⟩ := List.mem_map.1 read
    cases read.trans metadata
    cases onlyData _ held
  · rw [← List.getLast?_map, ← List.getLast?_map, same]

/-- An element that offends is no layer by itself, or it is metadata before the last place. -/
theorem Offends.not_in_place {before after : List Value} {v : Value} {cause : LayerFault}
    (offends : Offends v after cause) (valid : ∀ e ∈ before ++ v :: after, ∃ l, Reads e l) :
    ∃ e ∈ (before ++ v :: after).dropLast, ∃ m, Reads e (.metadata m) := by
  cases offends with
  | unreadable refused =>
    obtain ⟨l, read⟩ := valid v (List.mem_append_cons_self ..)
    rw [Reads, refused] at read
    cases read
  | misplaced read more =>
    refine ⟨v, ?_, _, read⟩
    rw [List.dropLast_append_cons, List.dropLast_cons_of_ne_nil more]
    exact List.mem_append_cons_self ..

/-- A refused list is refused for the first element that offends, with its index and its text, and
what follows that element does not matter. If no element offends, the list is refused as a whole,
since nothing closes it. -/
theorem first_offence_is_reported {items : List Value} {fault : Fault}
    (refused : ofValue (.list items) = .error fault) :
    (∀ i, fault.index? = some i → ∃ before v after cause, items = before ++ v :: after ∧
      before.length = i ∧ (∀ e ∈ before, ∃ l, Reads e (.data l)) ∧ Offends v after cause ∧
      fault.message = "Invalid settings layer at index " ++ toString i ++ ": " ++ cause.message ++
        " => " ++ v.text ∧
      ∀ later, ((∃ m, Reads v (.metadata m)) → later ≠ []) →
        ofValue (.list (before ++ v :: later)) = .error fault) ∧
    (fault.index? = none ↔
      (∀ e ∈ items, ∃ l, Reads e l) ∧ ∀ e ∈ items.dropLast, ∀ m, ¬ Reads e (.metadata m)) ∧
    (fault.index? = none → items = [] ∨ ∃ last, items.getLast? = some last ∧
      ∀ version, ¬ Reads last (.metadata ⟨version, true⟩)) := by
  rw [ofValue_eq_error_iff] at refused
  rcases check_list_eq_error_iff.1 refused with offence | ⟨layers, checked, unclosed, rfl⟩
  · obtain ⟨before, v, after, cause, rfl, held, offends, rfl⟩ := checkItems_eq_error_iff.1 offence
    rw [Nat.zero_add]
    have indexed : (Fault.layer before.length cause (some v.text)).index? ≠ none :=
      Option.some_ne_none _
    refine ⟨?_, iff_of_false indexed ?_, fun none => (indexed none).elim⟩
    · intro i index
      obtain rfl : before.length = i := Option.some.inj index
      refine ⟨before, v, after, cause, rfl, rfl, held, offends, ?_, ?_⟩
      · exact (String.append_assoc ..).symm
      · intro later more
        -- The same element comes first among those that offend, with others behind it.
        rw [ofValue_eq_error_iff, check_list_eq_error_iff]
        refine .inl (checkItems_eq_error_iff.2
          ⟨before, v, later, cause, rfl, held, offends.before more, ?_⟩)
        rw [Nat.zero_add]
    · rintro ⟨valid, inPlace⟩
      obtain ⟨e, member, m, read⟩ := offends.not_in_place valid
      exact inPlace e member m read
  · obtain ⟨valid, inPlace, ends⟩ := reads_of_checked checked
    refine ⟨?_, iff_of_true rfl ⟨valid, inPlace⟩, fun _ => ?_⟩
    · intro i index
      cases index
    · cases final : items.getLast? with
      | none => exact .inl (List.getLast?_eq_none_iff.1 final)
      | some last =>
        refine .inr ⟨last, rfl, fun version read => ?_⟩
        rw [final, Option.map_some, read] at ends
        obtain ⟨l, closing, same⟩ := Option.map_eq_some_iff.1 ends
        cases same
        exact unclosed version closing

/-- Metadata that ends the document, but too early: the same is reported whatever follows it. -/
theorem first_offence_is_reported_misplaced :
    let layer : Value := .map [("filename", .string "a"), ("settings", .map [])]
    let closing : Value := .map [("meta", .map [("END", .bool true)])]
    let fault : Fault := .layer 1 .misplacedMetadata (some closing.text)
    ofValue (.list [layer, closing, .null]) = .error fault ∧
      ∀ later, later ≠ [] → ofValue (.list (layer :: closing :: later)) = .error fault := by
  intro layer closing fault
  have refused : ofValue (.list [layer, closing, .null]) = .error fault := rfl
  obtain ⟨before, v, after, cause, split, one, -, -, -, unchanged⟩ :=
    (first_offence_is_reported refused).1 1 rfl
  obtain ⟨e, rfl⟩ := List.length_eq_one_iff.1 one
  cases split
  exact ⟨refused, fun later more => unchanged later fun _ => more⟩

end Document
end LayeredSettings
