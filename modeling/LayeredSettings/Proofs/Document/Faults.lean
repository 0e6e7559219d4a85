import LayeredSettings.Proofs.Except
import LayeredSettings.Document.Basic

/-!
What is reported of a value that is no document.
-/

namespace LayeredSettings

/-- Whether a fault is about the rules for documents. -/
def Fault.isValidation : Fault → Bool
  | .layer .. => true
  | .whole _ => true
  | _ => false

/-- Whether a fault is about what a document has to be. -/
def Fault.isOfDocument : Fault → Bool
  | .layer .. => true
  | .whole (.notAList _) => true
  | .whole .missingMetadata => true
  | _ => false

theorem Fault.isValidation_of_isOfDocument {fault : Fault} (h : fault.isOfDocument = true) :
    fault.isValidation = true := by
  cases fault with
  | layer index cause shown => rfl
  | whole cause => rfl
  | _ => cases h

namespace Document

theorem isOfDocument_of_checkItems {items : List Value} {index : Nat} {fault : Fault}
    (h : checkItems index items = .error fault) : fault.isOfDocument = true := by
  induction items generalizing index with
  | nil => cases h
  | cons v rest ih =>
    rw [checkItems] at h
    rcases Except.bind_eq_error_iff.1 h with h | ⟨layer, -, h⟩
    · obtain ⟨cause, -, rfl⟩ := Except.mapError_eq_error_iff.1 h
      rfl
    · split at h
      · cases h
        rfl
      · rcases Except.bind_eq_error_iff.1 h with h | ⟨layers, -, h⟩
        · exact ih h
        · cases h

theorem isOfDocument_of_ofLayersFrom {layers : List Layer} {index : Nat} {fault : Fault}
    (h : ofLayersFrom index layers = .error fault) : fault.isOfDocument = true := by
  induction layers generalizing index with
  | nil =>
    cases h
    rfl
  | cons layer rest ih =>
    cases layer with
    | data l =>
      rw [ofLayersFrom] at h
      split at h
      · cases h
        rfl
      · exact ih (Except.map_eq_error_iff.1 h)
    | metadata m =>
      cases rest with
      | nil =>
        rw [ofLayersFrom] at h
        split at h
        · cases h
        · cases h
          rfl
      | cons next later =>
        cases h
        rfl

theorem isOfDocument_of_check {v : Value} {fault : Fault} (h : check v = .error fault) :
    fault.isOfDocument = true := by
  unfold check at h
  split at h
  · rcases Except.bind_eq_error_iff.1 h with h | ⟨layers, -, h⟩
    · exact isOfDocument_of_checkItems h
    · split at h
      · cases h
      · cases h
        rfl
  · cases h
    rfl

theorem isOfDocument_of_ofValue {v : Value} {fault : Fault} (h : ofValue v = .error fault) :
    fault.isOfDocument = true := by
  rcases Except.bind_eq_error_iff.1 h with h | ⟨layers, -, h⟩
  · exact isOfDocument_of_check h
  · exact isOfDocument_of_ofLayersFrom h

theorem isValidation_of_ofValue {v : Value} {fault : Fault} (h : ofValue v = .error fault) :
    fault.isValidation = true :=
  Fault.isValidation_of_isOfDocument (isOfDocument_of_ofValue h)

end Document

/-- Text is decoded in a format, or its fault is that of the format. -/
theorem Format.decode_eq_error_iff {format : Format} {text : String} {fault : Fault} :
    format.decode text = .error fault ↔
      format = .yaml ∧ Value.readYaml? text = none ∧ fault = .yaml ∨
      format = .json ∧ Value.readJson? text = none ∧ fault = .json := by
  cases format with
  | yaml =>
    cases hread : Value.readYaml? text <;> simp [decode, hread, eq_comm]
  | json =>
    cases hread : Value.readJson? text <;> simp [decode, hread, eq_comm]

end LayeredSettings
