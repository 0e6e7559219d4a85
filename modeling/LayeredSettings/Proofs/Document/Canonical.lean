import LayeredSettings.Program.Command
import LayeredSettings.Proofs.Document.Acceptance
import LayeredSettings.Proofs.Resolution.LastWins
import LayeredSettings.Proofs.Yaml.Canonical

/-!
What is read from a text is in one form throughout.

This goes for decoded values, for the facts and the layers that are taken from them, and so for
whatever a document resolves to.
-/

namespace LayeredSettings

namespace Value

theorem Canonical.get? {entries : KeyMap Value} (whole : (map entries).Canonical) {key : String}
    {v : Value} (found : entries.get? key = some v) : v.Canonical :=
  (canonical_map.1 whole).2 (key, v) (KeyMap.mem_of_get? found)

theorem Canonical.descend? {v w : Value} {path : List String} (whole : v.Canonical)
    (reached : v.descend? path = some w) : w.Canonical := by
  induction path generalizing v with
  | nil =>
    cases reached
    exact whole
  | cons key rest ih =>
    obtain ⟨inner, found, deeper⟩ := Option.bind_eq_some_iff.1 reached
    cases v with
    | map entries => exact ih (whole.get? found) deeper
    | _ => cases found

theorem Canonical.lookup? {settings : KeyMap Value} {path : List String} {v : Value}
    (whole : (map settings).Canonical) (found : Value.lookup? settings path = some v) :
    v.Canonical := by
  cases path with
  | nil => cases found
  | cons key rest =>
    obtain ⟨inner, found, deeper⟩ := Option.bind_eq_some_iff.1 found
    exact (whole.get? found).descend? deeper

theorem canonical_of_firstPresent {v? : Option Value} {v : Value}
    (canonical : ∀ v, v? = some v → v.Canonical) (present : firstPresent [v?] = some v) :
    v.Canonical := by
  cases v? with
  | none => cases present
  | some w =>
    cases w with
    | null => cases present
    | _ =>
      cases present
      exact canonical _ rfl

end Value

/-! ## Values and facts -/

theorem Format.canonical_of_decode {format : Format} {text : String} {v : Value}
    (decoded : format.decode text = .ok v) : v.Canonical := by
  cases format with
  | yaml => exact Value.canonical_of_readYaml? (Except.elim_eq_ok_iff.1 decoded)
  | json => exact Value.canonical_of_readJson? (Except.elim_eq_ok_iff.1 decoded)

theorem WrittenValue.canonical_of_decode {written : WrittenValue} {v : Value}
    (decoded : written.decode = .ok v) : v.Canonical := by
  have formatted {format : Format} {text : String}
      (decoded : (formatted format text).decode = .ok v) : v.Canonical :=
    Format.canonical_of_decode (show format.decode text = .ok v from decoded)
  cases written with
  | formatted format text => exact formatted decoded
  | tree text => exact formatted ((decode_tree text).1.symm.trans decoded)

theorem Facts.canonical_of_ofValue? {v : Value} (whole : v.Canonical) {facts : Facts}
    (known : Facts.ofValue? v = some facts) : (Value.map facts.known).Canonical := by
  cases v with
  | null =>
    cases known
    exact Value.canonical_map.2 ⟨List.Pairwise.nil, List.forall_mem_nil _⟩
  | map entries =>
    cases known
    exact whole
  | _ => cases known

/-! ## Documents -/

structure DataLayer.Canonical (l : DataLayer) : Prop where
  settings : (Value.map l.settings).Canonical
  target : ∀ target, l.target = some target → (Value.map target).Canonical

namespace Document

def Canonical (d : Document) : Prop := ∀ l ∈ d.dataLayers, l.Canonical

theorem canonical_of_holdsData {element : Value} {l : DataLayer} (whole : element.Canonical)
    (holds : HoldsData element l) : l.Canonical := by
  obtain ⟨m, isMap, isData⟩ := holds
  rw [isMap.eq_map] at whole
  refine ⟨Value.canonical_of_firstPresent (fun v => whole.get?) isData.settings, ?_⟩
  intro target given
  refine Value.canonical_of_firstPresent (fun v => whole.get?) (isData.target.trans ?_)
  rw [given, Option.map_some]

theorem canonical_of_forall₂ {elements : List Value} {data : List DataLayer}
    (whole : ∀ element ∈ elements, element.Canonical)
    (held : List.Forall₂ HoldsData elements data) : ∀ l ∈ data, l.Canonical := by
  induction held with
  | nil => exact List.forall_mem_nil _
  | cons holds _ ih =>
    obtain ⟨first, later⟩ := List.forall_mem_cons.1 whole
    exact List.forall_mem_cons.2 ⟨canonical_of_holdsData first holds, ih later⟩

theorem canonical_of_ofValue {v : Value} (whole : v.Canonical) {d : Document}
    (accepted : ofValue v = .ok d) : d.Canonical := by
  obtain ⟨elements, last, rfl, held, -⟩ := ofValue_eq_ok_iff_elements.1 accepted
  have each := Value.canonical_list.1 whole
  exact canonical_of_forall₂ (fun e member => each e (List.mem_append_left _ member)) held

theorem canonical_of_parse {format : Format} {text : String} {d : Document}
    (parsed : parse format text = .ok d) : d.Canonical := by
  obtain ⟨v, decoded, accepted⟩ := Except.bind_eq_ok_iff.1 parsed
  exact canonical_of_ofValue (Format.canonical_of_decode decoded) accepted

theorem Canonical.resolve? {d : Document} (whole : d.Canonical) {facts : Facts}
    {path : List String} {v : Value} (found : d.resolve? facts path = some v) : v.Canonical := by
  obtain ⟨before, l, after, layers, answer, -⟩ := (d.resolve?_eq_some_iff facts path).1 found
  have member : l ∈ d.dataLayers := by simp [layers]
  exact (whole l member).settings.lookup? (DataLayer.answer?_eq_some_iff.1 answer).2

end Document

theorem Source.canonical_of_load {source : Source} {files : FileStore} {d : Document}
    (loaded : source.load files = .ok d) : d.Canonical := by
  obtain ⟨text, -, parsed⟩ := Except.bind_eq_ok_iff.1 loaded
  exact Document.canonical_of_parse parsed

end LayeredSettings
