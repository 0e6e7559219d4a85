import LayeredSettings.Yaml.Content
import LayeredSettings.Proofs.Value.Canonical

/-!
Values of YAML documents are in one form each, also in copies that stand for aliases.
-/

namespace LayeredSettings

namespace Yaml

theorem Scalar.canonical_of_value? {s : Scalar} {v : Value} (read : s.value? = some v) :
    v.Canonical := by
  cases s with
  | null =>
    cases read
    exact Value.canonical_null
  | bool b =>
    cases read
    exact Value.canonical_bool b
  | unsigned n =>
    cases read
    exact Value.canonical_number (Number.reduced_ofUInt64 n)
  | signed n =>
    cases read
    exact Value.canonical_number trivial
  | wide n => cases read
  | float x =>
    cases read
    exact Value.canonical_number trivial
  | string s =>
    cases read
    exact Value.canonical_string s

section
variable {read? : Nat → Linked → Option (Value × Nat)}

theorem canonical_of_readItems?
    (each : ∀ {aliases n v left}, read? aliases n = some (v, left) → v.Canonical)
    {items : List Linked} {aliases left : Nat} {vs : List Value}
    (read : readItems? read? aliases items = some (vs, left)) : ∀ v ∈ vs, v.Canonical := by
  induction items generalizing aliases vs with
  | nil =>
    cases read
    exact List.forall_mem_nil _
  | cons item rest ih =>
    unfold readItems? at read
    obtain ⟨⟨v, after⟩, first, read⟩ := Option.bind_eq_some_iff.1 read
    obtain ⟨⟨later, _⟩, others, read⟩ := Option.bind_eq_some_iff.1 read
    cases read
    exact List.forall_mem_cons.2 ⟨each first, ih others⟩

theorem canonical_of_readPairs? {anchors : Anchors}
    (each : ∀ {aliases n v left}, read? aliases n = some (v, left) → v.Canonical)
    {pairs : List (Linked × Linked)} {aliases left : Nat} {entries : List (String × Value)}
    (read : readPairs? read? anchors aliases pairs = some (entries, left)) :
    ∀ e ∈ entries, e.2.Canonical := by
  induction pairs generalizing aliases entries with
  | nil =>
    cases read
    exact List.forall_mem_nil _
  | cons pair rest ih =>
    unfold readPairs? at read
    obtain ⟨⟨k, _⟩, -, read⟩ := Option.bind_eq_some_iff.1 read
    obtain ⟨⟨v, _⟩, first, read⟩ := Option.bind_eq_some_iff.1 read
    obtain ⟨⟨later, _⟩, others, read⟩ := Option.bind_eq_some_iff.1 read
    cases read
    exact List.forall_mem_cons.2 ⟨each first, ih others⟩

end

/-- A node is read as a scalar, or else as a collection in which others nest less deep. -/
theorem readNode?_cases {anchors : Anchors} {depth aliases left : Nat} {n : Linked} {v : Value}
    (read : readNode? anchors depth aliases n = some (v, left)) :
    (∃ s : Scalar, s.value? = some v) ∨
    ∃ less, depth = less + 1 ∧
      ((∃ after items vs, readItems? (readNode? anchors less) after items = some (vs, left) ∧
          v = .list vs) ∨
        ∃ after pairs entries,
          readPairs? (readNode? anchors less) anchors after pairs = some (entries, left) ∧
            v = .map (KeyMap.ofList entries)) := by
  unfold readNode? at read
  obtain ⟨⟨target, after⟩, -, read⟩ := Option.bind_eq_some_iff.1 read
  cases target with
  | scalar anchor tag text plain =>
    obtain ⟨s, -, read⟩ := Option.bind_eq_some_iff.1 read
    obtain ⟨w, meaning, read⟩ := Option.bind_eq_some_iff.1 read
    cases read
    exact .inl ⟨s, meaning⟩
  | sequence anchor tag items =>
    obtain ⟨_, -, read⟩ := Option.bind_eq_some_iff.1 read
    cases depth with
    | zero => cases read
    | succ less =>
      obtain ⟨⟨vs, _⟩, inner, read⟩ := Option.bind_eq_some_iff.1 read
      cases read
      exact .inr ⟨less, rfl, .inl ⟨after, items, vs, inner, rfl⟩⟩
  | mapping anchor tag pairs =>
    obtain ⟨_, -, read⟩ := Option.bind_eq_some_iff.1 read
    cases depth with
    | zero => cases read
    | succ less =>
      obtain ⟨⟨entries, _⟩, inner, read⟩ := Option.bind_eq_some_iff.1 read
      cases read
      exact .inr ⟨less, rfl, .inr ⟨after, pairs, entries, inner, rfl⟩⟩
  | _ => cases read

/-- The induction is on how deep collections may still nest, since an alias may stand for a node
that is no part of the one it occurs in. -/
theorem canonical_of_readNode? {anchors : Anchors} {depth aliases left : Nat} {n : Linked}
    {v : Value} (read : readNode? anchors depth aliases n = some (v, left)) : v.Canonical := by
  induction depth using Nat.strongRecOn generalizing aliases left n v with
  | ind depth ih =>
    rcases readNode?_cases read with ⟨s, meaning⟩ | ⟨less, rfl, list | map⟩
    · exact Scalar.canonical_of_value? meaning
    · obtain ⟨after, items, vs, inner, rfl⟩ := list
      exact Value.canonical_list.2 (canonical_of_readItems? (ih less (Nat.lt_succ_self less)) inner)
    · obtain ⟨after, pairs, entries, inner, rfl⟩ := map
      exact Value.canonical_ofList (canonical_of_readPairs? (ih less (Nat.lt_succ_self less)) inner)

end Yaml

theorem Value.canonical_of_readYaml? {text : String} {v : Value} (read : readYaml? text = some v) :
    v.Canonical := by
  unfold readYaml? at read
  obtain ⟨tokens, -, read⟩ := Option.bind_eq_some_iff.1 read
  obtain ⟨document, -, read⟩ := Option.bind_eq_some_iff.1 read
  cases document with
  | none =>
    cases read
    exact canonical_null
  | some document =>
    obtain ⟨⟨root, _⟩, -, read⟩ := Option.bind_eq_some_iff.1 read
    obtain ⟨⟨w, _⟩, meaning, read⟩ := Option.bind_eq_some_iff.1 read
    cases read
    exact Yaml.canonical_of_readNode? meaning

end LayeredSettings
