import LayeredSettings.Proofs.Resolution.Merging
import LayeredSettings.Proofs.Targeting.Paths

/-!
Which facts matter to a document.

A target looks facts up under its own keys only, and null meets nothing, just as what is missing
does. So processes of which the same is known under every key that some target names have the same
active layers, and to them every path resolves to the same.
-/

namespace LayeredSettings

namespace Facts

/-- Nothing is known under a key, or only null. -/
def Unknown (f : Facts) (key : String) : Prop :=
  f.known.get? key = Option.none ∨ f.known.get? key = some .null

/-- The same value is known under a key in both cases, or in neither case anything. -/
def AgreeAt (f g : Facts) (key : String) : Prop :=
  (∃ v, f.known.get? key = some v ∧ g.known.get? key = some v) ∨ f.Unknown key ∧ g.Unknown key

variable {f g : Facts} {key : String}

theorem agreeAt_of_get?_eq (same : f.known.get? key = g.known.get? key) : f.AgreeAt g key := by
  cases found : g.known.get? key with
  | none => exact .inr ⟨.inl (same.trans found), .inl found⟩
  | some v => exact .inl ⟨v, same.trans found, found⟩

/-- What is known under other keys stays what it was. -/
theorem agreeAt_insert_of_ne {other : String} (hne : key ≠ other) (v : Value) :
    AgreeAt ⟨f.known.insert key v⟩ f other := by
  apply agreeAt_of_get?_eq
  rw [KeyMap.get?_insert, if_neg hne]

theorem agreeAt_insert_null (unknown : f.known.get? key = Option.none) (other : String) :
    AgreeAt ⟨f.known.insert key .null⟩ f other := by
  by_cases same : key = other
  · subst same
    refine .inr ⟨.inr ?_, .inl unknown⟩
    rw [KeyMap.get?_insert, if_pos rfl]
  · exact agreeAt_insert_of_ne same .null

end Facts

namespace Value

theorem meets_null (predicate : Value) : meets .null predicate = false := by
  cases predicate <;> rfl

/-- A requirement is not met where nothing is known. -/
theorem not_met_of_unknown {f : Facts} {key : String} (unknown : f.Unknown key)
    (predicate : Value) :
    ¬ ∃ found, f.known.get? key = some found ∧ meets found predicate = true := by
  rintro ⟨found, held, met⟩
  rcases unknown with absent | isNull
  · rw [absent] at held
    cases held
  · rw [isNull] at held
    cases held
    rw [meets_null] at met
    cases met

theorem met_iff_of_agreeAt {f g : Facts} {key : String} (agree : f.AgreeAt g key)
    (predicate : Value) :
    (∃ found, f.known.get? key = some found ∧ meets found predicate = true) ↔
      ∃ found, g.known.get? key = some found ∧ meets found predicate = true := by
  rcases agree with ⟨v, held, held'⟩ | ⟨unknown, unknown'⟩
  · rw [held, held']
  · exact iff_of_false (not_met_of_unknown unknown predicate)
      (not_met_of_unknown unknown' predicate)

theorem meetsAll_eq_of_agreeAt {f g : Facts} {required : KeyMap Value}
    (agree : ∀ e ∈ required, f.AgreeAt g e.1) :
    meetsAll f.known required = meetsAll g.known required := by
  rw [Bool.eq_iff_iff, meetsAll_eq_true_iff, meetsAll_eq_true_iff]
  exact forall₂_congr fun e member => met_iff_of_agreeAt (agree e member) e.2

end Value

namespace Document

/-- The target of some layer asks for a key. -/
def Mentions (d : Document) (key : String) : Prop :=
  ∃ l ∈ d.dataLayers, ∃ required, l.target = some required ∧ key ∈ required.keys

/-- A document cannot tell two processes apart by what is known about them. -/
structure Indistinct (d : Document) (f g : Facts) : Prop where
  active : ∀ l ∈ d.layers, f.activatesLayer l = g.activatesLayer l
  resolves : ∀ path, d.resolve? f path = d.resolve? g path

variable {d : Document} {f g : Facts}

theorem activates_eq_of_agreeAt (agree : ∀ key, d.Mentions key → f.AgreeAt g key)
    {l : DataLayer} (member : l ∈ d.dataLayers) : f.activates l = g.activates l := by
  cases target : l.target with
  | none =>
    rw [Facts.activates, Facts.activates, target]
    rfl
  | some required =>
    have mentioned {e : String × Value} (asked : e ∈ required) : d.Mentions e.1 :=
      ⟨l, member, required, target, List.mem_map_of_mem asked⟩
    rw [Bool.eq_iff_iff, Value.activates_iff_meetsAll target, Value.activates_iff_meetsAll target,
      Value.meetsAll_eq_of_agreeAt fun e asked => agree e.1 (mentioned asked)]

theorem indistinct_of_agreeAt (agree : ∀ key, d.Mentions key → f.AgreeAt g key) :
    d.Indistinct f g where
  active := by
    intro l member
    rcases List.mem_append.1 member with data | closing
    · obtain ⟨k, own, rfl⟩ := List.mem_map.1 data
      exact activates_eq_of_agreeAt agree own
    · rw [List.mem_singleton.1 closing]
      rfl
  resolves path := by
    have same : d.dataLayers.filter f.activates = d.dataLayers.filter g.activates :=
      List.filter_congr fun l member => activates_eq_of_agreeAt agree member
    rw [resolve?_eq_foldl_filter, resolve?_eq_foldl_filter, same]

/-- Only what is known under the keys that targets name can decide which layers are active and what
a path resolves to. Facts that no target names change nothing, and to know null under a key is as
good as to know nothing. -/
theorem only_mentioned_facts_matter (d : Document) :
    (∀ f g : Facts, (∀ key, d.Mentions key → f.AgreeAt g key) → d.Indistinct f g) ∧
    (∀ (f : Facts) (key : String) (v : Value), ¬ d.Mentions key →
      d.Indistinct ⟨f.known.insert key v⟩ f) ∧
    ∀ (f : Facts) (key : String), f.known.get? key = none →
      d.Indistinct ⟨f.known.insert key .null⟩ f := by
  refine ⟨fun f g agree => indistinct_of_agreeAt agree, ?unmentioned, ?null⟩
  case unmentioned =>
    intro f key v unmentioned
    apply indistinct_of_agreeAt
    intro other mentioned
    have hne : key ≠ other := fun same => unmentioned (same ▸ mentioned)
    exact Facts.agreeAt_insert_of_ne hne v
  case null =>
    intro f key unknown
    apply indistinct_of_agreeAt
    intro other _
    exact Facts.agreeAt_insert_null unknown other

/-- One process knows null where the other knows nothing, and a key that no target names on top. -/
theorem only_mentioned_facts_matter_null :
    let base : DataLayer := ⟨"base", none, [("a", .bool true)]⟩
    let east : DataLayer :=
      ⟨"east", some [("app", .string "web"), ("host", .map [("zone", .list [.string "east"])])],
        [("a", .bool false)]⟩
    let user : DataLayer := ⟨"user", some [("user", .null)], [("a", .null)]⟩
    let d : Document := ⟨[base, east, user], 1, by decide⟩
    let host : Value := .map [("zone", .string "east")]
    let f : Facts := ⟨[("app", .string "web"), ("host", host), ("user", .null)]⟩
    let g : Facts := ⟨[("app", .string "web"), ("host", host), ("load", .number (.int 3))]⟩
    (∀ key, d.Mentions key → f.AgreeAt g key) ∧ d.Mentions "user" ∧
      f.known.get? "load" ≠ g.known.get? "load" ∧ f.known.get? "user" ≠ g.known.get? "user" ∧
      d.Indistinct f g ∧ d.resolve? g ["a"] = some (.bool false) := by
  intro base east user d host f g
  have agree : ∀ key, d.Mentions key → f.AgreeAt g key := by
    rintro key ⟨l, member, required, target, asked⟩
    have keys : key = "app" ∨ key = "host" ∨ key = "user" := by
      simp only [d, List.mem_cons, List.not_mem_nil, or_false] at member
      rcases member with rfl | rfl | rfl
      · cases target
      · cases target
        simpa [KeyMap.keys, or_assoc] using Or.inl asked
      · cases target
        exact .inr (.inr (List.mem_singleton.1 asked))
    rcases keys with rfl | rfl | rfl
    · exact Facts.agreeAt_of_get?_eq rfl
    · exact Facts.agreeAt_of_get?_eq rfl
    · exact .inr ⟨.inr rfl, .inl rfl⟩
  exact ⟨agree, ⟨user, by simp [d], _, rfl, List.mem_singleton_self _⟩, by simp [f, g, KeyMap.get?],
    by simp [f, g, KeyMap.get?], (only_mentioned_facts_matter d).1 f g agree, rfl⟩

end Document
end LayeredSettings
