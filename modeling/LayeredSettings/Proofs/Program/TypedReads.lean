import LayeredSettings.Proofs.Document.Canonical
import LayeredSettings.Proofs.Except
import LayeredSettings.Proofs.Program.Coherence
import LayeredSettings.Proofs.Program.EventReload
import LayeredSettings.Proofs.Value.Trees

/-!
Settings that are read as a type.

On its way into another type a setting goes through its JSON tree. If it is asked for as a value of
any kind, it comes back as it was, except for numbers that JSON does not tell apart.
-/

namespace LayeredSettings

namespace Value

theorem fold_toJson_eq_normal {v : Value} (ordered : v.Ordered) :
    v.toJson.fold ofJsonParts = v.normal := by
  rw [fold_toJson ordered, ofJson_toJson_eq_normal]

end Value

namespace Program

theorem getAs_eq_getWith (p : Program) (i : ResolverId) (path : List String) (shape : Shape) :
    p.getAs i path shape = p.getWith i path shape.read := rfl

theorem get_eq_ok_iff {p : Program} {i : ResolverId} {r : Resolver}
    (known : p.resolvers[i]? = some r) {path : List String} {v : Value} :
    (p.get i path).2 = .ok v ↔ r.live.resolve? r.facts path = some v := by
  rw [get_snd, getSafe_snd, known, Option.bind_some, Except.elim_eq_ok_iff, Resolver.resolve?]

/-- A document that was loaded is in one form, so only documents that were given to the program
could be another way. -/
theorem canonical_live {run : List Action}
    (given : ∀ name d facts, .openDocument name d facts ∈ run → d.Canonical) {i : ResolverId}
    {r : Resolver} (found : (ofRun run).resolvers[i]? = some r) : r.live.Canonical := by
  have held : (ofRun run).offers[i]? = some r.offer := by
    rw [getElem?_offers, found, Option.map_some]
  cases (sound_ofRun held).origin with
  | file _ _ _ _ _ loaded => exact Source.canonical_of_load loaded
  | memory happened _ _ _ =>
    exact given _ _ _ (happened.subset (List.mem_append_right _ (List.mem_singleton_self _)))

/-- Whatever settings are looked up in a run, their maps are in order. -/
theorem canonical_of_get {run : List Action}
    (given : ∀ name d facts, .openDocument name d facts ∈ run → d.Canonical) {i : ResolverId}
    {path : List String} {v : Value} (found : ((ofRun run).get i path).2 = .ok v) :
    v.Canonical := by
  rw [get_snd, getSafe_snd, Except.elim_eq_ok_iff] at found
  obtain ⟨r, known, resolved⟩ := Option.bind_eq_some_iff.1 found
  exact (canonical_live given known).resolve? resolved

theorem getWith_value {p : Program} {i : ResolverId} {path : List String}
    (ordered : ∀ v, (p.get i path).2 = .ok v → v.Ordered) :
    p.getWith i path Value.fromTree = ((p.get i path).1, (p.get i path).2.map Value.normal) := by
  apply Prod.ext
  · exact p.getWith_fst i path Value.fromTree
  · rw [getWith_snd]
    cases found : (p.get i path).2 with
    | error fault => rfl
    | ok v => exact congrArg Except.ok (Value.fold_toJson_eq_normal (ordered v found))

theorem getAs_value (p : Program) (i : ResolverId) (path : List String) :
    p.getAs i path .value =
      ((p.getWith i path Value.fromTree).1,
        (p.getWith i path Value.fromTree).2.map Value.toJson) := by
  rw [getAs_eq_getWith]
  apply Prod.ext
  · exact (p.getWith_fst i path _).trans (p.getWith_fst i path _).symm
  · show (p.getWith i path _).2 = _
    rw [getWith_snd, getWith_snd]
    cases (p.get i path).2 <;> rfl

theorem map_normal_of_plain {found : Except Fault Value}
    (plain : ∀ v, found = .ok v → ∀ n ∈ v.numbers, n.Plain) : found.map Value.normal = found := by
  cases found with
  | error fault => rfl
  | ok v => exact congrArg Except.ok (Value.normal_of_plain (plain v rfl))

/-- The tree of a value gives the value back with its numbers in the forms that JSON tells apart,
whichever way it is converted. So does a setting that is asked for as a value of any kind; if its
numbers have these forms already, it is the same as when it is just looked up. In any case it is
only missing if there is nothing to look up. -/
theorem value_through_tree :
    (∀ v : Value, v.Ordered →
      Value.convert v.toJson = v.normal ∧ Value.ofJson v.toJson = v.normal ∧
        Value.fromTree v.toJson = .ok v.normal) ∧
    ∀ (p : Program) (i : ResolverId) (r : Resolver) (path : List String),
      p.resolvers[i]? = some r →
      (∀ v, r.live.resolve? r.facts path = some v → v.Ordered) →
      p.getWith i path Value.fromTree = ((p.get i path).1, (p.get i path).2.map Value.normal) ∧
        ((∀ v, r.live.resolve? r.facts path = some v → ∀ n ∈ v.numbers, n.Plain) →
          p.getWith i path Value.fromTree = p.get i path ∧
            p.getAs i path .value = ((p.get i path).1, (p.get i path).2.map Value.toJson)) := by
  constructor
  · intro v ordered
    have read := Value.fold_toJson_eq_normal ordered
    exact ⟨(Value.convert_eq_fold v.toJson).trans read, v.ofJson_toJson_eq_normal,
      congrArg Except.ok read⟩
  · intro p i r path known ordered
    have reads := getWith_value fun v found => ordered v ((get_eq_ok_iff known).1 found)
    refine ⟨reads, fun plain => ?_⟩
    have kept : (p.get i path).2.map Value.normal = (p.get i path).2 :=
      map_normal_of_plain fun v found => plain v ((get_eq_ok_iff known).1 found)
    have same : p.getWith i path Value.fromTree = p.get i path := by rw [reads, kept]
    exact ⟨same, by rw [getAs_value, same]⟩

/-- Numbers at the ends of their ranges and keys that look like numbers come back as they are; an
unsigned integer that fits the signed form and an infinity, in a value of its own, do not. -/
theorem value_through_tree_extremes :
    let kept : Value := .map [("-0", .number (.float (-0.0))), ("1", .string "1"),
      ("1.0", .list [.number (.int Int64.minValue), .number (.int Int64.maxValue),
        .number (.uint (Int64.maxValue.toUInt64 + 1)), .number (.uint (-1))]), ("null", .null)]
    let lost : Value := .list [.number (.uint 7), .map [("x", .number (.float (1 / 0)))]]
    let d : Document := ⟨[⟨"layer", none, [("a", kept), ("b", lost)]⟩], 1, by decide⟩
    let p := (Program.openDocument {} d Facts.none).1
    kept.Ordered ∧ (∀ n ∈ kept.numbers, n.Plain) ∧ lost.Ordered ∧
      p.getWith 0 ["a"] Value.fromTree = p.get 0 ["a"] ∧ (p.get 0 ["a"]).2 = .ok kept ∧
      (p.getWith 0 ["b"] Value.fromTree).2 = .ok (.list [.number (.int 7), .map [("x", .null)]]) ∧
      Value.convert lost.toJson = .list [.number (.int 7), .map [("x", .null)]] ∧
      (p.getWith 0 ["c"] Value.fromTree).2 = .error (.notFound ["c"]) := by
  intro kept lost d p
  have orderedKept : kept.Ordered := by decide
  have plain : ∀ n ∈ kept.numbers, n.Plain := by decide
  have orderedLost : lost.Ordered := by decide
  have known : p.resolvers[0]? = some (.create none Facts.none d) := rfl
  have normalLost : lost.normal = .list [.number (.int 7), .map [("x", .null)]] := rfl
  obtain ⟨trees, settings⟩ := value_through_tree
  have atKept := settings p 0 _ ["a"] known fun v found => by
    cases found
    exact orderedKept
  have atLost := settings p 0 _ ["b"] known fun v found => by
    cases found
    exact orderedLost
  have missing := settings p 0 _ ["c"] known fun v found => by cases found
  refine ⟨orderedKept, plain, orderedLost, ?_, rfl, ?_, ?_, ?_⟩
  · refine (atKept.2 fun v found => ?_).1
    cases found
    exact plain
  · rw [atLost.1]
    exact congrArg Except.ok normalLost
  · rw [(trees lost orderedLost).1, normalLost]
  · rw [missing.1]
    rfl

end Program
end LayeredSettings
