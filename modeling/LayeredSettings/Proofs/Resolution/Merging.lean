import LayeredSettings.Proofs.Resolution.LastWins
import LayeredSettings.Proofs.Value.Ordered

/-!
Resolving path by path beside merging whole layers.

A merge takes the later of two values, except that two maps are merged key by key. If no two active
layers disagree on where there is a map, merging them all first and looking the path up afterwards
finds a path exactly if resolving does. It comes to the same value, except that a map comes with the
keys of the earlier layers too.
-/

namespace LayeredSettings

namespace Value

mutual
/-- The later value, except that two maps are merged. -/
def merge (earlier : Value) : (later : Value) → Value
  | .map later =>
    match earlier with
    | .map entries => .map (mergeEntries entries later)
    | _ => .map later
  | later => later

/-- The entries of both maps; what both have under one key is merged. -/
def mergeEntries (earlier : List (String × Value)) :
    (later : List (String × Value)) → List (String × Value)
  | [] => earlier
  | (key, v) :: rest =>
    KeyMap.insert (mergeEntries earlier rest) key
      (match KeyMap.get? earlier key with
      | some old => merge old v
      | none => v)
end

theorem get?_mergeEntries (earlier later : KeyMap Value) (key : String) :
    KeyMap.get? (mergeEntries earlier later) key =
      Option.merge merge (earlier.get? key) (later.get? key) := by
  induction later with
  | nil => simp [mergeEntries]
  | cons e rest ih =>
    obtain ⟨k, v⟩ := e
    rw [mergeEntries, KeyMap.get?_insert, KeyMap.get?_cons]
    by_cases same : k = key
    · subst same
      rw [if_pos rfl, if_pos rfl]
      cases KeyMap.get? earlier k <;> rfl
    · rw [if_neg same, if_neg same, ih]

theorem merge_map_of_asMap? {earlier : Value} (noMap : earlier.asMap? = none)
    (later : KeyMap Value) : merge earlier (.map later) = .map later := by
  cases earlier with
  | map => cases noMap
  | _ => rfl

theorem merge_map_map (earlier later : KeyMap Value) :
    merge (.map earlier) (.map later) = .map (mergeEntries earlier later) := rfl

/-- A merge is a map exactly if the later value is. -/
theorem isSome_asMap?_merge (earlier later : Value) :
    (merge earlier later).asMap?.isSome = later.asMap?.isSome := by
  cases later with
  | map entries => cases earlier <;> rfl
  | _ => rfl

/-! ## Values of one shape -/

/-- At no path does one of the values hold a map and the other something else. -/
def Alike (v w : Value) : Prop :=
  ∀ path x y, v.descend? path = some x → w.descend? path = some y →
    x.asMap?.isSome = y.asMap?.isSome

theorem Alike.refl (v : Value) : Alike v v := by
  intro path x y found other
  rw [found] at other
  cases other
  rfl

theorem Alike.symm {v w : Value} (alike : Alike v w) : Alike w v :=
  fun path x y found other => (alike path y x other found).symm

theorem alike_map_iff {a b : KeyMap Value} :
    Alike (.map a) (.map b) ↔
      ∀ key v w, a.get? key = some v → b.get? key = some w → Alike v w := by
  constructor
  · intro alike key v w first second path x y found other
    refine alike (key :: path) x y ?_ ?_
    · show (a.get? key).bind (descend? · path) = some x
      rw [first]
      exact found
    · show (b.get? key).bind (descend? · path) = some y
      rw [second]
      exact other
  · intro below path x y found other
    cases path with
    | nil =>
      cases found
      cases other
      rfl
    | cons key rest =>
      obtain ⟨v, first, found⟩ := Option.bind_eq_some_iff.1 found
      obtain ⟨w, second, other⟩ := Option.bind_eq_some_iff.1 other
      exact below key v w first second rest x y found other

/-- In values of one shape the merge holds at each path what merging their parts there gives. -/
theorem descend?_merge {v w : Value} (alike : Alike v w) (path : List String) :
    (merge v w).descend? path = Option.merge merge (v.descend? path) (w.descend? path) := by
  induction path generalizing v w with
  | nil => rfl
  | cons key rest ih =>
    have here : v.asMap?.isSome = w.asMap?.isSome := alike [] v w rfl rfl
    cases w with
    | map later =>
      cases v with
      | map earlier =>
        show (KeyMap.get? (mergeEntries earlier later) key).bind (descend? · rest) =
          Option.merge merge ((KeyMap.get? earlier key).bind (descend? · rest))
            ((KeyMap.get? later key).bind (descend? · rest))
        rw [get?_mergeEntries]
        cases first : KeyMap.get? earlier key with
        | none => simp
        | some old =>
          cases second : KeyMap.get? later key with
          | none => simp
          | some new => exact ih (alike_map_iff.1 alike key old new first second)
      | _ => cases here
    | _ =>
      cases v with
      | map => cases here
      | _ => rfl

theorem lookup?_mergeEntries {a b : KeyMap Value} (alike : Alike (.map a) (.map b))
    (path : List String) :
    lookup? (mergeEntries a b) path = Option.merge merge (lookup? a path) (lookup? b path) := by
  cases path with
  | nil => rfl
  | cons key rest => exact descend?_merge alike (key :: rest)

theorem Alike.merge {u v w : Value} (first : Alike u v) (second : Alike u w) (third : Alike v w) :
    Alike (u.merge v) w := by
  intro path x z found other
  rw [descend?_merge first] at found
  rcases Option.merge_eq_some_iff.1 found with ⟨here, -⟩ | ⟨-, here⟩ | ⟨old, new, -, here, rfl⟩
  · exact second path x z here other
  · exact third path x z here other
  · rw [isSome_asMap?_merge]
    exact third path new z here other

theorem lookup?_foldl_mergeEntries {layers : List DataLayer} {merged : KeyMap Value}
    (start : ∀ l ∈ layers, Alike (.map merged) (.map l.settings))
    (alike : ∀ l ∈ layers, ∀ k ∈ layers, Alike (.map l.settings) (.map k.settings))
    (path : List String) :
    lookup? (layers.foldl (fun merged l => mergeEntries merged l.settings) merged) path =
      layers.foldl (fun found l => Option.merge merge found (lookup? l.settings path))
        (lookup? merged path) := by
  induction layers generalizing merged with
  | nil => rfl
  | cons l rest ih =>
    obtain ⟨first, start⟩ := List.forall_mem_cons.1 start
    have others := fun k (member : k ∈ rest) =>
      alike l (List.mem_cons_self ..) k (List.mem_cons_of_mem _ member)
    rw [List.foldl_cons, List.foldl_cons, ih, lookup?_mergeEntries first]
    · exact fun k member => first.merge (start k member) (others k member)
    · exact fun j second k member =>
        alike j (List.mem_cons_of_mem _ second) k (List.mem_cons_of_mem _ member)

/-! ## Resolving beside merging -/

/-- What resolving finds beside what a merge holds: the same, or a map with those keys at least. -/
inductive Covered : (found merged : Option Value) → Prop
  | absent : Covered none none
  | leaf {v : Value} (noMap : v.asMap? = none) : Covered (some v) (some v)
  | map {m n : KeyMap Value} (keys : ∀ key, (m.get? key).isSome → (n.get? key).isSome) :
      Covered (some (.map m)) (some (.map n))

/-- One more layer. What it says replaces what was found before, and is merged into the merge. -/
theorem Covered.step {found merged : Option Value} (covered : Covered found merged)
    (answer : Option Value) : Covered (answer <|> found) (Option.merge merge merged answer) := by
  cases answer with
  | none => simpa using covered
  | some w =>
    cases w with
    | map later =>
      cases covered with
      | absent => exact .map fun _ held => held
      | @leaf v noMap =>
        rw [Option.merge_some_some, merge_map_of_asMap? noMap]
        exact .map fun _ held => held
      | @map m earlier _ =>
        rw [Option.merge_some_some, merge_map_map]
        refine .map fun key held => ?_
        rw [get?_mergeEntries, Option.isSome_merge, held, Bool.or_true]
    | _ => cases covered <;> exact .leaf rfl

end Value

namespace Document

variable (d : Document) (facts : Facts)

/-- The settings of the active layers, merged in order. -/
def merged : KeyMap Value :=
  (d.dataLayers.filter facts.activates).foldl
    (fun merged l => Value.mergeEntries merged l.settings) []

/-- At no path does one active layer hold a map and another something else. -/
def ShapeCompatible : Prop :=
  ∀ l ∈ d.dataLayers, ∀ k ∈ d.dataLayers, facts.activates l = true → facts.activates k = true →
    ∀ path x y, Value.lookup? l.settings path = some x → Value.lookup? k.settings path = some y →
      x.asMap?.isSome = y.asMap?.isSome

variable {d facts}

theorem shapeCompatible_iff :
    d.ShapeCompatible facts ↔
      ∀ l ∈ d.dataLayers.filter facts.activates, ∀ k ∈ d.dataLayers.filter facts.activates,
        Value.Alike (.map l.settings) (.map k.settings) := by
  constructor
  · intro compatible l first k second path x y found other
    obtain ⟨first, active⟩ := List.mem_filter.1 first
    obtain ⟨second, also⟩ := List.mem_filter.1 second
    cases path with
    | nil =>
      cases found
      cases other
      rfl
    | cons key rest => exact compatible l first k second active also (key :: rest) x y found other
  · intro alike l first k second active also path x y found other
    cases path with
    | nil => cases found
    | cons key rest =>
      exact alike l (List.mem_filter.2 ⟨first, active⟩) k (List.mem_filter.2 ⟨second, also⟩)
        (key :: rest) x y found other

theorem resolve?_eq_foldl_filter (path : List String) :
    d.resolve? facts path = (d.dataLayers.filter facts.activates).foldl
      (fun found l => Value.lookup? l.settings path <|> found) none := by
  rw [List.foldl_filter]
  rfl

theorem covered_merged (compatible : d.ShapeCompatible facts) (path : List String) :
    Value.Covered (d.resolve? facts path) (Value.lookup? (d.merged facts) path) := by
  have nothing : Value.lookup? [] path = none := by cases path <;> rfl
  have start (l : DataLayer) : Value.Alike (.map []) (.map l.settings) :=
    Value.alike_map_iff.2 fun _ _ _ held => by cases held
  rw [resolve?_eq_foldl_filter, merged,
    Value.lookup?_foldl_mergeEntries (fun l _ => start l) (shapeCompatible_iff.1 compatible),
    nothing]
  exact List.foldl_rel .absent fun l _ found merged covered => covered.step _

/-- If the active layers agree on where there are maps, a path resolves exactly if it leads
somewhere in the merge of these layers. What is no map is the same in both; where there is a map the
merge has a map with at least its keys. -/
theorem resolving_agrees_with_merging (d : Document) (facts : Facts)
    (compatible : d.ShapeCompatible facts) (path : List String) :
    ((d.resolve? facts path).isSome = (Value.lookup? (d.merged facts) path).isSome) ∧
    (∀ v, d.resolve? facts path = some v → v.asMap? = none →
      Value.lookup? (d.merged facts) path = some v) ∧
    ∀ m : KeyMap Value, d.resolve? facts path = some (.map m) →
      ∃ n : KeyMap Value, Value.lookup? (d.merged facts) path = some (.map n) ∧
        ∀ key, (m.get? key).isSome → (n.get? key).isSome := by
  have covered := covered_merged compatible path
  generalize d.resolve? facts path = found, Value.lookup? (d.merged facts) path = merged
    at covered ⊢
  cases covered with
  | absent => exact ⟨rfl, nofun, nofun⟩
  | leaf noMap =>
    refine ⟨rfl, fun v same _ => same, ?_⟩
    rintro m ⟨⟩
    cases noMap
  | @map m n keys =>
    refine ⟨rfl, ?_, ?_⟩
    · rintro v ⟨⟩ noMap
      cases noMap
    · rintro m ⟨⟩
      exact ⟨n, rfl, keys⟩

/-- The merge has the subtree of both layers, while resolving has the later one only; a layer for
other facts may have another shape. -/
theorem resolving_agrees_with_merging_nested :
    let base : DataLayer :=
      ⟨"base", none, [("a", .map [("b", .bool true), ("c", .map [("x", .list [])])])]⟩
    let later : DataLayer := ⟨"later", some [], [("a", .map [("c", .map [("y", .null)])])]⟩
    let foreign : DataLayer := ⟨"foreign", some [("app", .string "x")], [("a", .bool false)]⟩
    let d : Document := ⟨[base, later, foreign], 1, by decide⟩
    d.ShapeCompatible Facts.none ∧
      d.resolve? Facts.none ["a", "c"] = some (.map [("y", .null)]) ∧
      (∃ n : KeyMap Value, Value.lookup? (d.merged Facts.none) ["a", "c"] = some (.map n) ∧
        ∀ key, (KeyMap.get? [("y", Value.null)] key).isSome → (n.get? key).isSome) ∧
      Value.lookup? (d.merged Facts.none) ["a", "c", "y"] = some .null ∧
      Value.lookup? (d.merged Facts.none) ["a", "b"] = some (.bool true) ∧
      (Value.lookup? (d.merged Facts.none) ["a", "b", "z"]).isSome = false := by
  intro base later foreign d
  have single {key k : String} {v x : Value} (held : KeyMap.get? [(k, x)] key = some v) :
      key = k ∧ v = x := Prod.mk.inj (List.mem_singleton.1 (KeyMap.mem_of_get? held))
  have agree : Value.Alike (.map base.settings) (.map later.settings) := by
    refine Value.alike_map_iff.2 fun key v w first second => ?_
    obtain ⟨rfl, rfl⟩ := single second
    cases first
    refine Value.alike_map_iff.2 fun key v w first second => ?_
    obtain ⟨rfl, rfl⟩ := single second
    cases first
    refine Value.alike_map_iff.2 fun key v w first second => ?_
    obtain ⟨rfl, rfl⟩ := single second
    cases first
  have compatible : d.ShapeCompatible Facts.none := by
    have active : d.dataLayers.filter Facts.none.activates = [base, later] := rfl
    rw [shapeCompatible_iff, active]
    simp only [List.forall_mem_cons, List.not_mem_nil, false_imp_iff, implies_true, and_true]
    exact ⟨⟨.refl _, agree⟩, agree.symm, .refl _⟩
  have agrees := resolving_agrees_with_merging d Facts.none compatible
  refine ⟨compatible, rfl, (agrees ["a", "c"]).2.2 _ rfl, (agrees ["a", "c", "y"]).2.1 _ rfl rfl,
    (agrees ["a", "b"]).2.1 _ rfl rfl, ?_⟩
  rw [← (agrees ["a", "b", "z"]).1]
  rfl

/-- Where one active layer has a map and a later one has not, the merge loses what is below. -/
example :
    let d : Document := ⟨[⟨"base", none, [("a", .map [("b", .bool true)])]⟩,
      ⟨"later", none, [("a", .null)]⟩], 1, by decide⟩
    (d.resolve? Facts.none ["a", "b"]).isSome = true ∧
      (Value.lookup? (d.merged Facts.none) ["a", "b"]).isSome = false := by
  decide

end Document
end LayeredSettings
