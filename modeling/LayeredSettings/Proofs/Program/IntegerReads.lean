import LayeredSettings.Proofs.Program.TypedReads
import LayeredSettings.Proofs.Value.Shaped

/-!
Settings that are read as integers.

A setting that is asked for as an integer comes out as the integer it holds or not at all. In a list
or a map no item is left out, and one that does not fit spoils the whole.
-/

namespace LayeredSettings

namespace IntegerType

/-- What a value is read as if it is an integer of a type. -/
def Gives (t : IntegerType) (v : Value) (a : Json) : Prop := ∃ n, t.Takes v n ∧ a = .ofInteger n

def GivesOptional (t : IntegerType) (v : Value) (a : Json) : Prop :=
  v.Blank ∧ a = .null ∨ t.Gives v a

/-- Every item is an integer, and all of them are kept in their order. -/
def GivesList (t : IntegerType) (v : Value) (a : Json) : Prop :=
  ∃ items ns, v = .list items ∧ List.Forall₂ t.Takes items ns ∧ a = .array (ns.map .ofInteger)

/-- Every item is an integer, and all of them are kept under their keys. -/
def GivesDictionary (t : IntegerType) (v : Value) (a : Json) : Prop :=
  ∃ (entries : KeyMap Value) (ns : KeyMap Int), v = .map entries ∧
    List.Forall₂ (fun e n => n.1 = e.1 ∧ t.Takes e.2 n.2) entries ns ∧
    a = .object (ns.mapValues .ofInteger)

theorem read_integer_iff (t : IntegerType) (v : Value) (a : Json) :
    Shape.read (.integer t) v.toJson = .ok a ↔ t.Gives v a :=
  Shape.read_integer_eq_ok_iff

/-- A value without a number in JSON is no integer. -/
theorem not_takes_of_blank {t : IntegerType} {v : Value} (blank : v.Blank) (n : Int) :
    ¬ t.Takes v n := by
  rintro ⟨integer, -⟩
  rcases blank with rfl | ⟨x, rfl, -⟩ <;> cases integer

theorem read_optional_iff (t : IntegerType) (v : Value) (a : Json) :
    Shape.read (.optional (.integer t)) v.toJson = .ok a ↔ t.GivesOptional v a := by
  by_cases blank : v.Blank
  · rw [(Shape.read_optional _ v).1 blank]
    constructor
    · rintro ⟨⟩
      exact .inl ⟨blank, rfl⟩
    · rintro (⟨-, rfl⟩ | ⟨n, takes, -⟩)
      · rfl
      · exact absurd takes (not_takes_of_blank blank n)
  · rw [(Shape.read_optional _ v).2 blank, read_integer_iff]
    exact ⟨.inr, fun gives => gives.resolve_left fun null => blank null.1⟩

theorem forall₂_gives_iff {t : IntegerType} {items : List Value} {answers : List Json} :
    List.Forall₂ t.Gives items answers ↔
      ∃ ns, List.Forall₂ t.Takes items ns ∧ answers = ns.map .ofInteger := by
  constructor
  · intro gives
    induction gives with
    | nil => exact ⟨[], .nil, rfl⟩
    | cons first _ ih =>
      obtain ⟨n, takes, rfl⟩ := first
      obtain ⟨ns, others, rfl⟩ := ih
      exact ⟨n :: ns, .cons takes others, rfl⟩
  · rintro ⟨ns, takes, rfl⟩
    exact List.forall₂_map_right_iff.2 (takes.imp fun _ n found => ⟨n, found, rfl⟩)

theorem forall₂_gives_entries_iff {t : IntegerType} {entries : KeyMap Value}
    {answers : KeyMap Json} :
    List.Forall₂ (fun e b => b.1 = e.1 ∧ t.Gives e.2 b.2) entries answers ↔
      ∃ ns : KeyMap Int, List.Forall₂ (fun e n => n.1 = e.1 ∧ t.Takes e.2 n.2) entries ns ∧
        answers = ns.mapValues .ofInteger := by
  constructor
  · intro gives
    induction gives with
    | nil => exact ⟨[], .nil, rfl⟩
    | @cons e b _ _ first _ ih =>
      obtain ⟨key, n, takes, answer⟩ := first
      obtain ⟨ns, others, rfl⟩ := ih
      exact ⟨(b.1, n) :: ns, .cons ⟨key, takes⟩ others,
        congrArg (· :: _) (Prod.ext rfl answer)⟩
  · rintro ⟨ns, takes, rfl⟩
    exact List.forall₂_map_right_iff.2
      (takes.imp fun _ n found => ⟨found.1, n.2, found.2, rfl⟩)

theorem read_list_iff (t : IntegerType) (v : Value) (a : Json) :
    Shape.read (.list (.integer t)) v.toJson = .ok a ↔ t.GivesList v a := by
  rw [Shape.read_list_eq_ok_iff]
  simp only [read_integer_iff]
  constructor
  · rintro ⟨items, answers, rfl, gives, rfl⟩
    obtain ⟨ns, takes, rfl⟩ := forall₂_gives_iff.1 gives
    exact ⟨items, ns, rfl, takes, rfl⟩
  · rintro ⟨items, ns, rfl, takes, rfl⟩
    exact ⟨items, _, rfl, forall₂_gives_iff.2 ⟨ns, takes, rfl⟩, rfl⟩

theorem read_dictionary_iff (t : IntegerType) (v : Value) (a : Json) :
    Shape.read (.dictionary (.integer t)) v.toJson = .ok a ↔ t.GivesDictionary v a := by
  rw [Shape.read_dictionary_eq_ok_iff]
  simp only [read_integer_iff]
  constructor
  · rintro ⟨entries, answers, rfl, gives, rfl⟩
    obtain ⟨ns, takes, rfl⟩ := forall₂_gives_entries_iff.1 gives
    exact ⟨entries, ns, rfl, takes, rfl⟩
  · rintro ⟨entries, ns, rfl, takes, rfl⟩
    exact ⟨entries, _, rfl, forall₂_gives_entries_iff.2 ⟨ns, takes, rfl⟩, rfl⟩

end IntegerType

namespace Program

/-- A setting of a resolver is read as a shape exactly if some value is found and gives an answer.
There is no other fault than that nothing is found, as when the setting is just looked up, or that
what is found gives no answer; both name the path. -/
structure ReadsAs (p : Program) (i : ResolverId) (r : Resolver) (path : List String) (shape : Shape)
    (gives : Value → Json → Prop) : Prop where
  answers (a : Json) : (p.getAs i path shape).2 = .ok a ↔
    ∃ v, r.resolve? path = some v ∧ gives v a
  missing : (p.getAs i path shape).2 = .error (.notFound path) ↔ r.resolve? path = none
  missing_alike : (p.get i path).2 = .error (.notFound path) ↔ r.resolve? path = none
  refused : (∃ cause, (p.getAs i path shape).2 = .error (.conversion path cause)) ↔
    ∃ v, r.resolve? path = some v ∧ ∀ a, ¬ gives v a

variable {p : Program} {i : ResolverId} {r : Resolver} {path : List String}

theorem getAs_snd_of_resolve? (known : p.resolvers[i]? = some r) (shape : Shape) :
    (p.getAs i path shape).2 = (r.resolve? path).elim (.error (.notFound path)) fun v =>
      (shape.read v.toJson).mapError (.conversion path) := by
  rw [getAs_eq_getWith, getWith_snd, get_snd, getSafe_snd, known, Option.bind_some]
  cases r.resolve? path <;> rfl

theorem readsAs (known : p.resolvers[i]? = some r) {shape : Shape} {gives : Value → Json → Prop}
    (reads : ∀ v a, shape.read v.toJson = .ok a ↔ gives v a) :
    p.ReadsAs i r path shape gives := by
  have looked : (p.get i path).2 = .error (.notFound path) ↔ r.resolve? path = none := by
    rw [get_snd, getSafe_snd, known, Option.bind_some]
    cases r.resolve? path <;> simp
  have answer : (p.getAs i path shape).2 = _ := getAs_snd_of_resolve? known shape
  cases found : r.resolve? path with
  | none =>
    rw [found] at answer
    constructor <;> simp [answer, found, looked]
  | some v =>
    rw [found, Option.elim_some] at answer
    cases read : shape.read v.toJson with
    | ok a =>
      rw [read] at answer
      have given := (reads v a).1 read
      have only (b : Json) : gives v b ↔ a = b := by
        rw [← reads, read, Except.ok.injEq]
      constructor <;> simp [answer, found, looked, Except.mapError, only]
    | error cause =>
      rw [read] at answer
      have none_given (a : Json) : ¬ gives v a := by
        rw [← reads, read]
        exact nofun
      constructor <;> simp [answer, found, looked, Except.mapError, none_given]

/-- Integers are read as they are. A signed or unsigned type takes those its words stand for; a
setting is read as an integer of a type exactly if it is an integer that the type takes, and
otherwise the fault names the path. A setting that is optional may also be blank. All items of a
list or a map have to be integers of the type, and all of them are kept. -/
theorem integers_are_read_exactly :
    (∀ bits, 0 < bits → ∀ n, (IntegerType.signed bits).Holds n ↔
      ∃ word : BitVec bits, word.toInt = n) ∧
    (∀ bits n, (IntegerType.unsigned bits).Holds n ↔ ∃ word : BitVec bits, (word.toNat : Int) = n) ∧
    ∀ t : IntegerType,
      (∀ v n, t.Takes v n → (Json.ofInteger n).integer? = some n) ∧
      ∀ (p : Program) (i : ResolverId) (r : Resolver) (path : List String),
        p.resolvers[i]? = some r →
        p.ReadsAs i r path (.integer t) t.Gives ∧
        p.ReadsAs i r path (.optional (.integer t)) t.GivesOptional ∧
        ((∀ v, r.resolve? path = some v → ¬ v.Blank) →
          p.getAs i path (.optional (.integer t)) = p.getAs i path (.integer t)) ∧
        p.ReadsAs i r path (.list (.integer t)) t.GivesList ∧
        p.ReadsAs i r path (.dictionary (.integer t)) t.GivesDictionary := by
  refine ⟨fun _ positive _ => IntegerType.holds_signed_iff positive,
    fun _ _ => IntegerType.holds_unsigned_iff, fun t => ⟨?_, ?_⟩⟩
  · rintro v n ⟨integer, -⟩
    obtain ⟨low, high⟩ := Value.bounds_of_integer? integer
    exact Json.integer?_ofInteger low high
  · intro p i r path known
    refine ⟨readsAs known t.read_integer_iff, readsAs known t.read_optional_iff, fun numbered => ?_,
      readsAs known t.read_list_iff, readsAs known t.read_dictionary_iff⟩
    apply Prod.ext
    · rw [getAs_eq_getWith, getAs_eq_getWith, getWith_fst, getWith_fst]
    · rw [getAs_snd_of_resolve? known, getAs_snd_of_resolve? known]
      cases found : r.resolve? path with
      | none => rfl
      | some v =>
        rw [Option.elim_some, Option.elim_some, (Shape.read_optional _ v).2 (numbered v found)]

/-- Integers at the ends of ranges, a number with a fraction, a null, and a list and a map with
items at the ends of the range of a byte. -/
theorem integers_are_read_exactly_limits :
    let byte := IntegerType.signed 8
    let d : Document := ⟨[⟨"layer", none, [("float", .number (.float 1)),
      ("high", .number (.uint (-1))), ("items", .list [.number (.int (-128)), .number (.uint 127)]),
      ("low", .number (.int Int64.minValue)), ("map", .map [("128", .number (.int 127)),
      ("x", .number (.int 128))]), ("null", .null)]⟩], 1, by decide⟩
    let p := (Program.openDocument {} d Facts.none).1
    (p.getAs 0 ["low"] (.integer (.signed 64))).2 = .ok (.negative Int64.minValue) ∧
      (p.getAs 0 ["high"] (.integer (.unsigned 64))).2 = .ok (.unsigned (-1)) ∧
      (∃ cause, (p.getAs 0 ["high"] (.integer (.signed 64))).2 =
        .error (.conversion ["high"] cause)) ∧
      (∃ cause, (p.getAs 0 ["float"] (.integer byte)).2 = .error (.conversion ["float"] cause)) ∧
      (p.getAs 0 ["null"] (.optional (.integer byte))).2 = .ok .null ∧
      p.getAs 0 ["low"] (.optional (.integer byte)) = p.getAs 0 ["low"] (.integer byte) ∧
      (p.getAs 0 ["items"] (.list (.integer byte))).2 = .ok (.array [.negative (-128),
        .unsigned 127]) ∧
      (∃ cause, (p.getAs 0 ["map"] (.dictionary (.integer byte))).2 =
        .error (.conversion ["map"] cause)) ∧
      (p.getAs 0 ["map", "y"] (.integer byte)).2 = .error (.notFound ["map", "y"]) ∧
      byte.Holds (-128) ∧ ¬ byte.Holds 128 := by
  intro byte d p
  have known : p.resolvers[0]? = some (.create none Facts.none d) := rfl
  obtain ⟨signed, -, types⟩ := integers_are_read_exactly
  have reads (t : IntegerType) (path : List String) := (types t).2 p 0 _ path known
  refine ⟨?_, ?_, ?_, ?_, ?_, ?_, ?_, ?_, ?_, ?_, ?_⟩
  · exact ((reads _ ["low"]).1.answers _).2 ⟨_, rfl, _, ⟨rfl, by decide⟩, rfl⟩
  · exact ((reads _ ["high"]).1.answers _).2 ⟨_, rfl, _, ⟨rfl, by decide⟩, rfl⟩
  · refine (reads _ ["high"]).1.refused.2 ⟨_, rfl, ?_⟩
    rintro a ⟨_, ⟨⟨⟩, holds⟩, -⟩
    exact absurd holds (by decide)
  · refine (reads _ ["float"]).1.refused.2 ⟨_, rfl, ?_⟩
    rintro a ⟨_, ⟨⟨⟩, -⟩, -⟩
  · exact ((reads byte ["null"]).2.1.answers _).2 ⟨_, rfl, .inl ⟨.inl rfl, rfl⟩⟩
  · refine (reads byte ["low"]).2.2.1 ?_
    rintro v ⟨⟩ (⟨⟨⟩⟩ | ⟨x, ⟨⟩, -⟩)
  · refine ((reads byte ["items"]).2.2.2.1.answers _).2
      ⟨_, rfl, _, [-128, 127], rfl, .cons ⟨rfl, by decide⟩ (.cons ⟨rfl, by decide⟩ .nil), rfl⟩
  · refine (reads byte ["map"]).2.2.2.2.refused.2 ⟨_, rfl, ?_⟩
    rintro a ⟨_, _, ⟨⟩, takes, -⟩
    obtain _ | ⟨-, _ | ⟨⟨-, integer, holds⟩, -⟩⟩ := takes
    rw [← Option.some.inj integer] at holds
    exact absurd holds (by decide)
  · exact (reads byte ["map", "y"]).1.missing.2 rfl
  · exact (signed 8 (by decide) _).2 ⟨-128, rfl⟩
  · decide

/-- A number that JSON has no text for passes for a null where a setting may be missing, though it
is none and is refused as an integer. -/
theorem not_only_null_is_missing : ¬ ∀ (p : Program) (i : ResolverId) (path : List String)
    (v : Value), (p.get i path).2 = .ok v → v ≠ .null →
      (p.getAs i path (.optional (.integer (.signed 64)))).2 =
        (p.getAs i path (.integer (.signed 64))).2 := by
  intro claimed
  let d : Document := ⟨[⟨"layer", none, [("x", .number (.float (0 / 0)))]⟩], 1, by decide⟩
  let p := (Program.openDocument {} d Facts.none).1
  have known : p.resolvers[0]? = some (.create none Facts.none d) := rfl
  have blank : Value.Blank (.number (.float (0 / 0))) := .inr ⟨_, rfl, by decide⟩
  have optional : (p.getAs 0 ["x"] (.optional (.integer (.signed 64)))).2 = .ok .null :=
    ((readsAs known (IntegerType.read_optional_iff _)).answers _).2 ⟨_, rfl, .inl ⟨blank, rfl⟩⟩
  have plain := claimed p 0 ["x"] _ rfl nofun
  rw [optional] at plain
  obtain ⟨v, found, n, ⟨integer, -⟩, -⟩ :=
    ((readsAs known (IntegerType.read_integer_iff _)).answers _).1 plain.symm
  cases found
  cases integer

end Program
end LayeredSettings
