import LayeredSettings.Targeting
import LayeredSettings.Toml.Content
import LayeredSettings.Proofs.Toml.Canonical
import LayeredSettings.Proofs.Value.Equality
import LayeredSettings.Proofs.Value.Integer
import LayeredSettings.Proofs.Yaml.Canonical
import Mathlib

/-!
Integers from different sources.

Every way in which values come about gives each integer the same form. So equal numbers are found
equal wherever they come from, and a fact meets the targets that ask for the same number.
-/

namespace LayeredSettings

namespace Number

/-- Two integers, each in the form that it has, are equal if they are the same number; no integer is
equal to a floating-point number. -/
theorem equal_iff_of_reduced {n m : Number} (reduced : n.Reduced) (alike : m.Reduced) {k : Int}
    (integer : n.integer? = some k) : n.equal m = true ↔ m.integer? = some k := by
  cases n with
  | float x => cases integer
  | int a =>
    cases integer
    cases m with
    | int b => rw [equal, beq_iff_eq, integer?, Option.some.injEq, Int64.toInt_inj, eq_comm]
    | uint b =>
      -- what has the unsigned form is above every integer with a sign
      have above : 0x7fffffffffffffff < b.toNat := UInt64.lt_iff_toNat_lt.1 alike
      have below : a.toInt < 2 ^ 63 := a.toInt_lt
      refine iff_of_false Bool.false_ne_true fun same => ?_
      have same : (b.toNat : Int) = a.toInt := Option.some.inj same
      omega
    | float y => exact iff_of_false Bool.false_ne_true (Option.some_ne_none _).symm
  | uint a =>
    cases integer
    cases m with
    | int b =>
      have above : 0x7fffffffffffffff < a.toNat := UInt64.lt_iff_toNat_lt.1 reduced
      have below : b.toInt < 2 ^ 63 := b.toInt_lt
      refine iff_of_false Bool.false_ne_true fun same => ?_
      have same : b.toInt = a.toNat := Option.some.inj same
      omega
    | uint b =>
      rw [equal, beq_iff_eq, integer?, Option.some.injEq, Int.natCast_inj, UInt64.toNat_inj,
        eq_comm]
    | float y => exact iff_of_false Bool.false_ne_true (Option.some_ne_none _).symm

theorem asInt64?_isSome_iff {n : Number} :
    n.asInt64?.isSome = true ↔
      ∃ k, n.integer? = some k ∧ Int64.minValue.toInt ≤ k ∧ k ≤ Int64.maxValue.toInt := by
  rw [Option.isSome_iff_exists]
  constructor
  · rintro ⟨a, found⟩
    exact ⟨a.toInt, asInt64?_eq_some_iff.1 found, a.minValue_le_toInt, a.toInt_le⟩
  · rintro ⟨k, integer, low, high⟩
    refine ⟨Int64.ofInt k, asInt64?_eq_some_iff.2 ?_⟩
    rw [integer, Int64.toInt_ofInt_of_le low (Int.lt_add_one_of_le high)]

end Number

namespace Value

/-- Values that come out of a decoder or a conversion, that are put together from such values, or
that are parts of one. -/
inductive Obtained : Value → Prop
  | yaml {text : String} {v : Value} (read : readYaml? text = some v) : Obtained v
  | json {text : String} {v : Value} (read : readJson? text = some v) : Obtained v
  | toml {text : String} {v : Value} (read : readToml? text = some v) : Obtained v
  /-- Converted from a tree. -/
  | tree (j : Json) : Obtained (ofJson j)
  /-- Built from the parts of a tree. -/
  | parts (j : Json) : Obtained (j.fold ofJsonParts)
  | null : Obtained .null
  | bool (b : Bool) : Obtained (.bool b)
  | signed (n : Int64) : Obtained (.number (.int n))
  | short (n : Int32) : Obtained (.number (.int n.toInt64))
  | unsigned (n : UInt64) : Obtained (.number (.ofUInt64 n))
  | float (x : Float) : Obtained (.number (.float x))
  | string (s : String) : Obtained (.string s)
  | list {items : List Value} (each : ∀ v ∈ items, Obtained v) : Obtained (.list items)
  | map {entries : KeyMap Value} (each : ∀ e ∈ entries, Obtained e.2) : Obtained (.map entries)
  | item {items : List Value} {v : Value} (whole : Obtained (.list items)) (member : v ∈ items) :
      Obtained v
  | entry {entries : KeyMap Value} {e : String × Value} (whole : Obtained (.map entries))
      (member : e ∈ entries) : Obtained e.2

theorem Obtained.reduced {v : Value} (obtained : v.Obtained) : v.Reduced := by
  induction obtained with
  | yaml read => exact (canonical_of_readYaml? read).reduced
  | json read => exact (canonical_of_readJson? read).reduced
  | toml read => exact (canonical_of_readToml? read).reduced
  | tree j => exact reduced_ofJson j
  | parts j => exact (canonical_fold j).reduced
  | null => exact reduced_null
  | bool b => exact reduced_bool b
  | signed n => exact reduced_number.2 trivial
  | short n => exact reduced_number.2 trivial
  | unsigned n => exact reduced_number.2 (Number.reduced_ofUInt64 n)
  | float x => exact reduced_number.2 trivial
  | string s => exact reduced_string s
  | list _ ih => exact reduced_list.2 ih
  | map _ ih => exact reduced_map.2 ih
  | item _ member ih => exact reduced_list.1 ih _ member
  | entry _ member ih => exact reduced_map.1 ih _ member

/-! ## Facts and targets -/

theorem meets_options_iff {n : Number} {options : List Value} :
    meets (.number n) (.list options) = true ↔ ∃ m, .number m ∈ options ∧ m.equal n = true := by
  show options.any (·.equal (.number n)) = true ↔ _
  rw [List.any_eq_true]
  constructor
  · rintro ⟨option, member, same⟩
    cases option with
    | number m => exact ⟨m, member, same⟩
    | _ => cases same
  · rintro ⟨m, member, same⟩
    exact ⟨.number m, member, same⟩

/-- Wherever two values come from, their integers have one form each at every depth, and all that
is asked of an integer depends on the number it stands for: whether it fits the signed range,
whether it is equal to a number in the other value, and whether as a fact it meets a number or a
list of options in a target. -/
theorem integers_have_one_form {v w : Value} (obtained : v.Obtained) (alike : w.Obtained) :
    v.Reduced ∧
    (∀ n ∈ v.numbers, (number n).asInt64?.isSome = true ↔
      ∃ k, n.integer? = some k ∧ Int64.minValue.toInt ≤ k ∧ k ≤ Int64.maxValue.toInt) ∧
    ∀ n ∈ v.numbers, ∀ k, n.integer? = some k →
      (∀ m ∈ w.numbers,
        ((number n).equal (number m) = true ↔ m.integer? = some k) ∧
        ((number m).equal (number n) = true ↔ m.integer? = some k) ∧
        (meets (number n) (number m) = true ↔ m.integer? = some k) ∧
        (meets (number m) (number n) = true ↔ m.integer? = some k)) ∧
      ∀ options, w = .list options →
        (meets (number n) w = true ↔ ∃ m, number m ∈ options ∧ m.integer? = some k) := by
  refine ⟨obtained.reduced, fun n _ => Number.asInt64?_isSome_iff, ?_⟩
  intro n held k integer
  have reduced : n.Reduced := obtained.reduced n held
  have same {m : Number} (member : m ∈ w.numbers) : n.equal m = true ↔ m.integer? = some k :=
    Number.equal_iff_of_reduced reduced (alike.reduced m member) integer
  have turned {m : Number} (member : m ∈ w.numbers) : m.equal n = true ↔ m.integer? = some k := by
    rw [Number.equal_comm, same member]
  constructor
  · intro m member
    exact ⟨same member, turned member, turned member, same member⟩
  · rintro options rfl
    rw [meets_options_iff]
    have inside {m : Number} (member : number m ∈ options) : m ∈ (list options).numbers :=
      mem_numbersOfItems_iff.2 ⟨number m, member, List.mem_singleton_self m⟩
    constructor
    · rintro ⟨m, member, equal⟩
      exact ⟨m, member, (turned (inside member)).1 equal⟩
    · rintro ⟨m, member, equal⟩
      exact ⟨m, member, (turned (inside member)).2 equal⟩

/-- A fact from TOML meets the same number in a target from YAML, but not the next one, which has
the unsigned form; and it meets an option that was converted from an unsigned integer. -/
theorem integers_have_one_form_limits :
    let fact := number (.int Int64.maxValue)
    let next := Number.uint (Int64.maxValue.toUInt64 + 1)
    let options := [number (.float 1), number (.ofUInt64 Int64.maxValue.toUInt64)]
    ∃ facts target, readToml? "n = 9223372036854775807" = some facts ∧
      readYaml? "[9223372036854775807, 9223372036854775808, 1.0]" = some target ∧
      facts.numbers = [.int Int64.maxValue] ∧
      target.numbers = [.int Int64.maxValue, next, .float 1] ∧
      meets fact fact = true ∧ meets fact (number next) = false ∧
      meets fact (.list options) = true := by
  intro fact next options
  have toml : (readToml? "n = 9223372036854775807").map numbers = some [.int Int64.maxValue] := by
    decide +kernel
  have yaml : (readYaml? "[9223372036854775807, 9223372036854775808, 1.0]").map numbers =
      some [.int Int64.maxValue, next, .float 1] := by
    have tokens : Yaml.Token.read? "[9223372036854775807, 9223372036854775808, 1.0]" =
        some [.flowSequenceStart, .scalar "9223372036854775807" true, .flowEntry,
          .scalar "9223372036854775808" true, .flowEntry, .scalar "1.0" true, .flowSequenceEnd,
          .streamEnd] := by cbv
    have document : Yaml.Written.document? [.flowSequenceStart, .scalar "9223372036854775807" true,
        .flowEntry, .scalar "9223372036854775808" true, .flowEntry, .scalar "1.0" true,
        .flowSequenceEnd, .streamEnd] = some (some (⟨none, []⟩, .sequence none none
          [.scalar none none "9223372036854775807" true,
            .scalar none none "9223372036854775808" true, .scalar none none "1.0" true])) := by cbv
    rw [readYaml?, tokens, Option.bind_eq_bind, Option.bind_some, document]
    decide +kernel
  obtain ⟨facts, readFacts, held⟩ := Option.map_eq_some_iff.1 toml
  obtain ⟨target, readTarget, wanted⟩ := Option.map_eq_some_iff.1 yaml
  have member : Number.int Int64.maxValue ∈ facts.numbers := by
    rw [held]
    exact List.mem_singleton_self _
  have chosen : ∀ option ∈ options, Obtained option :=
    List.forall_mem_cons.2 ⟨.float 1, List.forall_mem_singleton.2 (.unsigned _)⟩
  obtain ⟨-, -, parsed⟩ := integers_have_one_form (.toml readFacts) (.yaml readTarget)
  obtain ⟨-, -, converted⟩ := integers_have_one_form (.toml readFacts) (.list chosen)
  have compared := (parsed (.int Int64.maxValue) member Int64.maxValue.toInt rfl).1
  rw [wanted] at compared
  refine ⟨facts, target, readFacts, readTarget, held, wanted, ?_, ?_, ?_⟩
  · exact (compared _ (List.mem_cons_self ..)).2.2.1.2 rfl
  · have unequal := (compared next (List.mem_cons_of_mem _ (List.mem_cons_self ..))).2.2.1
    exact Bool.eq_false_iff.2 fun met => absurd (unequal.1 met) (by decide)
  · refine ((converted (.int Int64.maxValue) member Int64.maxValue.toInt rfl).2 options rfl).2 ?_
    exact ⟨_, List.mem_cons_of_mem _ (List.mem_singleton_self _), by decide⟩

end Value
end LayeredSettings
