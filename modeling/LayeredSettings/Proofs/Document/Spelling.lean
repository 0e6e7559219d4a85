import LayeredSettings.Resolution
import LayeredSettings.Proofs.Document.Acceptance
import LayeredSettings.Proofs.Value.Ordered
import LayeredSettings.Proofs.Value.Text

/-!
Spellings of a document.

The fields of a layer may be spelled in different ways, null may stand for a field that is absent,
and keys that name no field are passed over. Each layer has one canonical spelling, a flat map of
just its fields, and is read like it. So documents with the same canonical spelling are the same.
-/

namespace LayeredSettings

namespace KeyMap

variable {α : Type} {m : KeyMap (Option α)}

/-- The entries that hold something. -/
def present : KeyMap (Option α) → KeyMap α
  | [] => []
  | (_, none) :: rest => present rest
  | (key, some value) :: rest => (key, value) :: present rest

theorem mem_present {e : String × α} : e ∈ present m ↔ (e.1, some e.2) ∈ m := by
  fun_induction present m with
  | case1 => simp
  | case2 key rest ih => simp [ih]
  | case3 key value rest ih => simp [ih, Prod.ext_iff]

theorem Ordered.present (ordered : Ordered m) : Ordered (present m) := by
  fun_induction KeyMap.present m with
  | case1 => exact List.Pairwise.nil
  | case2 key rest ih => exact ih (List.pairwise_cons.1 ordered).2
  | case3 key value rest ih =>
    obtain ⟨first, later⟩ := List.pairwise_cons.1 ordered
    exact List.pairwise_cons.2 ⟨fun e member => first _ (mem_present.1 member), ih later⟩

theorem Ordered.get?_present (ordered : Ordered m) (key : String) :
    (KeyMap.present m).get? key = (m.get? key).join := by
  have found : ∀ value,
      (KeyMap.present m).get? key = some value ↔ (m.get? key).join = some value := by
    intro value
    rw [ordered.present.get?_eq_some_iff, mem_present, Option.join_eq_some_iff,
      ordered.get?_eq_some_iff]
  exact Option.ext found

end KeyMap

/-- What is present is found again where it is put, if nothing else is found behind it. -/
theorem firstPresent_firstPresent (places : List (Option Value)) {rest : List (Option Value)}
    (nothing : firstPresent rest = none) :
    firstPresent (firstPresent places :: rest) = firstPresent places := by
  fun_induction firstPresent places with
  | case1 => exact nothing
  | case2 later ih => exact ih
  | case3 later ih => exact ih
  | case4 v later present =>
    cases v with
    | null => exact (present rfl).elim
    | _ => rfl

namespace Element

/-- The fields of a layer under the names that they have in the flat spelling. -/
def named (m : KeyMap Value) : KeyMap (Option Value) :=
  [("end", end? m), ("name", name? m), ("settings", settings? m), ("target", target? m),
    ("version", version? m)]

/-- The canonical spelling of a layer has its fields only, each unless it is absent. -/
def flat (m : KeyMap Value) : KeyMap Value := KeyMap.present (named m)

theorem ordered_named (m : KeyMap Value) : KeyMap.Ordered (named m) := by
  refine List.pairwise_map.1 ?_
  show ["end", "name", "settings", "target", "version"].Pairwise (· < ·)
  decide

theorem get?_flat (m : KeyMap Value) (key : String) :
    (flat m).get? key = ((named m).get? key).join :=
  (ordered_named m).get?_present key

/-- The canonical spelling is a layer with the same fields. -/
theorem isMap_flat (m : KeyMap Value) : IsMap (.map (flat m)) (flat m) :=
  ⟨rfl, .inl (get?_flat m "meta")⟩

theorem nested?_flat (m : KeyMap Value) (key : String) : nested? (flat m) key = none := by
  rw [nested?, get?_flat]
  rfl

theorem firstPresent_flat {m : KeyMap Value} {key : String} {places rest : List (Option Value)}
    (field : (named m).get? key = some (firstPresent places))
    (nothing : firstPresent rest = none) :
    firstPresent ((flat m).get? key :: rest) = firstPresent places := by
  rw [get?_flat, field]
  exact firstPresent_firstPresent places nothing

theorem fields_flat (m : KeyMap Value) : fields (flat m) = fields m := by
  -- The other places in which a field may stand are empty in the flat spelling.
  have filename : (flat m).get? "filename" = none := get?_flat m "filename"
  have name : name? (flat m) = name? m :=
    firstPresent_flat rfl (by rw [filename]; rfl)
  have target : target? (flat m) = target? m := firstPresent_flat rfl rfl
  have settings : settings? (flat m) = settings? m := firstPresent_flat rfl rfl
  have version : version? (flat m) = version? m :=
    firstPresent_flat rfl (by rw [nested?_flat]; rfl)
  have isEnd : end? (flat m) = end? m :=
    firstPresent_flat rfl (by rw [nested?_flat, nested?_flat]; rfl)
  rw [fields, name, target, settings, version, isEnd]
  rfl

/-- A layer is read like its canonical spelling. -/
theorem ofValue_flat {v : Value} {m : KeyMap Value} (isMap : IsMap v m) :
    Layer.ofValue (.map (flat m)) = Layer.ofValue v := by
  rw [Layer.ofValue, Layer.ofValue, read_of_isMap isMap, read_of_isMap (isMap_flat m), fields_flat]

theorem named_flat (m : KeyMap Value) : named (flat m) = named m := by
  have same := fields_flat m
  simp only [fields, LayerFields.mk.injEq] at same
  obtain ⟨name, target, settings, version, isEnd⟩ := same
  rw [named, name, target, settings, version, isEnd]
  rfl

theorem flat_flat (m : KeyMap Value) : flat (flat m) = flat m := by
  rw [flat, named_flat]
  rfl

end Element

namespace Document

/-- Elements that are the same up to their spelling. -/
def Alike (v w : Value) : Prop :=
  v = w ∨ ∃ m n, Element.IsMap v m ∧ Element.IsMap w n ∧ Element.flat m = Element.flat n

theorem alike_flat {v : Value} {m : KeyMap Value} (isMap : Element.IsMap v m) :
    Alike v (.map (Element.flat m)) :=
  .inr ⟨m, _, isMap, Element.isMap_flat m, (Element.flat_flat m).symm⟩

theorem Alike.symm {v w : Value} (alike : Alike v w) : Alike w v := by
  rcases alike with same | ⟨m, n, left, right, same⟩
  · exact .inl same.symm
  · exact .inr ⟨n, m, right, left, same.symm⟩

theorem Alike.ofValue_eq {v w : Value} (alike : Alike v w) : Layer.ofValue v = Layer.ofValue w := by
  rcases alike with rfl | ⟨m, n, left, right, same⟩
  · rfl
  · rw [← Element.ofValue_flat left, ← Element.ofValue_flat right, same]

theorem ofValue_eq_ok_iff_of_alike {items others : List Value}
    (alike : List.Forall₂ Alike items others) (d : Document) :
    ofValue (.list items) = .ok d ↔ ofValue (.list others) = .ok d := by
  have same : items.map Layer.ofValue = others.map Layer.ofValue := by
    rw [← List.forall₂_eq_eq_eq, List.forall₂_map_left_iff, List.forall₂_map_right_iff]
    exact alike.imp fun _ _ => Alike.ofValue_eq
  simp only [ofValue_eq_ok_iff, check_eq_ok_iff, Value.list.injEq, exists_eq_left',
    forall₂_reads_iff_map, same]

/-- A layer is read like its canonical spelling: as the same layer, or with the same fault but for
the layer that is shown. Documents whose elements are spelled differently are the same document and
resolve alike, whatever format they are written in. -/
theorem spelling_does_not_matter :
    (∀ (m : KeyMap Value) (index : Nat), Element.IsMap (.map m) m →
      (Element.flat m).Ordered ∧
      ((∃ l, Layer.ofValueAt index (.map m) = .ok l ∧
        Layer.ofValueAt index (.map (Element.flat m)) = .ok l) ∨
      ∃ cause told,
        Layer.ofValueAt index (.map m) =
          .error (.layer index cause (some (Value.map m).text)) ∧
        Layer.ofValueAt index (.map (Element.flat m)) =
          .error (.layer index cause (some (Value.map (Element.flat m)).text)) ∧
        ∀ shown, (Fault.layer index cause (some shown)).message = told ++ " => " ++ shown)) ∧
    ∀ items others, List.Forall₂ Alike items others →
      (∀ d, ofValue (.list items) = .ok d ↔ ofValue (.list others) = .ok d) ∧
      ∀ (format other : Format) (text otherText : String),
        format.decode text = .ok (.list items) → other.decode otherText = .ok (.list others) →
        (∀ d, parse format text = .ok d ↔ parse other otherText = .ok d) ∧
        ∀ d e, parse format text = .ok d → parse other otherText = .ok e →
          ∀ facts path, d.resolve? facts path = e.resolve? facts path := by
  refine ⟨?_, ?_⟩
  · intro m index isMap
    refine ⟨(Element.ordered_named m).present, ?_⟩
    rw [Layer.ofValueAt, Layer.ofValueAt, Element.ofValue_flat isMap]
    cases read : Layer.ofValue (.map m) with
    | ok l => exact .inl ⟨l, rfl, rfl⟩
    | error cause =>
      exact .inr ⟨cause, _, rfl, rfl, fun shown => (String.append_assoc ..).symm⟩
  · intro items others alike
    have same := ofValue_eq_ok_iff_of_alike alike
    refine ⟨same, ?_⟩
    intro format other text otherText decoded otherDecoded
    have loaded : ∀ d, parse format text = .ok d ↔ parse other otherText = .ok d := by
      rw [parse, parse, decoded, otherDecoded]
      exact same
    refine ⟨loaded, ?_⟩
    intro d e found otherFound facts path
    cases ((loaded d).1 found).symm.trans otherFound
    rfl

/-- Both spellings in one document, with nulls, a key that names no field and an `end` that is
passed over, written as text; and a layer that is refused in either spelling. -/
theorem spelling_does_not_matter_mixed :
    let layer : KeyMap Value := [("filename", .string "a"), ("name", .null), ("note", .list []),
      ("settings", .map [("x", .null)]), ("target", .null)]
    let closing : KeyMap Value := [("end", .null), ("meta", .map [("END", .bool true),
      ("end", .bool false), ("version", .number (.int 3))])]
    let mixed : List Value := [.map layer, .map (Element.flat closing)]
    let other : List Value := [.map (Element.flat layer), .map closing]
    let faulty : KeyMap Value := [("meta", .map [("version", .string "3")])]
    List.Forall₂ Alike mixed other ∧ Element.IsMap (.map faulty) faulty ∧
      (∃ d, parse .json (Value.list mixed).text = .ok d ∧
        parse .json (Value.list other).text = .ok d) ∧
      Layer.ofValueAt 4 (.map (Element.flat faulty)) =
        .error (.layer 4 .versionNotInteger (some (Value.map (Element.flat faulty)).text)) := by
  intro layer closing mixed other faulty
  have isLayer : Element.IsMap (.map layer) layer := ⟨rfl, .inl rfl⟩
  have isClosing : Element.IsMap (.map closing) closing := ⟨rfl, .inr (.inr ⟨_, rfl⟩)⟩
  have isFaulty : Element.IsMap (.map faulty) faulty := ⟨rfl, .inr (.inr ⟨_, rfl⟩)⟩
  have alike : List.Forall₂ Alike mixed other :=
    .cons (alike_flat isLayer) (.cons (alike_flat isClosing).symm .nil)
  have written : ∀ v : Value, v.Ordered → (∀ n ∈ v.numbers, n.Whole) → v.depth ≤ 127 →
      Format.decode .json v.text = .ok v := by
    intro v ordered whole shallow
    rw [Format.decode, Value.readJson?_text ordered whole shallow]
    rfl
  have first := written (.list mixed) (by decide +kernel) (by decide +kernel) (by decide +kernel)
  have second := written (.list other) (by decide +kernel) (by decide +kernel) (by decide +kernel)
  obtain ⟨layers, documents⟩ := spelling_does_not_matter
  refine ⟨alike, isFaulty, ?_, ?_⟩
  · have accepted : parse .json (Value.list mixed).text =
        .ok ⟨[⟨"a", none, [("x", .null)]⟩], 3, by decide⟩ := by
      rw [parse, first]
      rfl
    obtain ⟨loaded, -⟩ := (documents mixed other alike).2 .json .json _ _ first second
    exact ⟨_, accepted, (loaded _).1 accepted⟩
  · rcases (layers faulty 4 isFaulty).2 with ⟨l, read, -⟩ | ⟨cause, told, refused, same, -⟩
    · cases read
    · cases refused
      exact same

end Document

end LayeredSettings
