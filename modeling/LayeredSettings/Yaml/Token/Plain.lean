import LayeredSettings.Yaml.Token.Quoted

/-!
Plain scalars.
-/

namespace LayeredSettings.Yaml

def isFlowIndicator (c : Char) : Bool :=
  c = ',' || c = '[' || c = ']' || c = '{' || c = '}'

/-- A plain scalar: its text, the place after it, and whether line breaks came last. Inside a flow
collection it also ends at an indicator, and a colon just before an indicator is refused; outside,
it ends at a line indented less than `indent`. -/
def plainScalar? (flow : Bool) (indent : Int) (gap : Gap) (text : List Char) (c : Cursor) :
    Option (List Char × Bool × Cursor) :=
  match _hrest : c.rest with
  | [] => some (text.reverse, gap.hasLines, c)
  | ch :: rest =>
    if isBlank ch then
      if gap.hasLines ∧ c.column < indent ∧ ch = '\t' then none
      else plainScalar? flow indent (gap.addBlank ch) text (c.advance 1)
    else match _hbreak : c.takeBreak? with
      | some (b, next) => plainScalar? flow indent (gap.addBreak b) text next
      | none =>
        let next := rest.head?
        if !gap.isNone ∧ ((!flow ∧ c.column < indent) ∨ c.atDocumentMark ∨ ch = '#') then
          some (text.reverse, gap.hasLines, c)
        else if flow ∧ ch = ':' ∧ next.any (fun n => isFlowIndicator n || n = '?') then none
        else if (ch = ':' ∧ isGap next) ∨ (flow ∧ isFlowIndicator ch) then
          some (text.reverse, gap.hasLines, c)
        else plainScalar? flow indent .none (ch :: (gap.folded.reverse ++ text)) (c.advance 1)
termination_by c.rest.length
decreasing_by
  all_goals try simp only [Cursor.rest_advance, _hrest, List.length_drop, List.length_cons]
  any_goals omega
  · have := Cursor.takeBreak?_length _hbreak
    simpa [_hrest] using this

end LayeredSettings.Yaml
