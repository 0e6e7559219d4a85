import LayeredSettings.Proofs.Program.Records

/-!
Rounds run to their end.

Callbacks may register, cancel and panic, and start rounds of their own. A round calls what was live
when it began all the same, and every round inside of it is over before it.
-/

namespace LayeredSettings.Program

/-- What the marks tell stays so, no earlier round is added to, and every round that began meanwhile
is over. -/
def Lawful (p q : Program) : Prop :=
  p.Recorded → q.Recorded ∧ Grown (fun _ => False) p.trace q.trace

theorem Lawful.trans {p q r : Program} (h : Lawful p q) (h' : Lawful q r) : Lawful p r := by
  intro recorded
  obtain ⟨hq, hgrown⟩ := h recorded
  obtain ⟨hr, hgrown'⟩ := h' hq
  exact ⟨hr, hgrown.trans hgrown' fun _ hongoing => hongoing.elim⟩

theorem Lawful.of_unmarked {p q : Program} (h : Unmarked p q) : Lawful p q := by
  intro recorded
  have htrace : q.trace = p.trace := congrArg List.reverse h.journal
  exact ⟨recorded.unmarked h, htrace ▸ .refl _ _⟩

theorem Recorded.length_callbacks_le {p q : Program} {ongoing : Nat → Prop} (hp : p.Recorded)
    (hq : q.Recorded) (h : Grown ongoing p.trace q.trace) :
    p.callbacks.length ≤ q.callbacks.length := by
  obtain ⟨new, hnew, -⟩ := h.added
  have hids := hq.ids
  rw [hnew, List.filterMap_append, hp.ids] at hids
  have hlength := congrArg List.length hids
  simp only [List.length_append, List.length_range] at hlength
  omega

/-- What a round has done when it has called some of its slots. -/
structure Underway (round : Nat) (slots : List (Nat × CallbackId)) (p q : Program) (n m : Nat) :
    Prop where
  recorded : q.Recorded
  grown : Grown (· = round) p.trace q.trace
  calls : callsOf round q.trace = callsOf round p.trace ++ slots
  completed : ∃ done : List Nat, done.Sublist (slots.map Prod.fst) ∧
    completionsOf round q.trace = completionsOf round p.trace ++ done ∧ m = n + done.length
  ended : (marksOf round q.trace).filterMap Mark.ended? =
    (marksOf round p.trace).filterMap Mark.ended?

section
variable {p q : Program} {round : Nat} {owner : Owner} (recorded : p.Recorded)
  (hbegan : p.trace[round]? = some (.began owner))
include recorded hbegan

theorem Recorded.called {slot : Nat × CallbackId} (known : slot.2 < p.callbacks.length)
    (hcall : Lawful (p.enter slot.2 (.called round slot.1 slot.2)) q) :
    q.Recorded ∧ Grown (· = round) p.trace q.trace ∧
      marksOf round q.trace = marksOf round p.trace ++ [.called round slot.1 slot.2] ∧
      p.callbacks.length ≤ q.callbacks.length := by
  have entered : (p.enter slot.2 (.called round slot.1 slot.2)).Recorded := by
    refine recorded.enter known rfl (by simp) (fun d => rfl) (by simp) fun k hk => ?_
    obtain rfl := Option.some.inj hk
    exact ⟨owner, hbegan⟩
  obtain ⟨hq, hgrown⟩ := hcall entered
  obtain ⟨hround, -⟩ := List.getElem?_eq_some_iff.1 hbegan
  have hentered : Grown (· = round) p.trace
      (p.enter slot.2 (.called round slot.1 slot.2)).trace := by
    rw [trace_enter]
    refine .concat _ (by simp) fun k hk => ?_
    exact (Option.some.inj hk).symm
  have hlater : Grown (· = round) p.trace q.trace :=
    hentered.trans (hgrown.mono fun _ hnone => hnone.elim) fun k hk => hk ▸ hround
  refine ⟨hq, hlater, ?_, recorded.length_callbacks_le hq hlater⟩
  rw [hgrown.marksOf_eq (Nat.lt_of_lt_of_le hround hentered.length_le) (fun hnone => hnone),
    trace_enter, marksOf_append]
  congr 1
  simp [marksOf, Mark.round?]

end

namespace Underway

theorem refl {p : Program} (recorded : p.Recorded) (round n : Nat) : Underway round [] p p n n where
  recorded := recorded
  grown := .refl _ _
  calls := (List.append_nil _).symm
  completed := ⟨[], .slnil, (List.append_nil _).symm, rfl⟩
  ended := rfl

theorem trans {round : Nat} {slots slots' : List (Nat × CallbackId)} {p q r : Program}
    {n m l : Nat} (h : Underway round slots p q n m) (h' : Underway round slots' q r m l)
    (hround : round < p.trace.length) : Underway round (slots ++ slots') p r n l where
  recorded := h'.recorded
  grown := h.grown.trans h'.grown fun _ hsame => hsame ▸ hround
  calls := by rw [h'.calls, h.calls, List.append_assoc]
  completed := by
    obtain ⟨done, hsublist, hcompletions, hm⟩ := h.completed
    obtain ⟨done', hsublist', hcompletions', hl⟩ := h'.completed
    refine ⟨done ++ done', ?_, ?_, ?_⟩
    · rw [List.map_append]
      exact hsublist.append hsublist'
    · rw [hcompletions', hcompletions, List.append_assoc]
    · rw [hl, hm, List.length_append, Nat.add_assoc]
  ended := h'.ended.trans h.ended

/-- What is left of a round starts from where the call of its first slot ends. -/
theorem cons {round : Nat} {owner : Owner} {slot : Nat × CallbackId}
    {slots : List (Nat × CallbackId)} {p q r : Program} {n m l : Nat}
    (h : Underway round [slot] p q n m) (recorded : p.Recorded)
    (hbegan : p.trace[round]? = some (.began owner))
    (known : ∀ later ∈ slot :: slots, later.2 < p.callbacks.length)
    (rest : q.Recorded → q.trace[round]? = some (.began owner) →
      (∀ later ∈ slots, later.2 < q.callbacks.length) → Underway round slots q r m l) :
    Underway round (slot :: slots) p r n l := by
  obtain ⟨hround, -⟩ := List.getElem?_eq_some_iff.1 hbegan
  have hlength := recorded.length_callbacks_le h.recorded h.grown
  refine h.trans (rest h.recorded (h.grown.getElem?_eq_some hbegan) fun later member => ?_) hround
  exact Nat.lt_of_lt_of_le (known later (List.mem_cons_of_mem _ member)) hlength

section
variable {p q : Program} {round : Nat} {owner : Owner} {slot : Nat × CallbackId} {n : Nat}
  (recorded : p.Recorded) (hbegan : p.trace[round]? = some (.began owner))
  (known : slot.2 < p.callbacks.length)
  (hcall : Lawful (p.enter slot.2 (.called round slot.1 slot.2)) q)
include recorded hbegan known hcall

theorem completed_one : Underway round [slot] p (q.mark (.completed round slot.1)) n (n + 1) := by
  obtain ⟨hq, hgrown, hmarks, -⟩ := recorded.called hbegan known hcall
  have hmarked : marksOf round (q.mark (.completed round slot.1)).trace =
      marksOf round p.trace ++ [.called round slot.1 slot.2, .completed round slot.1] := by
    have hlast : marksOf round [.completed round slot.1] = [.completed round slot.1] := by
      simp [marksOf, Mark.round?]
    rw [trace_mark, marksOf_append, hmarks, hlast, List.append_assoc]
    rfl
  obtain ⟨hround, -⟩ := List.getElem?_eq_some_iff.1 hbegan
  constructor
  case recorded =>
    refine hq.mark rfl (by simp) (fun c => rfl) fun k hk => ?_
    obtain rfl := Option.some.inj hk
    exact ⟨owner, hgrown.getElem?_eq_some hbegan⟩
  case grown =>
    rw [trace_mark]
    refine hgrown.trans (.concat _ (by simp) fun k hk => ?_) fun k hk => hk ▸ hround
    exact (Option.some.inj hk).symm
  case calls =>
    rw [callsOf, hmarked, List.filterMap_append]
    rfl
  case completed =>
    refine ⟨[slot.1], .refl _, ?_, rfl⟩
    rw [completionsOf, hmarked, List.filterMap_append]
    rfl
  case ended =>
    rw [hmarked, List.filterMap_append]
    exact List.append_nil _

theorem panicked_one (message : Option String) :
    Underway round [slot] p (q.log (.panicked slot.1 message)) n n := by
  obtain ⟨hq, hgrown, hmarks, -⟩ := recorded.called hbegan known hcall
  constructor
  case recorded =>
    exact hq.unmarked ⟨fun exist => ⟨exist.settings, exist.registries, exist.installed⟩,
      fun owner => by cases owner <;> rfl, rfl, rfl⟩
  case grown => exact hgrown
  case calls =>
    show callsOf round q.trace = _
    simp [callsOf, hmarks, Mark.called?]
  case completed =>
    refine ⟨[], List.nil_sublist _, ?_, rfl⟩
    show completionsOf round q.trace = _
    simp [completionsOf, hmarks, Mark.completed?]
  case ended =>
    show (marksOf round q.trace).filterMap Mark.ended? = _
    simp [hmarks, Mark.ended?]

end
end Underway

theorem Calls.underway {round : Nat} {owner : Owner} {slots : List (Nat × CallbackId)}
    {s t : Program × Nat} (called : Calls Lawful round slots s t) (recorded : s.1.Recorded)
    (hbegan : s.1.trace[round]? = some (.began owner))
    (known : ∀ slot ∈ slots, slot.2 < s.1.callbacks.length) :
    Underway round slots s.1 t.1 s.2 t.2 := by
  induction called with
  | nil s => exact .refl recorded round s.2
  | @completed p q n slot slots t hcall _ ih =>
    have hslot := known slot (List.mem_cons_self ..)
    have hfirst := Underway.completed_one (n := n) recorded hbegan hslot hcall
    exact hfirst.cons recorded hbegan known ih
  | @panicked p q n slot slots t message hcall _ ih =>
    have hslot := known slot (List.mem_cons_self ..)
    have hfirst := Underway.panicked_one (n := n) recorded hbegan hslot hcall message
    exact hfirst.cons recorded hbegan known ih

/-- A round is over when all its slots have been called and their completions counted. -/
theorem Underway.roundDone {p q : Program} {owner : Owner} {completed : Nat}
    (recorded : p.Recorded) (h : Underway p.trace.length (p.registry owner).live
      (p.mark (.began owner)) q 0 completed) :
    RoundDone (q.mark (.ended p.trace.length completed)).trace p.trace.length owner := by
  have hbefore : marksOf p.trace.length (p.mark (.began owner)).trace = [] := by
    rw [trace_mark, marksOf_append, recorded.orderly.marksOf_eq_nil]
    rfl
  have hmarks : marksOf p.trace.length (q.mark (.ended p.trace.length completed)).trace =
      marksOf p.trace.length q.trace ++ [.ended p.trace.length completed] := by
    have hlast : marksOf p.trace.length [.ended p.trace.length completed] =
        [.ended p.trace.length completed] := by simp [marksOf, Mark.round?]
    rw [trace_mark, marksOf_append, hlast]
  have hcalls : callsOf p.trace.length (q.mark (.ended p.trace.length completed)).trace =
      (p.registry owner).live := by
    rw [callsOf, hmarks, List.filterMap_append, ← callsOf, h.calls, callsOf, hbefore]
    exact List.append_nil _
  obtain ⟨done, hsublist, hcompletions, hcount⟩ := h.completed
  have hdone : completionsOf p.trace.length (q.mark (.ended p.trace.length completed)).trace =
      done := by
    rw [completionsOf, hmarks, List.filterMap_append, ← completionsOf, hcompletions, completionsOf,
      hbefore]
    exact List.append_nil _
  have hstart : (q.mark (.ended p.trace.length completed)).trace.take p.trace.length =
      p.trace := by
    obtain ⟨new, hnew, -⟩ := h.grown.added
    rw [trace_mark, hnew, trace_mark, List.append_assoc, List.append_assoc, List.take_left']
    rfl
  constructor
  case mem_calls =>
    intro handle c
    rw [hcalls, hstart, Registry.mem_live, recorded.slots]
  case increasing =>
    rw [hcalls]
    exact (p.registry owner).pairwise_live
  case completed =>
    rw [hcalls, hdone]
    exact hsublist
  case ended =>
    rw [hmarks, List.filterMap_append, h.ended, hbefore, hdone]
    simp [Mark.ended?, hcount]

/-- A round that runs to its end is over, whatever its callbacks did. -/
theorem lawful_round {p q : Program} {owner : Owner} {completed : Nat}
    (called : Calls Lawful p.journal.length (p.registry owner).live (p.mark (.began owner), 0)
      (q, completed)) : Lawful p (q.mark (.ended p.journal.length completed)) := by
  intro recorded
  rw [← length_trace] at called ⊢
  have began : (p.mark (.began owner)).Recorded :=
    recorded.mark rfl (by simp) (fun c => rfl) (by simp [Mark.round?])
  have hbegan : (p.mark (.began owner)).trace[p.trace.length]? = some (.began owner) := by simp
  have underway := called.underway began hbegan fun slot member => recorded.known_of_live member
  have hround := underway.grown.getElem?_eq_some hbegan
  constructor
  · refine underway.recorded.mark rfl (by simp) (fun c => rfl) fun k hk => ?_
    obtain rfl := Option.some.inj hk
    exact ⟨owner, hround⟩
  · have hended : Grown (· = p.trace.length) q.trace
        (q.mark (.ended p.trace.length completed)).trace := by
      rw [trace_mark]
      apply Grown.concat
      · simp
      · exact fun k hk => (Option.some.inj hk).symm
    have hgrown := underway.grown.trans hended fun k hk => by simp [hk]
    rw [trace_mark] at hgrown
    exact hgrown.of_began (underway.roundDone recorded)

theorem lawful_register (p : Program) (owner : Owner) (callback : Callback)
    (known : p.NamesExist → p.Has owner) : Lawful p (p.register owner callback).1 := by
  intro recorded
  refine ⟨recorded.register (known recorded.exist) callback, ?_⟩
  rw [trace_register]
  exact .concat _ (by simp) (by simp [Mark.round?])

theorem lawful_cancel (p : Program) (owner : Owner) (handle : Nat) :
    Lawful p (p.cancel owner handle) := by
  intro recorded
  refine ⟨recorded.cancel owner handle, ?_⟩
  rw [trace_cancel]
  exact .concat _ (by simp) (by simp [Mark.round?])

theorem lawful_atOnce (p : Program) (owner : Owner) (callback : Callback)
    (known : p.NamesExist → p.Has owner) :
    Lawful p ((p.register owner callback).1.enter p.callbacks.length
      (.calledAtOnce p.callbacks.length)) := by
  intro recorded
  obtain ⟨registered, hgrown⟩ := lawful_register p owner callback known recorded
  have htrace := p.trace_register owner callback
  have hlast : ∃ n other handle, (p.register owner callback).1.trace.length = n + 1 ∧
      (p.register owner callback).1.trace[n]? =
        some (.registered other handle p.callbacks.length) :=
    ⟨p.trace.length, owner, (p.registry owner).size, by simp [htrace], by simp [htrace]⟩
  constructor
  · refine registered.enter ?_ rfl (by simp) (fun d => rfl) (fun d hd => ?_) (by simp [Mark.round?])
    · simp [callbacks_register]
    · obtain rfl := Mark.calledAtOnce.inj hd
      exact hlast
  · rw [trace_enter]
    exact hgrown.trans (.concat _ (by simp) (by simp [Mark.round?])) fun _ hnone => hnone.elim

theorem maintained_lawful : Maintained Lawful :=
  .of_unmarked .of_unmarked .trans lawful_register lawful_atOnce lawful_cancel lawful_round

theorem lawful_invokeAllWith (p : Program) (depth : Nat) (owner : Owner) :
    Lawful p (p.invokeAllWith (runWithin depth) owner).1 := by
  obtain ⟨q, completed, each, hq⟩ := exists_runsEach_invokeAllWith (runWithin depth) p owner
  rw [hq]
  exact lawful_round (each.calls (maintained_lawful.respected.runWithin depth))

theorem lawful_after (p : Program) (run : List Action) : Lawful p (p.after run) :=
  maintained_lawful.after_of_unmarked .of_unmarked p run

theorem recorded_start : ({} : Program).Recorded := by
  constructor
  case exist => constructor <;> simp
  case handles => exact fun owner => by cases owner <;> rfl
  case slots =>
    intro owner handle c
    refine iff_of_false ?_ ?_
    · cases owner <;> simp [registry]
    · rintro ⟨before, after, heq, -⟩
      simp [trace] at heq
  case ids => rfl
  case runs => exact fun c => rfl
  case orderly => constructor <;> simp [trace]

end LayeredSettings.Program
