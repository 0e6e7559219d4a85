import LayeredSettings.Proofs.Program.Counts
import LayeredSettings.Proofs.Program.Steps

/-!
The log and the journal tell of the same rounds.

A round of a resolver begins with a mark in the journal and ends with a line in the log. In between,
callbacks may cause further rounds, which are over before it. So between steps there are as many
lines as marks.
-/

namespace LayeredSettings

/-- Whether a round of a resolver begins. -/
def Mark.begins (i : ResolverId) : Mark → Bool
  | .began (.resolver j) => j = i
  | _ => false

namespace Program

/-- How many rounds of a resolver have begun. -/
def begun (p : Program) (i : ResolverId) : Nat := p.journal.countP (·.begins i)

/-- Since then as many rounds of each resolver have begun as have been logged. -/
def Tallied (p q : Program) : Prop :=
  ∀ i, q.begun i + (p.rounds i).length = p.begun i + (q.rounds i).length

namespace Tallied

theorem trans {p q r : Program} (h : Tallied p q) (h' : Tallied q r) : Tallied p r := by
  intro i
  have first := h i
  have second := h' i
  omega

theorem of_eq {p q : Program} (journal : q.journal = p.journal) (history : q.history = p.history) :
    Tallied p q := by
  intro i
  rw [begun, begun, rounds, rounds, journal, history]

theorem note (p : Program) {o : Occurrence} (aside : o.logsRound = false) :
    Tallied p (p.note o) := by
  intro i
  have unlogged : o.round? i = none := by
    unfold Occurrence.logsRound at aside
    unfold Occurrence.round?
    split <;> simp_all
  simp [begun, rounds, Program.note, unlogged]

theorem of_cons {p q : Program} {m : Mark} (journal : q.journal = m :: p.journal)
    (history : q.history = p.history) (aside : ∀ i, m.begins i = false) : Tallied p q := by
  intro i
  rw [begun, begun, rounds, rounds, journal, history,
    List.countP_cons_of_neg (Bool.eq_false_iff.1 (aside i))]

theorem mark (p : Program) {m : Mark} (aside : ∀ i, m.begins i = false) : Tallied p (p.mark m) :=
  of_cons rfl rfl aside

theorem enter (p : Program) (c : CallbackId) {m : Mark} (aside : ∀ i, m.begins i = false) :
    Tallied p (p.enter c m) := of_cons rfl rfl aside

theorem register (p : Program) (owner : Owner) (callback : Callback) :
    Tallied p (p.register owner callback).1 := by
  cases owner <;> exact of_cons rfl rfl fun _ => rfl

theorem cancel (p : Program) (owner : Owner) (handle : Nat) :
    Tallied p (p.cancel owner handle) := by
  cases owner <;> exact of_cons rfl rfl fun _ => rfl

theorem calls {round : Nat} {slots : List (Nat × CallbackId)} {s t : Program × Nat}
    (called : Calls Tallied round slots s t) : Tallied s.1 t.1 := by
  induction called with
  | nil s => exact of_eq rfl rfl
  | completed hcall _ ih =>
    exact ((enter _ _ fun _ => rfl).trans hcall).trans ((mark _ fun _ => rfl).trans ih)
  | panicked message hcall _ ih =>
    exact ((enter _ _ fun _ => rfl).trans hcall).trans ((note _ rfl).trans ih)

theorem round {p q : Program} {i : Nat} {completed : Nat}
    (called : Calls Tallied p.journal.length (p.registry (.registry i)).live
      (p.mark (.began (.registry i)), 0) (q, completed)) :
    Tallied p (q.mark (.ended p.journal.length completed)) :=
  ((mark p fun _ => rfl).trans (calls called)).trans (mark q fun _ => rfl)

/-- The line is logged after the rounds inside of this one. -/
theorem announce {p q : Program} {i : ResolverId} {completed : Nat} (number : Nat)
    (version : Int64)
    (called : Calls Tallied p.journal.length (p.registry (.resolver i)).live
      (p.mark (.began (.resolver i)), 0) (q, completed)) :
    Tallied p
      ((q.mark (.ended p.journal.length completed)).log (.invoked i number version completed)) := by
  intro j
  have inside : Tallied (p.mark (.began (.resolver i))) q := calls called
  have inside := inside j
  have kept : (p.mark (.began (.resolver i))).rounds j = p.rounds j := rfl
  have began : (p.mark (.began (.resolver i))).begun j = p.begun j + if i = j then 1 else 0 := by
    simp [begun, Program.mark, List.countP_cons, Mark.begins]
  have ended : (q.mark (.ended p.journal.length completed)).begun j = q.begun j := by
    simp [begun, Program.mark, Mark.begins]
  rw [kept, began] at inside
  rw [rounds_log_invoked, List.length_append]
  show (q.mark (.ended p.journal.length completed)).begun j + _ = _ + (_ + (q.rounds j).length)
  rw [ended]
  by_cases own : i = j
  · rw [if_pos own] at inside ⊢
    rw [List.length_singleton]
    omega
  · rw [if_neg own] at inside ⊢
    rw [List.length_nil]
    omega

theorem publish (p : Program) (i : ResolverId) (d : Document) : Tallied p (p.publish i d) := by
  unfold Program.publish
  split
  · exact (of_eq rfl rfl : Tallied p (p.modifyResolver i (·.publish d))).trans (note _ rfl)
  · exact of_eq rfl rfl

theorem endTask (p : Program) (w : WatchId) : Tallied p (p.endTask w) := by
  unfold Program.endTask
  split
  · split
    · exact (of_eq rfl rfl : Tallied p (p.modifyWatch w Watch.endTask)).trans (note _ rfl)
    · exact of_eq rfl rfl
  · exact of_eq rfl rfl

theorem requestStop (p : Program) (i : ResolverId) : Tallied p (p.requestStop i).1 := by
  unfold Program.requestStop
  split <;> exact of_eq rfl rfl

end Tallied

theorem maintained_tallied : Maintained Tallied where
  refl _ := .of_eq rfl rfl
  trans := .trans
  note := .note
  changeFiles _ _ := .of_eq rfl rfl
  refer _ := .of_eq rfl rfl
  addRegistry _ := .of_eq rfl rfl
  addResolver _ _ _ _ := .of_eq rfl rfl
  register p owner callback _ := .register p owner callback
  atOnce owner callback _ called :=
    (Tallied.register _ owner callback).trans ((Tallied.enter _ _ fun _ => rfl).trans called)
  cancel := .cancel
  round := .round
  announce := .announce
  publish := .publish
  tend _ := .of_eq rfl rfl
  endTask := .endTask
  stop _ := (Tallied.requestStop _ _).trans (.endTask _ _)

/-- After any run, every round of a resolver that has begun has been logged, and no other. -/
theorem length_rounds_ofRun (run : List Action) (i : ResolverId) :
    ((ofRun run).rounds i).length = (ofRun run).begun i := by
  have tallied : Tallied {} (ofRun run) :=
    maintained_tallied.after (fun _ _ _ _ _ => .of_eq rfl rfl) run (.inr .requestStop) {}
  have sums := tallied i
  have none : ({} : Program).begun i = 0 ∧ ({} : Program).rounds i = [] := ⟨rfl, rfl⟩
  rw [none.1, none.2, List.length_nil] at sums
  omega

end Program
end LayeredSettings
