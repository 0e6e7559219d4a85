import LayeredSettings.Proofs.Program.Counts
import LayeredSettings.Proofs.Program.Steps

/-!
Every publication has one round.

Reloads that run their round at once leave the books balanced: what they published has had its round
when they are over, also if callbacks reload in turn. Only the reload task and the dispatcher of a
watch do half of the work each, with a queue between them.
-/

namespace LayeredSettings.Program

open scoped List

theorem number_eq {p : Program} {i : ResolverId} {r : Resolver} (hr : p.resolvers[i]? = some r) :
    p.number i = r.latest.number := by
  simp [number, hr]

/-- Every publication since then has had one round, no other round has run, and no queue of
publications has changed, though watches may have been started. -/
structure Balanced (p q : Program) : Prop where
  waiting : ∃ started : List ResolverId, q.waiting = p.waiting ++ started.map (·, [])
  rounds : ∀ i, ∃ n, q.number i = p.number i + n ∧ q.reloads i = p.reloads i + n ∧
    q.rounds i ~ List.range' (p.number i + 1) n ++ p.rounds i

theorem Quiet.balanced {p q : Program} (h : Quiet p q) : Balanced p q where
  waiting := ⟨[], by simp [h.waiting]⟩
  rounds i := ⟨0, h.number i, h.reloads i, by simp [h.rounds i]⟩

namespace Balanced

theorem trans {p q r : Program} (h : Balanced p q) (h' : Balanced q r) : Balanced p r where
  waiting := by
    obtain ⟨started, hq⟩ := h.waiting
    obtain ⟨later, hr⟩ := h'.waiting
    exact ⟨started ++ later, by rw [hr, hq, List.append_assoc, List.map_append]⟩
  rounds i := by
    obtain ⟨n, hnumber, hreloads, hrounds⟩ := h.rounds i
    obtain ⟨m, hnumber', hreloads', hrounds'⟩ := h'.rounds i
    refine ⟨n + m, by omega, by omega, hrounds'.trans ?_⟩
    have hrange : List.range' (p.number i + 1) (n + m) =
        List.range' (p.number i + 1) n ++ List.range' (q.number i + 1) m := by
      rw [hnumber, Nat.add_right_comm, List.range'_append_1]
    rw [hrange]
    calc List.range' (q.number i + 1) m ++ q.rounds i
      _ ~ List.range' (q.number i + 1) m ++ (List.range' (p.number i + 1) n ++ p.rounds i) :=
        hrounds.append_left _
      _ ~ List.range' (p.number i + 1) n ++ List.range' (q.number i + 1) m ++ p.rounds i := by
        rw [← List.append_assoc]
        exact List.perm_append_comm.append_right _

/-- The round of a publication comes after all rounds inside of it. -/
theorem publish {p q : Program} {i : ResolverId} {r : Resolver} (hr : p.resolvers[i]? = some r)
    (d : Document) (version : Int64) (completed : Nat) (h : Balanced (p.publish i d) q) :
    Balanced p (q.log (.invoked i (r.latest.number + 1) version completed)) where
  waiting := by
    obtain ⟨started, hq⟩ := h.waiting
    rw [waiting_publish] at hq
    exact ⟨started, hq⟩
  rounds j := by
    obtain ⟨n, hnumber, hreloads, hrounds⟩ := h.rounds j
    rw [number_publish hr] at hnumber hrounds
    rw [reloads_publish hr] at hreloads
    rw [rounds_publish hr] at hrounds
    simp only [rounds_log_invoked, reloads_log_invoked, number_log]
    -- The rounds inside have the later numbers, so the round of this publication comes first.
    by_cases hij : i = j
    · subst hij
      simp only [if_true] at hnumber hreloads hrounds ⊢
      refine ⟨n + 1, by omega, by omega, ?_⟩
      rw [List.range'_succ, ← number_eq hr]
      exact hrounds.cons _
    · simp only [if_neg hij] at hnumber hreloads hrounds ⊢
      exact ⟨n, hnumber, hreloads, hrounds⟩

theorem indifferent : Indifferent Balanced where
  refl p := (Quiet.refl p).balanced
  trans h h' := h.trans h'
  record p text := (Quiet.note rfl p).balanced
  panic p handle message := (Quiet.note rfl p).balanced
  mark p m := (Quiet.of_eq rfl rfl rfl : Quiet p (p.mark m)).balanced
  enter p c m := (Quiet.of_eq rfl rfl rfl : Quiet p (p.enter c m)).balanced
  register p owner callback := (Quiet.register p owner callback).balanced
  cancel p owner handle := (Quiet.cancel p owner handle).balanced
  rebind p change := by
    rw [p.rebind_eq change]
    exact Quiet.balanced (.of_eq rfl rfl rfl)
  reload completed hq h := by
    obtain ⟨r, source, hr, -, -, hnumber, rfl⟩ := reloadDocument_eq_ok hq
    rw [hnumber]
    exact publish hr _ _ _ h

theorem respected : Respected Balanced := indifferent.respected

theorem startWatch (p : Program) (i : ResolverId) (notifier : Source → Notifier)
    (hasRuntime : Bool) : Balanced p (p.startWatch i notifier hasRuntime).1 := by
  rcases p.startWatch_eq i notifier hasRuntime with
    ⟨fault, hrefused⟩ | ⟨source, q, hears, -, -, hq, hstarted⟩
  · rw [hrefused]
    exact (Quiet.refl p).balanced
  · rw [hstarted]
    have hadd : Balanced q { q with watches := q.watches ++ [{ resolver := i, hears }] } :=
      { waiting := ⟨[i], by simp [Program.waiting]⟩
        rounds := fun j => ⟨0, rfl, rfl, .refl _⟩ }
    have hstate := Quiet.modifyResolver
      (fun r => { r with watch := .watching q.watches.length }) (fun _ => rfl)
      { q with watches := q.watches ++ [{ resolver := i, hears }] } i
    exact (Quiet.subscribe hq).balanced.trans
      (hadd.trans (hstate.trans (Quiet.note rfl _)).balanced)

theorem openConfig (p : Program) (c : Config) (hasRuntime : Bool) (watchable : String → Bool) :
    Balanced p (p.openConfig c hasRuntime watchable).1 := by
  cases hfacts : c.facts with
  | error fault =>
    rw [Program.openConfig, hfacts]
    exact (Quiet.refl p).balanced
  | ok facts =>
    have hopen := (Quiet.openFile p c.path c.format facts).balanced
    cases hq : p.openFile c.path c.format facts with
    | mk q answer =>
      rw [hq] at hopen
      cases answer with
      | error fault =>
        rw [openConfig_of_error hfacts hq]
        exact hopen
      | ok i =>
        rw [openConfig_of_ok hfacts hq]
        split
        · exact hopen.trans (startWatch q i _ hasRuntime)
        · exact hopen

theorem of_eq {p q : Program} (hwatches : q.watches = p.watches)
    (hresolvers : q.resolvers = p.resolvers) (hhistory : q.history = p.history) : Balanced p q :=
  (Quiet.of_eq hwatches hresolvers hhistory).balanced

theorem elim {α : Type} {p : Program} {f : α → Program} (hf : ∀ a, Balanced p (f a))
    (found : Option α) : Balanced p (found.elim p f) := by
  cases found with
  | none => exact (Quiet.refl p).balanced
  | some a => exact hf a

theorem holdOpened {p : Program} {opened : Program × Except Fault ResolverId}
    (h : Balanced p opened.1) (name : String) : Balanced p (holdOpened name opened) := by
  obtain ⟨q, answer⟩ := opened
  cases answer with
  | error fault => exact h
  | ok i => exact h.trans (of_eq rfl rfl rfl)

theorem holdNotifier {p : Program} {started : Program × Except Fault WatchId}
    (h : Balanced p started.1) (name : String) : Balanced p (holdNotifier name started) := by
  obtain ⟨q, answer⟩ := started
  cases answer with
  | error fault => exact h
  | ok w => exact h.trans (of_eq rfl rfl rfl)

theorem holdRegistered {p : Program} {registered : Program × Outcome × Nat}
    (h : Balanced p registered.1) (name : String) :
    Balanced p (holdRegistered name registered) := by
  obtain ⟨q, outcome, handle⟩ := registered
  cases outcome with
  | completed => exact h.trans (of_eq rfl rfl rfl)
  | panicked message => exact h

/-- Only the tasks of a watch may leave a publication without its round, or run the round of an
earlier one. -/
theorem act (p : Program) {a : Action} (htake : ∀ w, a ≠ .takeEvent w)
    (hdispatch : ∀ w, a ≠ .dispatch w) : Balanced p (p.act a) := by
  cases a with
  | openFile name path format facts =>
    exact holdOpened (Quiet.openFile p path format facts).balanced name
  | openDocument name d facts =>
    exact (Quiet.addResolver rfl p).balanced.trans (of_eq rfl rfl rfl)
  | openConfig name c hasRuntime watchable =>
    exact holdOpened (openConfig p c hasRuntime watchable) name
  | clone settings copy =>
    refine elim (fun i => ?_) _
    exact of_eq rfl rfl rfl
  | drop name => exact of_eq rfl rfl rfl
  | install settings =>
    refine elim (fun i => ?_) _
    exact of_eq rfl rfl rfl
  | uninstall => exact of_eq rfl rfl rfl
  | getSafe settings path => exact elim (fun i => (Quiet.getSafe p i path).balanced) _
  | subscribe settings name =>
    refine elim (fun i => ?_) _
    exact of_eq rfl rfl rfl
  | receive name =>
    refine elim (fun r => ?_) _
    exact of_eq rfl rfl rfl
  | onUpdate settings name callback now =>
    exact elim (fun i => holdRegistered (indifferent.onUpdate p i callback now) name) _
  | cancelUpdate settings handle =>
    exact elim (fun i => elim (fun index => (Quiet.cancel p _ index).balanced) _) _
  | reload settings => exact elim (fun i => respected.reloaded p i) _
  | newRegistry name => exact of_eq rfl rfl rfl
  | registerIn registry name callback =>
    refine elim (fun i => ?_) _
    exact (Quiet.register p _ callback).balanced.trans (of_eq rfl rfl rfl)
  | cancelIn registry handle =>
    exact elim (fun i => elim (fun index => (Quiet.cancel p _ index).balanced) _) _
  | invoke registry => exact elim (fun i => respected.invokeAll p _) _
  | startWatch settings name notifier hasRuntime =>
    exact elim (fun i => holdNotifier (startWatch p i notifier hasRuntime) name) _
  | stopWatch settings => exact elim (fun i => (Quiet.stopAndLog p i).balanced) _
  | requestStop settings => exact elim (fun i => (Quiet.requestStop p i).balanced) _
  | writeFile path content => exact (Quiet.writeFile p path content).balanced
  | replaceFile path staging content => exact (Quiet.replaceFile p path staging content).balanced
  | removeDirectory path => exact (Quiet.removeDirectory p path).balanced
  | changeFiles change => exact (Quiet.changeFiles p _).balanced
  | send w e => exact (Quiet.send p w e).balanced
  | close w => exact (Quiet.close p w).balanced
  | takeEvent w => exact absurd rfl (htake w)
  | endTask w => exact (Quiet.endTaskIfOver p w).balanced
  | dispatch w => exact absurd rfl (hdispatch w)

end Balanced
end LayeredSettings.Program
