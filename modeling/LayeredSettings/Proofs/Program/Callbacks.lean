import LayeredSettings.Program.Handles
import LayeredSettings.Proofs.Value.Ordered

/-!
What callbacks can do to a program.

Whatever a callback does is put together from a few steps, from rounds that it starts and from
callbacks that it calls at once. So a relation that these respect holds between a program before a
round and after it.
-/

namespace LayeredSettings.Program

theorem reloadDocument_eq_error {p q : Program} {i : ResolverId} {fault : Fault}
    (h : p.reloadDocument i = (q, .error fault)) : q = p := by
  unfold reloadDocument at h
  split at h
  · exact (Prod.mk.inj h).1.symm
  · split at h
    · exact (Prod.mk.inj h).1.symm
    · split at h
      · exact (Prod.mk.inj h).1.symm
      · simp at h

theorem reloadDocument_eq_ok {p q : Program} {i : ResolverId} {published : Publication}
    (h : p.reloadDocument i = (q, .ok published)) :
    ∃ r source, p.resolvers[i]? = some r ∧ r.source = some source ∧
      source.load p.files = .ok published.document ∧
      published.number = r.latest.number + 1 ∧ q = p.publish i published.document := by
  unfold reloadDocument at h
  split at h
  · simp at h
  · rename_i r hr
    split at h
    · simp at h
    · rename_i source hsource
      split at h
      · simp at h
      · rename_i d hload
        obtain ⟨rfl, hpublished⟩ := Prod.mk.inj h
        obtain rfl := Except.ok.inj hpublished
        exact ⟨r, source, hr, hsource, hload, rfl, rfl⟩

/-- The callbacks that a round calls, where what each of them does is in a relation. -/
inductive Calls (R : Program → Program → Prop) (round : Nat) :
    List (Nat × CallbackId) → Program × Nat → Program × Nat → Prop
  | nil (s : Program × Nat) : Calls R round [] s s
  | completed {p q : Program} {n : Nat} {slot : Nat × CallbackId} {slots : List (Nat × CallbackId)}
    {t : Program × Nat} : R (p.enter slot.2 (.called round slot.1 slot.2)) q →
    Calls R round slots (q.mark (.completed round slot.1), n + 1) t →
    Calls R round (slot :: slots) (p, n) t
  | panicked {p q : Program} {n : Nat} {slot : Nat × CallbackId} {slots : List (Nat × CallbackId)}
    {t : Program × Nat} (message : Option String) :
    R (p.enter slot.2 (.called round slot.1 slot.2)) q →
    Calls R round slots (q.log (.panicked slot.1 message), n) t →
    Calls R round (slot :: slots) (p, n) t

/-- The callbacks that a round runs one after another, each of them to its end. -/
inductive RunsEach (run : Runner) (round : Nat) :
    List (Nat × CallbackId) → Program × Nat → Program × Nat → Prop
  | nil (s : Program × Nat) : RunsEach run round [] s s
  | completed {p q : Program} {n : Nat} {slot : Nat × CallbackId} {slots : List (Nat × CallbackId)}
    {t : Program × Nat} :
    run (p.enter slot.2 (.called round slot.1 slot.2)) slot.2 = (q, .completed) →
    RunsEach run round slots (q.mark (.completed round slot.1), n + 1) t →
    RunsEach run round (slot :: slots) (p, n) t
  | panicked {p q : Program} {n : Nat} {slot : Nat × CallbackId} {slots : List (Nat × CallbackId)}
    {t : Program × Nat} {message : Option String} :
    run (p.enter slot.2 (.called round slot.1 slot.2)) slot.2 = (q, .panicked message) →
    RunsEach run round slots (q.log (.panicked slot.1 message), n) t →
    RunsEach run round (slot :: slots) (p, n) t

theorem RunsEach.calls {R : Program → Program → Prop} {run : Runner}
    (hrun : ∀ p c, R p (run p c).1) {round : Nat} {slots : List (Nat × CallbackId)}
    {s t : Program × Nat} (each : RunsEach run round slots s t) : Calls R round slots s t := by
  induction each with
  | nil s => exact .nil s
  | @completed p q n slot slots t hq _ ih =>
    have hcall := hrun (p.enter slot.2 (.called round slot.1 slot.2)) slot.2
    rw [hq] at hcall
    exact .completed hcall ih
  | @panicked p q n slot slots t message hq _ ih =>
    have hcall := hrun (p.enter slot.2 (.called round slot.1 slot.2)) slot.2
    rw [hq] at hcall
    exact .panicked message hcall ih

theorem exists_runsEach_invokeAllWith (run : Runner) (p : Program) (owner : Owner) :
    ∃ q completed,
      RunsEach run p.journal.length (p.registry owner).live (p.mark (.began owner), 0)
        (q, completed) ∧
      p.invokeAllWith run owner = (q.mark (.ended p.journal.length completed), completed) := by
  -- Which slots there are was settled when the round started.
  have hfold : ∀ (slots : List (Nat × CallbackId)) (q : Program) (n : Nat),
      RunsEach run p.journal.length slots (q, n)
        (slots.foldl (invokeNext run p.journal.length) (q, n)) := by
    intro slots
    induction slots with
    | nil => exact fun q n => .nil _
    | cons slot slots ih =>
      intro q n
      rw [List.foldl_cons, invokeNext]
      split
      · rename_i r hr
        exact .completed hr (ih _ _)
      · rename_i r message hr
        exact .panicked hr (ih _ _)
  exact ⟨_, _, hfold _ _ _, rfl⟩

/-- Nothing but names and what is installed changes where handles are held otherwise. -/
theorem rebind_eq (p : Program) (change : Rebinding) : p.rebind change =
    { p with names := (p.rebind change).names, installed := (p.rebind change).installed } := by
  cases change with
  | clone settings copy =>
    rw [Program.rebind]
    cases p.reached settings <;> rfl
  | drop name => rfl
  | install settings =>
    rw [Program.rebind]
    cases p.reached settings <;> rfl
  | uninstall => rfl

/-- Whether there is such an owner of callbacks. -/
def Has (p : Program) : Owner → Prop
  | .resolver i => i < p.resolvers.length
  | .registry i => i < p.registries.length

/-- Whatever a name refers to exists. -/
structure NamesExist (p : Program) : Prop where
  settings : ∀ entry ∈ p.names.settings, entry.2 < p.resolvers.length
  registries : ∀ entry ∈ p.names.registries, entry.2 < p.registries.length
  installed : ∀ i, p.installed = some i → i < p.resolvers.length

theorem NamesExist.of_mem_ownersNamed {p : Program} (h : p.NamesExist) {name : String}
    {owner : Owner} (named : owner ∈ p.ownersNamed name) : p.Has owner := by
  rcases List.mem_append.1 named with named | named
  · obtain ⟨i, hi, rfl⟩ := Option.map_eq_some_iff.1 (Option.mem_toList.1 named)
    exact h.settings _ (KeyMap.mem_of_get? hi)
  · obtain ⟨i, hi, rfl⟩ := Option.map_eq_some_iff.1 (Option.mem_toList.1 named)
    exact h.registries _ (KeyMap.mem_of_get? hi)

/-- A relation that is kept by whatever callbacks do. Neither a publication nor its round need keep
it as long as the round is not logged. -/
structure Respected (R : Program → Program → Prop) : Prop where
  refl (p : Program) : R p p
  trans {p q r : Program} : R p q → R q r → R p r
  record (p : Program) (text : String) : R p (p.record text)
  register (p : Program) (owner : Owner) (callback : Callback) : (p.NamesExist → p.Has owner) →
    R p (p.register owner callback).1
  atOnce {p q : Program} (owner : Owner) (callback : Callback) : (p.NamesExist → p.Has owner) →
    R ((p.register owner callback).1.enter p.callbacks.length
      (.calledAtOnce p.callbacks.length)) q → R p q
  cancel (p : Program) (owner : Owner) (handle : Nat) : R p (p.cancel owner handle)
  rebind (p : Program) (change : Rebinding) : R p (p.rebind change)
  round {p q : Program} {i : Nat} {completed : Nat} :
    Calls R p.journal.length (p.registry (.registry i)).live (p.mark (.began (.registry i)), 0)
      (q, completed) →
    R p (q.mark (.ended p.journal.length completed))
  reload {p q r : Program} {i : ResolverId} {published : Publication} {completed : Nat} :
    p.reloadDocument i = (q, .ok published) →
    Calls R q.journal.length (q.registry (.resolver i)).live (q.mark (.began (.resolver i)), 0)
      (r, completed) →
    R p ((r.mark (.ended q.journal.length completed)).log
      (.invoked i published.number published.document.version completed))

namespace Respected

variable {R : Program → Program → Prop} (h : Respected R)
include h

theorem foldl {α : Type} {f : Program → α → Program} (hf : ∀ p a, R p (f p a)) (l : List α)
    (p : Program) : R p (l.foldl f p) := by
  induction l generalizing p with
  | nil => exact h.refl p
  | cons a l ih => exact h.trans (hf p a) (ih (f p a))

theorem cancelNamed (p : Program) (owner : String) (handle : Nat) :
    R p (p.cancelNamed owner handle) :=
  h.foldl (fun q o => h.cancel q o handle) _ p

section
variable {run : Runner} (hrun : ∀ p c, R p (run p c).1)
include hrun

theorem invokeAllWith (p : Program) (i : Nat) : R p (p.invokeAllWith run (.registry i)).1 := by
  obtain ⟨q, completed, each, hq⟩ := exists_runsEach_invokeAllWith run p (.registry i)
  rw [hq]
  exact h.round (each.calls hrun)

theorem reloadWith (p : Program) (i : ResolverId) : R p (p.reloadWith run i).1 := by
  unfold Program.reloadWith
  split
  · rename_i q fault hq
    obtain rfl := reloadDocument_eq_error hq
    exact h.refl q
  · rename_i q published hq
    obtain ⟨r, completed, each, hr⟩ := exists_runsEach_invokeAllWith run q (.resolver i)
    rw [announceWith, hr]
    exact h.reload hq (each.calls hrun)

theorem registerAndCall (p : Program) {owner : Owner} (callback : Callback)
    (known : p.NamesExist → p.Has owner) : R p (p.registerAndCall run owner callback).1 :=
  h.atOnce owner callback known (hrun _ _)

end

theorem perform {inner : Option Runner} (hinner : ∀ run ∈ inner, ∀ p c, R p (run p c).1)
    (script : Script) (p : Program) : R p (perform inner script p).1 := by
  induction script generalizing p with
  | done => exact h.refl p
  | panic message => exact h.refl p
  | record text next ih => exact h.trans (h.record p text) (ih _)
  | version settings next ih => exact ih _ p
  | handle name next ih => exact ih _ p
  | cancel owner handle next ih => exact h.trans (h.cancelNamed p owner handle) (ih _)
  | register owner callback now next _ ih =>
    unfold Program.perform
    split
    · exact ih _ p
    · rename_i first hfirst
      have known : p.NamesExist → p.Has first := fun exist =>
        exist.of_mem_ownersNamed (List.mem_of_mem_head? (Option.mem_def.2 hfirst))
      cases now with
      | false => exact h.trans (h.register p first callback known) (ih _ _)
      | true =>
        cases inner with
        | none => exact h.refl p
        | some run =>
          have hcalled := h.registerAndCall (hinner run rfl) p callback known
          rw [if_pos rfl]
          dsimp only
          split
          · rename_i q handle hq
            rw [hq] at hcalled
            exact h.trans hcalled (ih _ q)
          · rename_i q message handle hq
            rw [hq] at hcalled
            exact hcalled
  | invoke registry next ih =>
    unfold Program.perform
    split
    · exact ih _ p
    · rename_i i _
      cases inner with
      | none => exact h.refl p
      | some run => exact h.trans (h.invokeAllWith (hinner run rfl) p i) (ih _ _)
  | reload settings next ih =>
    unfold Program.perform
    split
    · exact ih _ p
    · rename_i i _
      cases inner with
      | none => exact h.refl p
      | some run => exact h.trans (h.reloadWith (hinner run rfl) p i) (ih _ _)
  | rebind change next ih => exact h.trans (h.rebind p change) (ih _)

theorem runOnce {inner : Option Runner} (hinner : ∀ run ∈ inner, ∀ p c, R p (run p c).1)
    (p : Program) (c : CallbackId) : R p (runWithin.runOnce inner p c).1 := by
  unfold runWithin.runOnce
  split
  · exact h.refl p
  · exact h.perform hinner _ p

theorem runWithin (depth : Nat) (p : Program) (c : CallbackId) :
    R p (runWithin depth p c).1 := by
  induction depth generalizing p c with
  | zero => exact h.runOnce (fun run hrun => by cases hrun) p c
  | succ depth ih =>
    -- Callbacks that are called inside of this one have one level less.
    refine h.runOnce (fun run hrun => ?_) p c
    cases hrun
    exact ih

theorem run (p : Program) (c : CallbackId) : R p (run p c).1 := h.runWithin nestingLimit p c

theorem invokeAll (p : Program) (i : Nat) : R p (p.invokeAll (.registry i)).1 :=
  h.invokeAllWith h.run p i

theorem reloaded (p : Program) (i : ResolverId) : R p (p.reload i).1 := h.reloadWith h.run p i

theorem onUpdate (p : Program) {i : ResolverId} (callback : Callback) (now : Bool)
    (known : p.NamesExist → i < p.resolvers.length) : R p (p.onUpdate i callback now).1 := by
  cases now with
  | false => exact h.register p (.resolver i) callback known
  | true => exact h.registerAndCall h.run p callback known

end Respected

/-- A relation that is kept by the steps of callbacks, for which the journal and the counts of runs
are of no account. -/
structure Indifferent (R : Program → Program → Prop) : Prop where
  refl (p : Program) : R p p
  trans {p q r : Program} : R p q → R q r → R p r
  record (p : Program) (text : String) : R p (p.record text)
  panic (p : Program) (handle : Nat) (message : Option String) :
    R p (p.log (.panicked handle message))
  mark (p : Program) (m : Mark) : R p (p.mark m)
  enter (p : Program) (c : CallbackId) (m : Mark) : R p (p.enter c m)
  register (p : Program) (owner : Owner) (callback : Callback) : R p (p.register owner callback).1
  cancel (p : Program) (owner : Owner) (handle : Nat) : R p (p.cancel owner handle)
  rebind (p : Program) (change : Rebinding) : R p (p.rebind change)
  reload {p q r : Program} {i : ResolverId} {published : Publication} (completed : Nat) :
    p.reloadDocument i = (q, .ok published) → R q r →
    R p (r.log (.invoked i published.number published.document.version completed))

namespace Indifferent

variable {R : Program → Program → Prop} (h : Indifferent R)
include h

theorem calls {round : Nat} {slots : List (Nat × CallbackId)} {s t : Program × Nat}
    (called : Calls R round slots s t) : R s.1 t.1 := by
  induction called with
  | nil s => exact h.refl s.1
  | completed hcall _ ih => exact h.trans (h.trans (h.enter _ _ _) hcall) (h.trans (h.mark _ _) ih)
  | panicked message hcall _ ih =>
    exact h.trans (h.trans (h.enter _ _ _) hcall) (h.trans (h.panic _ _ _) ih)

theorem round {p q : Program} {owner : Owner} {completed : Nat}
    (called : Calls R p.journal.length (p.registry owner).live (p.mark (.began owner), 0)
      (q, completed)) : R p (q.mark (.ended p.journal.length completed)) :=
  h.trans (h.mark _ _) (h.trans (h.calls called) (h.mark _ _))

theorem respected : Respected R where
  refl := h.refl
  trans := h.trans
  record := h.record
  register p owner callback _ := h.register p owner callback
  atOnce owner callback _ hcall :=
    h.trans (h.register _ owner callback) (h.trans (h.enter _ _ _) hcall)
  cancel := h.cancel
  rebind := h.rebind
  round := h.round
  reload reloaded called := h.reload _ reloaded (h.round called)

theorem invokeAll (p : Program) (owner : Owner) : R p (p.invokeAll owner).1 := by
  obtain ⟨q, completed, each, hq⟩ := exists_runsEach_invokeAllWith Program.run p owner
  rw [Program.invokeAll, hq]
  exact h.round (each.calls h.respected.run)

theorem onUpdate (p : Program) (i : ResolverId) (callback : Callback) (now : Bool) :
    R p (p.onUpdate i callback now).1 := by
  have hregister := h.register p (.resolver i) callback
  cases now with
  | false => exact hregister
  | true => exact h.trans hregister (h.trans (h.enter _ _ _) (h.respected.run _ _))

end Indifferent
end LayeredSettings.Program
