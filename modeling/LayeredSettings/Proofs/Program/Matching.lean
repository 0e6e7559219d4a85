import LayeredSettings.Proofs.Program.Callbacks

/-!
Callbacks in two programs.

There are only a few things that a callback can find out about a program. Where two programs agree
in these, and still do so after anything that a callback can do in both, callbacks do the same in
them.
-/

namespace LayeredSettings.Program

/-- A relation between programs that callbacks cannot tell apart, kept by whatever they do in
both. -/
structure Matching (R : Program → Program → Prop) : Prop where
  settings {p q : Program} : R p q → q.names.settings = p.names.settings
  registries {p q : Program} : R p q → q.names.registries = p.names.registries
  handles {p q : Program} : R p q → q.names.handles = p.names.handles
  version {p q : Program} : R p q → ∀ i : ResolverId,
    q.resolvers[i]?.map Resolver.version = p.resolvers[i]?.map Resolver.version
  registry {p q : Program} : R p q → ∀ owner, q.registry owner = p.registry owner
  callbacks {p q : Program} : R p q → q.callbacks = p.callbacks
  began {p q : Program} : R p q → q.journal.length = p.journal.length
  note {p q : Program} : R p q → ∀ o, R (p.note o) (q.note o)
  mark {p q : Program} : R p q → ∀ m, R (p.mark m) (q.mark m)
  enter {p q : Program} : R p q → ∀ c m, R (p.enter c m) (q.enter c m)
  register {p q : Program} : R p q → ∀ owner callback,
    R (p.register owner callback).1 (q.register owner callback).1
  cancel {p q : Program} : R p q → ∀ owner handle, R (p.cancel owner handle) (q.cancel owner handle)
  rebind {p q : Program} : R p q → ∀ change, R (p.rebind change) (q.rebind change)
  reload {p q : Program} : R p q → ∀ i, R (p.reloadDocument i).1 (q.reloadDocument i).1 ∧
    (q.reloadDocument i).2 = (p.reloadDocument i).2

/-- The same is answered in programs that are still related. -/
def Same {α : Type} (R : Program → Program → Prop) (x y : Program × α) : Prop :=
  R x.1 y.1 ∧ y.2 = x.2

/-- A way to run callbacks for which related programs are the same. -/
def Indistinct (R : Program → Program → Prop) (run : Runner) : Prop :=
  ∀ {p q : Program}, R p q → ∀ c, Same R (run p c) (run q c)

namespace Matching

variable {R : Program → Program → Prop} (h : Matching R)
include h

theorem ownersNamed {p q : Program} (related : R p q) (name : String) :
    q.ownersNamed name = p.ownersNamed name := by
  rw [Program.ownersNamed, h.settings related, h.registries related]
  rfl

theorem foldl_cancel {p q : Program} (related : R p q) (owners : List Owner) (handle : Nat) :
    R (owners.foldl (·.cancel · handle) p) (owners.foldl (·.cancel · handle) q) := by
  induction owners generalizing p q with
  | nil => exact related
  | cons owner owners ih => exact ih (h.cancel related owner handle)

theorem cancelNamed {p q : Program} (related : R p q) (owner : String) (handle : Nat) :
    R (p.cancelNamed owner handle) (q.cancelNamed owner handle) := by
  unfold Program.cancelNamed
  rw [h.ownersNamed related]
  exact h.foldl_cancel related _ handle

section
variable {run : Runner} (blind : Indistinct R run)
include blind

theorem invokeNext {p q : Program} (related : R p q) (round n : Nat) (slot : Nat × CallbackId) :
    Same R (invokeNext run round (p, n) slot) (invokeNext run round (q, n) slot) := by
  have called := blind (h.enter related slot.2 (.called round slot.1 slot.2)) slot.2
  unfold Program.invokeNext
  dsimp only
  generalize run (p.enter slot.2 _) slot.2 = x at called
  generalize run (q.enter slot.2 _) slot.2 = y at called
  obtain ⟨p', outcome⟩ := x
  obtain ⟨q', outcome'⟩ := y
  obtain ⟨related', rfl⟩ := called
  cases outcome' with
  | completed => exact ⟨h.mark related' _, rfl⟩
  | panicked message => exact ⟨h.note related' _, rfl⟩

theorem foldl_invokeNext {p q : Program} (related : R p q) (round n : Nat)
    (slots : List (Nat × CallbackId)) :
    Same R (slots.foldl (Program.invokeNext run round) (p, n))
      (slots.foldl (Program.invokeNext run round) (q, n)) := by
  induction slots generalizing p q n with
  | nil => exact ⟨related, rfl⟩
  | cons slot slots ih =>
    have next := h.invokeNext blind related round n slot
    rw [List.foldl_cons, List.foldl_cons]
    generalize Program.invokeNext run round (p, n) slot = x at next
    generalize Program.invokeNext run round (q, n) slot = y at next
    obtain ⟨p', m⟩ := x
    obtain ⟨q', m'⟩ := y
    obtain ⟨related', rfl⟩ := next
    exact ih related' m'

theorem invokeAllWith {p q : Program} (related : R p q) (owner : Owner) :
    Same R (p.invokeAllWith run owner) (q.invokeAllWith run owner) := by
  have each := h.foldl_invokeNext blind (h.mark related (.began owner)) p.journal.length 0
    (p.registry owner).live
  unfold Program.invokeAllWith
  rw [h.began related, h.registry related]
  dsimp only
  rw [each.2]
  exact ⟨h.mark each.1 _, rfl⟩

theorem announceWith {p q : Program} (related : R p q) (i : ResolverId) (published : Publication) :
    R (p.announceWith run i published) (q.announceWith run i published) := by
  have round := h.invokeAllWith blind related (.resolver i)
  unfold Program.announceWith
  dsimp only
  rw [round.2]
  exact h.note round.1 _

theorem reloadWith {p q : Program} (related : R p q) (i : ResolverId) :
    Same R (p.reloadWith run i) (q.reloadWith run i) := by
  have loaded := h.reload related i
  unfold Program.reloadWith
  generalize p.reloadDocument i = x at loaded
  generalize q.reloadDocument i = y at loaded
  obtain ⟨p', answer⟩ := x
  obtain ⟨q', answer'⟩ := y
  obtain ⟨related', rfl⟩ := loaded
  cases answer' with
  | error fault => exact ⟨related', rfl⟩
  | ok published => exact ⟨h.announceWith blind related' i published, rfl⟩

theorem registerAndCall {p q : Program} (related : R p q) (owner : Owner) (callback : Callback) :
    Same R (p.registerAndCall run owner callback) (q.registerAndCall run owner callback) := by
  have called := blind (h.enter (h.register related owner callback) p.callbacks.length
    (.calledAtOnce p.callbacks.length)) p.callbacks.length
  have handle : (q.register owner callback).2 = (p.register owner callback).2 :=
    congrArg Registry.size (h.registry related owner)
  unfold Program.registerAndCall
  rw [h.callbacks related]
  exact ⟨called.1, Prod.ext called.2 handle⟩

end

/-- By induction on the script: what it asks for is answered alike, so it goes on alike. -/
theorem perform {inner : Option Runner} (blind : ∀ run ∈ inner, Indistinct R run) (script : Script)
    {p q : Program} (related : R p q) :
    Same R (perform inner script p) (perform inner script q) := by
  induction script generalizing p q with
  | done => exact ⟨related, rfl⟩
  | panic message => exact ⟨related, rfl⟩
  | record text next ih => exact ih (h.note related _)
  | version settings next ih =>
    unfold Program.perform
    simp only [h.settings related, h.version related]
    exact ih _ related
  | handle name next ih =>
    unfold Program.perform
    rw [h.handles related]
    exact ih _ related
  | cancel owner handle next ih => exact ih (h.cancelNamed related owner handle)
  | register owner callback now next _ ih =>
    unfold Program.perform
    rw [h.ownersNamed related]
    cases (p.ownersNamed owner).head? with
    | none => exact ih _ related
    | some first =>
      cases now with
      | false =>
        have handle : (q.register first callback).2 = (p.register first callback).2 :=
          congrArg Registry.size (h.registry related first)
        have later := ih (some (p.register first callback).2) (h.register related first callback)
        simpa only [Bool.false_eq_true, if_false, handle] using later
      | true =>
        cases inner with
        | none => exact ⟨related, rfl⟩
        | some run =>
          have called := h.registerAndCall (blind run rfl) related first callback
          dsimp only [if_true]
          generalize p.registerAndCall run first callback = x at called
          generalize q.registerAndCall run first callback = y at called
          obtain ⟨p', outcome, handle⟩ := x
          obtain ⟨q', outcome', handle'⟩ := y
          obtain ⟨related', same⟩ := called
          cases same
          cases outcome with
          | completed => exact ih _ related'
          | panicked message => exact ⟨related', rfl⟩
  | invoke registry next ih =>
    unfold Program.perform
    rw [h.registries related]
    cases p.names.registries.get? registry with
    | none => exact ih _ related
    | some i =>
      cases inner with
      | none => exact ⟨related, rfl⟩
      | some run =>
        have round := h.invokeAllWith (blind run rfl) related (.registry i)
        dsimp only
        rw [round.2]
        exact ih _ round.1
  | reload settings next ih =>
    unfold Program.perform
    rw [h.settings related]
    cases p.names.settings.get? settings with
    | none => exact ih _ related
    | some i =>
      cases inner with
      | none => exact ⟨related, rfl⟩
      | some run =>
        have reloaded := h.reloadWith (blind run rfl) related i
        dsimp only
        rw [reloaded.2]
        exact ih _ reloaded.1
  | rebind change next ih => exact ih (h.rebind related change)

theorem runOnce {inner : Option Runner} (blind : ∀ run ∈ inner, Indistinct R run) :
    Indistinct R (runWithin.runOnce inner) := by
  intro p q related c
  unfold runWithin.runOnce
  rw [h.callbacks related]
  cases p.callbacks[c]? with
  | none => exact ⟨related, rfl⟩
  | some called => exact h.perform blind _ related

theorem runWithin (depth : Nat) : Indistinct R (runWithin depth) := by
  induction depth with
  | zero => exact h.runOnce fun run none => by cases none
  | succ depth ih =>
    refine h.runOnce fun run same => ?_
    cases same
    exact ih

theorem run : Indistinct R run := h.runWithin nestingLimit

variable {p q : Program} (related : R p q)
include related

theorem invokeAll (owner : Owner) : Same R (p.invokeAll owner) (q.invokeAll owner) :=
  h.invokeAllWith h.run related owner

theorem announce (i : ResolverId) (published : Publication) :
    R (p.announce i published) (q.announce i published) :=
  h.announceWith h.run related i published

theorem reloaded (i : ResolverId) : Same R (p.reload i) (q.reload i) :=
  h.reloadWith h.run related i

theorem onUpdate (i : ResolverId) (callback : Callback) (now : Bool) :
    Same R (p.onUpdate i callback now) (q.onUpdate i callback now) := by
  cases now with
  | false =>
    have handle := congrArg Registry.size (h.registry related (.resolver i))
    exact ⟨h.register related _ callback, Prod.ext rfl handle⟩
  | true => exact h.registerAndCall h.run related _ callback

end Matching
end LayeredSettings.Program
