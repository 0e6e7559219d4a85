import LayeredSettings.Proofs.Program.Pool
import LayeredSettings.Proofs.Program.Separation

/-!
Dropping one of several handles.

As long as the resolver stays alive, it makes no difference to whoever does not use a handle when it
is dropped, or whether it is.
-/

namespace LayeredSettings

open Program

/-- Gives up a handle, be it held under a name or installed. -/
def Access.release : Access → Action
  | .named name => .drop name
  | .installed => .uninstall

def Access.giveUp : Access → Operation
  | .named name => .dropSettings name
  | .installed => .install none

theorem Process.ofAction_release (dropped : Access) :
    ofAction dropped.release = silently (does dropped.giveUp) := by
  cases dropped <;> rfl

/-- A program in which a handle has been dropped. -/
def Program.without (p : Program) (dropped : Access) : Program := dropped.giveUp.effect p

/-! ## Who does not use a handle -/

/-- A handle is neither looked up nor given up or put in place of another. -/
def Ask.Forgoes (dropped : Access) (ask : Ask) : Prop :=
  ask.reads? ≠ some dropped ∧ ask ≠ .rebind dropped

/-- A callback never uses a handle. -/
def Forgone (dropped : Access) (callback : Callback) : Prop :=
  ∀ n, (callback n).AsksOnly (Ask.Forgoes dropped)

/-- A step does not use a handle, nor does a callback that it registers. -/
structure Action.Forgoes (dropped : Access) (a : Action) : Prop where
  settings : a.settings? ≠ some dropped
  rebinds : a.rebinds? ≠ some dropped
  callback : ∀ callback ∈ a.callback?, Forgone dropped callback

/-- Terms under which a handle is not used. -/
def Terms.forgoing (dropped : Access) : Terms where
  asks := Ask.Forgoes dropped
  owners _ := True
  watches _ := True
  files := True
  refers _ := True
  steady _ _ _ known := known
  named _ _ _ _ _ := trivial
  started _ := trivial
  heard _ _ := trivial
  fresh _ := trivial
  hold known _ _ := known
  drop known _ := known
  install known _ _ := known
  holdRegistry _ _ known := known

theorem Action.Forgoes.admits {dropped : Access} {a : Action} (forgoes : a.Forgoes dropped) :
    (Terms.forgoing dropped).Admits a where
  rebinds access changes := by
    refine ⟨by simp [Ask.reads?], fun same => forgoes.rebinds ?_⟩
    exact Ask.rebind.inj same ▸ changes
  settings access goes := by
    refine ⟨fun same => forgoes.settings ?_, by simp⟩
    exact Option.some.inj same ▸ goes
  registry name _ := ⟨by simp [Ask.reads?], by simp⟩
  callback := forgoes.callback
  watch _ _ := trivial
  files _ := trivial

theorem Terms.alive_forgoing {dropped : Access} {p : Program} {alive : ResolverId → Bool} :
    (forgoing dropped).Alive p alive := fun _ _ => .inr trivial

/-- If no callback that may run uses a handle, then nothing that operations have to keep to stands
in the way of not using it. -/
theorem Terms.ok_forgoing {dropped : Access} {s : Scene} (ok : free.Ok s)
    (callbacks : ∀ owner, ∀ slot ∈ (s.program.registry owner).live, ∀ called,
      s.program.callbacks[slot.2]? = some called → Forgone dropped called.callback) :
    (forgoing dropped).Ok s where
  refers := trivial
  known owner _ slot member := by
    obtain ⟨called, handle, found, -, registered⟩ := ok.known owner trivial slot member
    exact ⟨called, handle, found, callbacks owner slot member called found, registered⟩
  queued := ok.queued
  watched _ _ _ := trivial
  current _ _ _ := trivial
  ids := ok.ids

/-! ## What is left when a handle has been dropped -/

namespace Program

variable {p q : Program} {dropped access : Access} {i : ResolverId}

theorem without_eq (p : Program) (dropped : Access) : p.without dropped =
    p.withHandles (p.without dropped).names.settings (p.without dropped).installed := by
  cases dropped <;> rfl

theorem withHandles_without (same : SameReferences p q) (dropped : Access) :
    q.withHandles (p.without dropped).names.settings (p.without dropped).installed =
      q.without dropped := by
  cases dropped with
  | named name =>
    show q.withHandles (p.names.settings.erase name) p.installed = _
    rw [← same.settings, ← same.installed]
    rfl
  | installed =>
    show q.withHandles p.names.settings none = _
    rw [← same.settings]
    rfl

theorem reached_without (other : access ≠ dropped) :
    (p.without dropped).reached access = p.reached access := by
  cases dropped with
  | named name =>
    cases access with
    | named key => exact KeyMap.get?_erase_of_ne fun same => other (congrArg _ same.symm)
    | installed => rfl
  | installed =>
    cases access with
    | named key => rfl
    | installed => exact absurd rfl other

/-- Without a handle other resolvers than its own are in use as before. -/
theorem inUse_without (reached : p.reached dropped = some i) {k : ResolverId} (other : i ≠ k) :
    (p.without dropped).inUse k = p.inUse k := by
  cases dropped with
  | named name =>
    have others := KeyMap.any_erase reached (f := fun j => decide (j = k)) (decide_eq_false other)
    show ((p.names.settings.erase name).any (·.2 = k) || p.installed = some k) = p.inUse k
    rw [others, inUse]
  | installed =>
    have held : p.installed = some i := reached
    show (p.names.settings.any (·.2 = k) || (none : Option ResolverId) = some k) = p.inUse k
    simp [inUse, held, other]

theorem agree_without (p : Program) (dropped : Access) :
    (Terms.forgoing dropped).Agree p (p.without dropped) where
  same := p.without_eq dropped
  asked forgoes _ reads := reached_without fun same => forgoes.1 (same ▸ reads)

theorem stays_without (p : Program) (dropped : Access) (j : ResolverId) :
    Stays p j (p.without dropped) := by
  rw [without_eq]
  exact ⟨rfl, rfl, fun _ => .rfl⟩

theorem reached_holdSettings {name : String} (other : Access.named name ≠ access)
    (i : ResolverId) : (p.holdSettings name i).reached access = p.reached access := by
  cases access with
  | named key =>
    have hne : name ≠ key := fun same => other (congrArg _ same)
    show (p.names.settings.insert name i).get? key = _
    rw [KeyMap.get?_insert, if_neg hne]
    rfl
  | installed => rfl

/-! ## Operations that do not use it -/

section
variable {s : Scene} {op : Operation} (fits : (Terms.forgoing dropped).Fits s op)
include fits

/-- A handle that is not used refers to what it referred to. -/
theorem reached_effect (p : Program) : (op.effect p).reached dropped = p.reached dropped := by
  cases refers : op.refers with
  | false => exact (sameReferences_effect refers p).reached dropped
  | true =>
    cases op with
    | holdSettings name i =>
      exact reached_holdSettings (fun same => fits.1.2 (congrArg _ same)) i
    | dropSettings name =>
      have other : dropped ≠ .named name := fun same => fits.2 (congrArg _ same.symm)
      exact reached_without other
    | install installed =>
      cases dropped with
      | named name => rfl
      | installed => exact absurd rfl fits.1.2
    | holdRegistry name i => cases dropped <;> rfl
    | _ => cases refers

/-- It makes no difference to other operations whether a handle has already been dropped. -/
theorem effect_without (ordered : p.names.settings.Ordered) :
    op.effect (p.without dropped) = (op.effect p).without dropped := by
  cases refers : op.refers with
  | false =>
    have same := sameReferences_effect refers p
    rw [without_eq, Operation.effect_withHandles refers, withHandles_without same]
  | true =>
    cases op with
    | holdSettings name i =>
      cases dropped with
      | named key =>
        have other : key ≠ name := by
          rintro rfl
          exact fits.1.2 rfl
        show p.withHandles ((p.names.settings.erase key).insert name i) p.installed =
          p.withHandles ((p.names.settings.insert name i).erase key) p.installed
        rw [ordered.insert_erase other]
      | installed => rfl
    | dropSettings name =>
      cases dropped with
      | named key => exact congrArg (p.withHandles · p.installed) (KeyMap.erase_erase key name)
      | installed => rfl
    | install installed =>
      cases dropped with
      | named name => rfl
      | installed => exact absurd rfl fits.1.2
    | holdRegistry name i => cases dropped <;> rfl
    | _ => cases refers

end

theorem publishes_without (op : Operation) (p : Program) (dropped : Access) :
    op.publishes (p.without dropped) = op.publishes p := by
  cases op with
  | reload i =>
    rw [without_eq, Operation.publishes, Operation.publishes, reloadDocument_withHandles]
  | _ => rfl

end Program

/-! ## Answers -/

section
variable {s : Scene} {dropped : Access} (ok : (Terms.forgoing dropped).Ok s)
  (ordered : s.program.names.settings.Ordered)
include ok ordered

/-- What holds a resolver and does not use a handle does the same without it. -/
theorem Process.Goes.finish_without {α : Type} {hand : List ResolverId} {x : Process α}
    (goes : Goes (.forgoing dropped) hand x s) (holds : hand ≠ []) :
    x.finish (s.program.without dropped) =
      ((x.finish s.program).1.without dropped, (x.finish s.program).2) := by
  induction x generalizing s with
  | ended a => rfl
  | step rounds held op next ih =>
    obtain ⟨-, allowed, -, further⟩ := goes s ok (.refl s)
    obtain ⟨blind, -, rest⟩ := further s.program.inUse fun i inUse => .inl inUse
    have same := blind _ (s.program.without dropped).inUse (s.program.agree_without dropped)
      fun _ none => absurd none holds
    have effect := effect_without allowed.fits ordered
    rw [Process.finish, Process.finish, same, effect]
    exact ih _ _ (Terms.ok_step ok allowed) (ordered_settings_effect op ordered) rest

/-- A call does not register a callback that uses a handle. -/
def Call.Forgoes (dropped : Access) (c : Call) : Prop :=
  ∀ name callback now, c = .onUpdate name callback now → Forgone dropped callback

theorem answer_without {c : Call} (forgoes : c.Forgoes dropped) (k : ResolverId) :
    c.answer (s.program.without dropped) k = c.answer s.program k := by
  have stays := stays_without s.program dropped k
  have status : (s.program.without dropped).watchStatus k = s.program.watchStatus k := by
    rw [without_eq]
    rfl
  cases c with
  | onUpdate name callback now =>
    have tame : (Terms.forgoing dropped).Tame callback := forgoes _ _ _ rfl
    have keeps : Process.Keeps (.forgoing dropped) [k] [] (Process.onUpdate k callback now) s :=
      Process.keeps_onUpdate (Process.entitled_resolver trivial) tame now
    have finished := keeps.goes.finish_without ok ordered (List.cons_ne_nil _ _)
    rw [Process.finish_onUpdate, Process.finish_onUpdate] at finished
    exact congrArg (fun done => Call.registered done.2) finished
  | cancel handle =>
    refine stays.answer status ?_
    show ((s.program.without dropped).names.handles.get? handle).isSome = _
    rw [without_eq]
    rfl
  | _ => exact stays.answer status trivial

end

/-! ## Pools -/

namespace Pool

/-- Whether something was published that a subscriber has not seen, as long as the resolver is
alive. -/
def hasChanged (s : Pool) (r : Receiver) : Option Bool :=
  if s.alive r.resolver then s.scene.program.resolvers[r.resolver]?.map (·.latest.number ≠ r.seen)
  else none

/-- Nothing but a handle is missing, and the thread that has dropped it is done. So whoever does not
use it gets the same answers, there have been the same reloads and rounds, and all other threads go
on in the same way. -/
structure OnlyLacks (dropped : Access) (n : Nat) (s t : Pool) : Prop where
  program : t.scene.program = s.scene.program.without dropped
  threads : ∀ m, m ≠ n → t.threads[m]? = s.threads[m]?
  alive : t.alive = s.alive
  answers : ∀ (c : Call) (access : Access) (k : ResolverId),
    s.scene.program.reached access = some k → access ≠ dropped → c.Forgoes dropped →
    ((c.through access).exec t.scene.program).1 = ((c.through access).exec s.scene.program).1
  subscribers : ∀ receiver, t.hasChanged receiver = s.hasChanged receiver
  resolvers : t.scene.program.resolvers = s.scene.program.resolvers
  published : t.scene.published = s.scene.published
  rounds : t.scene.program.trace = s.scene.program.trace
  history : t.scene.program.history = s.scene.program.history

/-- A thread is about to drop a handle that nobody else uses: no callback that may run, and no other
thread that is going on. -/
structure Dropping (dropped : Access) (i : ResolverId) (n : Nat) (s : Pool) : Prop where
  reached : s.scene.program.reached dropped = some i
  thread : s.threads[n]? = some ⟨dropped.release, Process.ofAction dropped.release⟩
  callbacks : ∀ owner, ∀ slot ∈ (s.scene.program.registry owner).live, ∀ called,
    s.scene.program.callbacks[slot.2]? = some called → Forgone dropped called.callback
  others : ∀ m thread, m ≠ n → s.threads[m]? = some thread →
    (∃ answer, thread.rest = .ended answer) ∨ thread.action.Forgoes dropped ∧
      ∀ called ∈ s.scene.program.callbacks, Forgone dropped called.callback

end Pool

/-- What happens next does not use a handle, and it is not the turn of a thread. -/
def Move.Forgoes (dropped : Access) (n : Nat) : Move → Prop
  | .begin a => a.Forgoes dropped
  | .advance m => m ≠ n

namespace Pool

variable {dropped : Access} {i : ResolverId} {n : Nat} {s : Pool}

/-- Threads whose steps do not use a handle go on without using it, if no callback so far does. -/
theorem going_forgoing {moves : List Move}
    (callbacks : ∀ called ∈ (start.after moves).scene.program.callbacks,
      Forgone dropped called.callback) :
    (start.after moves).Going (.forgoing dropped) fun _ a => a.Forgoes dropped := by
  induction moves using List.reverseRecOn with
  | nil => exact fun _ _ none => by cases none
  | append_singleton moves last ih =>
    rw [after_append] at callbacks ⊢
    have earlier : ∀ called ∈ (start.after moves).scene.program.callbacks,
        Forgone dropped called.callback := by
      intro called member
      obtain ⟨c, found⟩ := List.mem_iff_getElem?.1 member
      obtain ⟨now, found', same⟩ := ((start.after moves).later_move last).callbacks found
      exact same ▸ callbacks now (List.mem_of_getElem? found')
    cases last with
    | begin a => exact (ih earlier).begin Action.Forgoes.admits
    | advance n =>
      have ok := Terms.ok_forgoing (complies_after moves).ok fun _ _ _ called found =>
        earlier called (List.mem_of_getElem? found)
      exact (ih earlier).advance ok Terms.alive_forgoing n

/-- What holds as long as a thread is about to drop a handle and all others go on without it. -/
structure Parting (dropped : Access) (i : ResolverId) (n : Nat) (s : Pool) : Prop where
  complies : s.Complies (.forgoing dropped) fun m _ => m ≠ n
  reached : s.scene.program.reached dropped = some i
  ordered : s.scene.program.names.settings.Ordered
  thread : s.threads[n]? = some ⟨dropped.release, Process.ofAction dropped.release⟩

theorem Dropping.parting {moves : List Move} (h : (start.after moves).Dropping dropped i n) :
    (start.after moves).Parting dropped i n where
  complies := by
    refine ⟨Terms.ok_forgoing (complies_after moves).ok h.callbacks, fun m thread found other => ?_⟩
    rcases h.others m thread other found with ⟨answer, ended⟩ | ⟨forgoes, callbacks⟩
    · rw [ended]
      trivial
    · exact going_forgoing callbacks m thread found forgoes
  reached := h.reached
  ordered := program_after (I := fun p => p.names.settings.Ordered) ordered_settings_effect
    (s := start) .nil moves
  thread := h.thread

theorem any_set {α : Type} {l : List α} {n : Nat} {old new : α} (found : l[n]? = some old)
    {f : α → Bool} (same : f new = f old) : (l.set n new).any f = l.any f := by
  induction l generalizing n with
  | nil => rfl
  | cons first l ih =>
    cases n with
    | zero =>
      cases found
      rw [List.set_cons_zero, List.any_cons, List.any_cons, same]
    | succ n => rw [List.set_cons_succ, List.any_cons, List.any_cons, ih found]

namespace Parting

variable (h : s.Parting dropped i n)
include h

/-- It takes one operation to drop a handle. -/
theorem advance_eq : s.advance n =
    { scene := ⟨s.scene.program.without dropped, s.scene.published⟩
      threads := s.threads.set n ⟨dropped.release, .ended none⟩ } := by
  have found := h.thread
  rw [Process.ofAction_release] at found
  have quiet : dropped.giveUp.publishes s.scene.program = [] := by cases dropped <;> rfl
  have stepped : s.scene.step dropped.giveUp =
      ⟨s.scene.program.without dropped, s.scene.published⟩ := by
    rw [Scene.step, quiet, List.append_nil]
    rfl
  rw [advance_of_step found, stepped]
  rfl

/-- Nobody is less alive for it, if the resolver still is. -/
theorem alive_advance (left : (s.advance n).alive i = true) : (s.advance n).alive = s.alive := by
  have idle : (Process.ofAction dropped.release).held = [] := held_ofAction _
  funext k
  by_cases same : i = k
  · subst same
    rw [left, alive, inUse_of_reached h.reached, Bool.true_or]
  · rw [alive, alive, h.advance_eq]
    refine congr (congrArg or (inUse_without h.reached same)) (any_set h.thread ?_)
    rw [idle]
    rfl

theorem onlyLacks (left : (s.advance n).alive i = true) :
    OnlyLacks dropped n s (s.advance n) := by
  have alive := h.alive_advance left
  have program : (s.advance n).scene.program = s.scene.program.without dropped := by
    rw [h.advance_eq]
  constructor
  case program => exact program
  case alive => exact alive
  case threads =>
    intro m other
    rw [h.advance_eq, List.getElem?_set_ne (Ne.symm other)]
  case answers =>
    intro c access k asked other forgoes
    have asked' := (reached_without other).trans asked
    rw [program, c.exec_through asked', c.exec_through asked, c.fst_exec_on, c.fst_exec_on]
    exact answer_without h.complies.ok h.ordered forgoes k
  case subscribers =>
    intro receiver
    rw [hasChanged, hasChanged, alive, program, without_eq]
    rfl
  case resolvers => rw [program, without_eq]; rfl
  case published => rw [h.advance_eq]
  case rounds => rw [program, without_eq]; rfl
  case history => rw [program, without_eq]; rfl

/-- What somebody else does, and then the handle is dropped, comes to the same the other way
round. -/
theorem move (left : (s.advance n).alive i = true) {m : Move} (forgoes : m.Forgoes dropped n) :
    (s.move m).Parting dropped i n ∧ (s.advance n).move m = (s.move m).advance n := by
  have exist := (List.getElem?_eq_some_iff.1 h.thread).1
  cases m with
  | begin a =>
    have parting : (s.move (.begin a)).Parting dropped i n :=
      { complies := h.complies.begin fun _ => forgoes.admits
        reached := h.reached
        ordered := h.ordered
        thread := (List.getElem?_append_left exist).trans h.thread }
    refine ⟨parting, ?_⟩
    rw [parting.advance_eq, h.advance_eq]
    exact congrArg (Pool.mk _) (List.set_append_left _ _ exist).symm
  | advance m =>
    show (s.advance m).Parting dropped i n ∧ (s.advance n).advance m = (s.advance m).advance n
    have there : (s.advance n).threads[m]? = s.threads[m]? := by
      rw [h.advance_eq, List.getElem?_set_ne (Ne.symm forgoes)]
    rcases s.advance_eq m with ⟨same, halted⟩ | ⟨a, rounds, held, op, next, found, stepped⟩
    · refine ⟨same.symm ▸ h, ?_⟩
      rw [same]
      rcases (s.advance n).advance_eq m with ⟨same', -⟩ | ⟨_, _, _, _, _, found, -⟩
      · exact same'
      · obtain ⟨answer, ended⟩ := halted _ (there ▸ found)
        cases ended
    · obtain ⟨-, allowed, -, further⟩ :=
        h.complies.going m _ found forgoes s.scene h.complies.ok (.refl s.scene)
      obtain ⟨blind, -, -⟩ := further s.alive Terms.alive_forgoing
      have parting : (s.advance m).Parting dropped i n :=
        { complies := h.complies.advance Terms.alive_forgoing fun _ => forgoes
          reached := by
            rw [stepped]
            exact (reached_effect allowed.fits _).trans h.reached
          ordered := by
            rw [stepped]
            exact ordered_settings_effect op h.ordered
          thread := by
            rw [stepped, List.getElem?_set_ne forgoes]
            exact h.thread }
      refine ⟨parting, ?_⟩
      -- The thread finds the same to be alive, and nothing else that it looks at is missing.
      have goes_on : next (s.scene.program.without dropped) s.alive =
          next s.scene.program s.alive :=
        blind _ _ (s.scene.program.agree_without dropped) fun _ _ => rfl
      have scene : Scene.step ⟨s.scene.program.without dropped, s.scene.published⟩ op =
          ⟨(op.effect s.scene.program).without dropped, (s.scene.step op).published⟩ := by
        rw [Scene.step, effect_without allowed.fits h.ordered, publishes_without]
        rfl
      rw [advance_of_step (there.trans found), h.alive_advance left, parting.advance_eq, stepped,
        h.advance_eq]
      show Pool.mk (Scene.step _ op) _ = Pool.mk _ _
      rw [scene, goes_on, List.set_comm _ _ forgoes]
      rfl

/-- So it does after any number of moves. -/
theorem after {later : List Move} (forgoes : ∀ m ∈ later, m.Forgoes dropped n)
    (left : ∀ done, done <+: later → ((s.advance n).after done).alive i = true) :
    (s.after later).Parting dropped i n ∧
      (s.advance n).after later = (s.after later).advance n := by
  induction later generalizing s with
  | nil => exact ⟨h, rfl⟩
  | cons m later ih =>
    obtain ⟨first, others⟩ := List.forall_mem_cons.1 forgoes
    obtain ⟨parting, same⟩ := h.move (left [] List.nil_prefix) first
    obtain ⟨parting', same'⟩ := ih parting others fun done before => by
      rw [← same]
      exact left (m :: done) (List.cons_prefix_cons.2 ⟨rfl, before⟩)
    refine ⟨parting', ?_⟩
    show ((s.advance n).move m).after later = _
    rw [same, same']
    rfl

end Parting
end Pool
end LayeredSettings
