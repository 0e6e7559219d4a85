import Mathlib.Data.List.Pairwise
import LayeredSettings.Proofs.Program.Operations

/-!
What processes keep to, whatever others do between their operations.

Terms say what callbacks may ask for by name, on which owners of callbacks and on which watches
operations may act, and what is known of names. If all callbacks keep to what they may ask for, then
every process keeps to its terms: every operation is one that the terms allow and concerns only
resolvers to which a reference is held, the round of each publication belongs to a publication that
took place, and what a process goes on with does not depend on names that nobody asks for.
-/

namespace LayeredSettings

open Program

/-! ## What operations concern -/

namespace Operation

/-- The resolver that somebody takes hold of. -/
def takes? : Operation → Option ResolverId
  | .holdSettings _ i => some i
  | .install installed => installed
  | _ => none

/-- The callback that is called. -/
def calls? : Operation → Option CallbackId
  | .enter c _ => some c
  | _ => none

/-- An operation acts on a resolver, takes hold of it, or calls one of its callbacks. -/
def Concerns (op : Operation) (p : Program) (i : ResolverId) : Prop :=
  op.owner? = some (.resolver i) ∨ op.takes? = some i ∨
    ∃ c ∈ op.calls?, ∃ handle, .registered (.resolver i) handle c ∈ p.journal

/-- An operation on nothing that belongs to anyone. -/
def isFree (op : Operation) : Bool :=
  op.owner?.isNone && op.watch?.isNone && op.takes?.isNone && op.calls?.isNone

end Operation

/-- What is asked for by a name. -/
inductive Ask
  /-- A version is looked at. -/
  | version (settings : String)
  | settings (settings : Access)
  /-- Settings or a registry. -/
  | owner (name : String)
  | registry (name : String)
  /-- A handle is taken hold of or given up. -/
  | rebind (access : Access)

namespace Ask

/-- The owners of callbacks on which one may act then. -/
def owners (p : Program) : Ask → List Owner
  | .version _ => []
  | .settings access => ((p.reached access).map .resolver).toList
  | .owner name => p.ownersNamed name
  | .registry name => ((p.names.registries.get? name).map .registry).toList
  | .rebind _ => []

/-- The handle of settings that is looked up. -/
def reads? : Ask → Option Access
  | .version name => some (.named name)
  | .settings access => some access
  | .owner name => some (.named name)
  | .registry _ => none
  | .rebind _ => none

end Ask

/-- What is asked for where handles are held otherwise. -/
def Rebinding.asks : Rebinding → List Ask
  | .clone settings copy => [.settings settings, .rebind (.named copy)]
  | .drop name => [.rebind (.named name)]
  | .install settings => [.settings settings, .rebind .installed]
  | .uninstall => [.rebind .installed]

/-- A script asks for some things only, and so do the callbacks that it registers. -/
def Script.AsksOnly (asks : Ask → Prop) : Script → Prop
  | .done => True
  | .panic _ => True
  | .record _ next => next.AsksOnly asks
  | .version settings next => asks (.version settings) ∧ ∀ version?, (next version?).AsksOnly asks
  | .handle _ next => ∀ handle?, (next handle?).AsksOnly asks
  | .cancel owner _ next => asks (.owner owner) ∧ next.AsksOnly asks
  | .register owner callback _ next =>
    asks (.owner owner) ∧ (∀ n, (callback n).AsksOnly asks) ∧
      ∀ handle?, (next handle?).AsksOnly asks
  | .invoke registry next =>
    asks (.registry registry) ∧ ∀ completed?, (next completed?).AsksOnly asks
  | .reload settings next =>
    asks (.settings (.named settings)) ∧ ∀ answer?, (next answer?).AsksOnly asks
  | .rebind change next => (∀ ask ∈ change.asks, asks ask) ∧ next.AsksOnly asks

theorem Script.asksOnly {asks : Ask → Prop} (anything : ∀ ask, asks ask) (script : Script) :
    script.AsksOnly asks := by
  induction script with
  | done => trivial
  | panic message => trivial
  | record text next ih => exact ih
  | version settings next ih => exact ⟨anything _, ih⟩
  | handle name next ih => exact ih
  | cancel owner handle next ih => exact ⟨anything _, ih⟩
  | register owner callback now next registered ih => exact ⟨anything _, registered, ih⟩
  | invoke registry next ih => exact ⟨anything _, ih⟩
  | reload settings next ih => exact ⟨anything _, ih⟩
  | rebind change next ih => exact ⟨fun ask _ => anything ask, ih⟩

/-! ## What steps are about -/

namespace Action

/-- The handle through which a step goes. -/
def settings? : Action → Option Access
  | .clone settings _ => some settings
  | .install settings => some settings
  | .getSafe settings _ => some settings
  | .subscribe settings _ => some settings
  | .onUpdate settings _ _ _ => some settings
  | .cancelUpdate settings _ => some settings
  | .reload settings => some settings
  | .startWatch settings _ _ _ => some settings
  | .stopWatch settings => some settings
  | .requestStop settings => some settings
  | _ => none

/-- The registry of its own that a step is about. -/
def registry? : Action → Option String
  | .registerIn registry _ _ => some registry
  | .cancelIn registry _ => some registry
  | .invoke registry => some registry
  | _ => none

/-- The callback that a step registers. -/
def callback? : Action → Option Callback
  | .onUpdate _ _ callback _ => some callback
  | .registerIn _ _ callback => some callback
  | _ => none

/-- The watch that a step is about. -/
def watch? : Action → Option WatchId
  | .send w _ => some w
  | .close w => some w
  | .takeEvent w => some w
  | .endTask w => some w
  | .dispatch w => some w
  | _ => none

def changesFiles : Action → Bool
  | .writeFile .. => true
  | .replaceFile .. => true
  | .removeDirectory _ => true
  | .changeFiles _ => true
  | _ => false

/-- The handle that a step takes hold of or gives up. -/
def rebinds? : Action → Option Access
  | .openFile name _ _ _ => some (.named name)
  | .openDocument name _ _ => some (.named name)
  | .openConfig name _ _ _ => some (.named name)
  | .clone _ copy => some (.named copy)
  | .drop name => some (.named name)
  | .install _ => some .installed
  | .uninstall => some .installed
  | _ => none

end Action

/-! ## Terms -/

/-- A program, and what has been published so far. -/
structure Scene where
  program : Program
  published : List (ResolverId × Publication)

namespace Scene

def step (s : Scene) (op : Operation) : Scene where
  program := op.effect s.program
  published := s.published ++ op.publishes s.program

/-- What stays true of a scene as things go on. -/
structure Later (s t : Scene) : Prop where
  published : ∀ entry ∈ s.published, entry ∈ t.published
  callbacks : ∀ {c : CallbackId} {called : CallbackRecord}, s.program.callbacks[c]? = some called →
    ∃ later, t.program.callbacks[c]? = some later ∧ later.callback = called.callback
  journal : ∀ m ∈ s.program.journal, m ∈ t.program.journal
  watches : ∀ {w : WatchId} {watch : Watch}, s.program.watches[w]? = some watch →
    ∃ later, t.program.watches[w]? = some later ∧ later.resolver = watch.resolver

theorem Later.refl (s : Scene) : Later s s where
  published _ member := member
  callbacks found := ⟨_, found, rfl⟩
  journal _ member := member
  watches found := ⟨_, found, rfl⟩

theorem Later.trans {s t u : Scene} (h : Later s t) (h' : Later t u) : Later s u where
  published entry member := h'.published entry (h.published entry member)
  callbacks found := by
    obtain ⟨later, found, same⟩ := h.callbacks found
    obtain ⟨last, found, same'⟩ := h'.callbacks found
    exact ⟨last, found, same'.trans same⟩
  journal m member := h'.journal m (h.journal m member)
  watches found := by
    obtain ⟨later, found, same⟩ := h.watches found
    obtain ⟨last, found, same'⟩ := h'.watches found
    exact ⟨last, found, same'.trans same⟩

theorem later_step (s : Scene) (op : Operation) : Later s (s.step op) where
  published _ member := List.mem_append_left _ member
  callbacks := op.callback_stays
  journal _ := op.mark_stays
  watches := op.watch_stays

end Scene

/-- What processes keep to. -/
structure Terms where
  /-- What callbacks may ask for. -/
  asks : Ask → Prop
  /-- The owners of callbacks on which operations may act. -/
  owners : Owner → Prop
  /-- The watches on which operations may act. -/
  watches : WatchId → Prop
  /-- Whether files may change. -/
  files : Prop
  /-- What is known of the things that names refer to. -/
  refers : Program → Prop
  steady {p q : Program} : SameReferences p q → p.resolvers.length ≤ q.resolvers.length →
    p.watches.length ≤ q.watches.length → refers p → refers q
  named {p : Program} : refers p → ∀ {ask}, asks ask → ∀ owner ∈ ask.owners p, owners owner
  started {p : Program} : refers p → watches p.watches.length
  heard : files → ∀ w, watches w
  fresh {p : Program} : refers p → owners (.resolver p.resolvers.length)
  hold {p : Program} {i : ResolverId} {name : String} : refers p → owners (.resolver i) →
    asks (.rebind (.named name)) → refers ((Operation.holdSettings name i).effect p)
  drop {p : Program} {name : String} : refers p → asks (.rebind (.named name)) →
    refers ((Operation.dropSettings name).effect p)
  install {p : Program} {installed : Option ResolverId} : refers p →
    (∀ i ∈ installed, owners (.resolver i)) → asks (.rebind .installed) →
    refers ((Operation.install installed).effect p)
  holdRegistry {p : Program} (name : String) (i : Nat) : refers p →
    refers ((Operation.holdRegistry name i).effect p)

namespace Terms

variable (C : Terms)

/-- A callback asks only for what it may ask for. -/
def Tame (callback : Callback) : Prop := ∀ n, (callback n).AsksOnly C.asks

/-- A callback of an owner that is tame. -/
def Known (p : Program) (owner : Owner) (c : CallbackId) : Prop :=
  ∃ called handle, p.callbacks[c]? = some called ∧ C.Tame called.callback ∧
    .registered owner handle c ∈ p.journal

/-- What holds between any two operations. -/
structure Ok (s : Scene) : Prop where
  refers : C.refers s.program
  known : ∀ owner, C.owners owner → ∀ slot ∈ (s.program.registry owner).live,
    C.Known s.program owner slot.2
  queued : ∀ {w : WatchId} {watch : Watch}, s.program.watches[w]? = some watch →
    ∀ published ∈ watch.published, (watch.resolver, published) ∈ s.published
  /-- A watch on which one may act is one of a resolver on which one may act, if it is alive. -/
  watched : ∀ {w : WatchId} {watch : Watch}, C.watches w → s.program.watches[w]? = some watch →
    s.program.inUse watch.resolver = true → C.owners (.resolver watch.resolver)
  current : ∀ {i : ResolverId} {r : Resolver} {w : WatchId}, C.owners (.resolver i) →
    s.program.resolvers[i]? = some r → r.watch = .watching w → C.watches w
  /-- Callbacks are registered once each, in the order of their numbers. -/
  ids : s.program.trace.filterMap Mark.new? = List.range s.program.callbacks.length

/-- What else it takes for single operations to be allowed. -/
def Fits (s : Scene) : Operation → Prop
  | .register _ callback => C.Tame callback
  | .mark m => m.new? = none
  | .enter c m => (∃ owner, C.owners owner ∧ C.Known s.program owner c) ∧ m.new? = none
  | .queue w published => ∀ watch, s.program.watches[w]? = some watch →
    (watch.resolver, published) ∈ s.published
  | .changeFiles _ => C.files
  | .removeDirectory _ => C.files
  | .holdSettings name i => C.asks (.rebind (.named name)) ∧ C.owners (.resolver i)
  | .dropSettings name => C.asks (.rebind (.named name))
  | .install installed => C.asks (.rebind .installed) ∧ ∀ i ∈ installed, C.owners (.resolver i)
  | _ => True

structure Allows (s : Scene) (op : Operation) : Prop where
  owner : ∀ owner, op.owner? = some owner → C.owners owner
  watch : ∀ w, op.watch? = some w → C.watches w
  fits : C.Fits s op

/-- Another program in which no handle that is asked for refers to anything else. -/
structure Agree (p q : Program) : Prop where
  same : q = p.withHandles q.names.settings q.installed
  asked : ∀ {ask}, C.asks ask → ∀ access ∈ ask.reads?, q.reached access = p.reached access

/-- A resolver on which one may not act is alive only where it is in use. -/
def Alive (p : Program) (alive : ResolverId → Bool) : Prop :=
  ∀ i, alive i = true → p.inUse i = true ∨ C.owners (.resolver i)

variable {C}

theorem Known.mono {s t : Scene} {owner : Owner} {c : CallbackId}
    (known : C.Known s.program owner c) (later : s.Later t) : C.Known t.program owner c := by
  obtain ⟨called, handle, found, tame, member⟩ := known
  obtain ⟨now, found, same⟩ := later.callbacks found
  exact ⟨now, handle, found, same ▸ tame, later.journal _ member⟩

theorem known_register {p : Program} {owner : Owner} {callback : Callback}
    (tame : C.Tame callback) :
    C.Known (p.register owner callback).1 owner p.callbacks.length := by
  refine ⟨⟨callback, 0⟩, (p.registry owner).size, ?_, tame, List.mem_cons_self ..⟩
  rw [callbacks_register]
  exact List.getElem?_concat_length

theorem refers_step {s : Scene} {op : Operation} (ok : C.Ok s) (allowed : C.Allows s op) :
    C.refers (op.effect s.program) := by
  cases refers : op.refers with
  | false =>
    refine C.steady (sameReferences_effect refers _) (op.length_resolvers_le _) ?_ ok.refers
    exact op.length_watches_le s.program
  | true =>
    have fits := allowed.fits
    cases op with
    | holdSettings name i => exact C.hold ok.refers fits.2 fits.1
    | dropSettings name => exact C.drop ok.refers fits
    | install installed => exact C.install ok.refers fits.2 fits.1
    | holdRegistry name i => exact C.holdRegistry name i ok.refers
    | _ => cases refers

/-- Where files stay what they are, no operation is allowed that changes them. -/
theorem Allows.keepsFiles {s : Scene} {op : Operation} (allowed : C.Allows s op)
    (kept : ¬C.files) : op.changesFiles = false := by
  have fits := allowed.fits
  cases op with
  | changeFiles change => exact absurd fits kept
  | removeDirectory path => exact absurd fits kept
  | _ => rfl

/-- Only a registration makes a new callback, and it is marked as such. -/
theorem ids_step {s : Scene} {op : Operation}
    (ids : s.program.trace.filterMap Mark.new? = List.range s.program.callbacks.length)
    (fits : C.Fits s op) : (op.effect s.program).trace.filterMap Mark.new? =
      List.range (op.effect s.program).callbacks.length := by
  have old {m : Mark} (new : m.new? = none) :
      (s.program.trace ++ [m]).filterMap Mark.new? = List.range s.program.callbacks.length := by
    simp [List.filterMap_append, ids, new]
  cases marks : op.marks with
  | false =>
    have same := sameCallbacks_effect marks s.program
    rw [trace, same.journal, same.callbacks]
    exact ids
  | true =>
    cases op with
    | mark m => exact (congrArg _ List.reverse_cons).trans (old fits)
    | enter c m =>
      refine (congrArg _ List.reverse_cons).trans ((old fits.2).trans ?_)
      exact congrArg List.range (List.length_modify ..).symm
    | register owner callback =>
      show (s.program.register owner callback).1.trace.filterMap Mark.new? =
        List.range (s.program.register owner callback).1.callbacks.length
      rw [trace_register, callbacks_register, List.filterMap_append, ids, List.length_append]
      exact List.range_succ.symm
    | cancel owner handle =>
      show (s.program.cancel owner handle).trace.filterMap Mark.new? =
        List.range (s.program.cancel owner handle).callbacks.length
      cases owner <;> exact (congrArg _ List.reverse_cons).trans (old rfl)
    | _ => cases marks

/-- An operation that is allowed keeps what holds between operations. -/
theorem ok_step {s : Scene} {op : Operation} (ok : C.Ok s) (allowed : C.Allows s op) :
    C.Ok (s.step op) where
  refers := refers_step ok allowed
  known owner own slot member := by
    rcases Operation.live_before member with before | ⟨callback, rfl, rfl⟩
    · exact (ok.known owner own slot before).mono (s.later_step op)
    · exact known_register allowed.fits
  ids := ids_step ok.ids allowed.fits
  queued found published member := by
    refine List.mem_append_left _ ?_
    rcases Operation.watch_before found with
      ⟨before, held, resolver, queues⟩ | ⟨none, -⟩
    · rw [resolver]
      rcases queues published member with waiting | rfl
      · exact ok.queued held published waiting
      · exact allowed.fits before held
    · rw [none] at member
      cases member
  watched {w watch} may found inUse := by
    -- Either its resolver was alive before, or who took hold of it was allowed to.
    rcases Operation.inUse_before inUse with inUse | ⟨name, rfl⟩ | rfl
    rotate_left
    · exact allowed.fits.2
    · exact allowed.fits.2 _ rfl
    · rcases Operation.watch_before found with ⟨before, held, resolver, -⟩ | ⟨-, _, _, rfl⟩
      · rw [resolver] at inUse ⊢
        exact ok.watched may held inUse
      · exact allowed.owner _ rfl
  current {i r w} own found watching := by
    rcases Operation.watching_effect found watching with
      ⟨before, held, watching⟩ | ⟨rfl, -⟩
    · exact ok.current own held watching
    · exact C.started ok.refers

/-- A callback is registered only once. -/
theorem Ok.owner_unique {s : Scene} (ok : C.Ok s) {owner other : Owner} {handle handle' : Nat}
    {c : CallbackId} (registered : .registered owner handle c ∈ s.program.journal)
    (registered' : .registered other handle' c ∈ s.program.journal) : other = owner := by
  have ids : (s.program.trace.filterMap Mark.new?).Nodup := ok.ids ▸ List.nodup_range
  have symm : Std.Symm fun m m' : Mark =>
      ∀ c, m.new? = some c → ∀ c', m'.new? = some c' → c ≠ c' :=
    ⟨fun _ _ different c new c' new' => (different c' new' c new).symm⟩
  by_contra hne
  exact (List.pairwise_filterMap.1 ids).forall (List.mem_reverse.2 registered)
    (List.mem_reverse.2 registered') (fun same => hne (Mark.registered.inj same).1.symm) c rfl c
    rfl rfl

variable (C)

/-- What it takes for a step to keep to the terms. -/
structure Admits (a : Action) : Prop where
  rebinds : ∀ access ∈ a.rebinds?, C.asks (.rebind access)
  settings : ∀ access ∈ a.settings?, C.asks (.settings access)
  registry : ∀ name ∈ a.registry?, C.asks (.registry name)
  callback : ∀ callback ∈ a.callback?, C.Tame callback
  watch : ∀ w ∈ a.watch?, C.watches w
  files : a.changesFiles = true → C.files

/-- Everything is allowed. -/
def free : Terms where
  asks _ := True
  owners _ := True
  watches _ := True
  files := True
  refers _ := True
  steady _ _ _ known := known
  named _ _ _ _ _ := trivial
  started known := known
  heard _ _ := trivial
  fresh known := known
  hold known _ _ := known
  drop known _ := known
  install known _ _ := known
  holdRegistry _ _ known := known

theorem admits_free (a : Action) : free.Admits a where
  rebinds _ _ := trivial
  settings _ _ := trivial
  registry _ _ := trivial
  callback callback _ := fun n => (callback n).asksOnly fun _ => trivial
  watch _ _ := trivial
  files _ := trivial

variable {C}

theorem ok_start (refers : C.refers {}) : C.Ok ⟨{}, []⟩ where
  refers := refers
  known owner _ slot member := by cases owner <;> cases member
  queued found := by cases found
  watched _ found := by cases found
  current _ found := by cases found
  ids := rfl

end Terms
end LayeredSettings
