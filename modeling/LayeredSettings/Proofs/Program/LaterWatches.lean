import LayeredSettings.Proofs.Program.Lifecycle

/-!
Programs that differ in their later watches.

As long as the later watches take no event, nobody but those who ask for a status notices them.
Programs that are the same up to a number of watches stay so, and answer the same, whatever steps
they take.
-/

namespace LayeredSettings

/-- The state of a resolver as far as it is about the first watches. -/
def WatchState.upTo (n : WatchId) : WatchState → WatchState
  | .watching w => if w < n then .watching w else .idle
  | _ => .idle

theorem WatchState.upTo_eq_watching_iff {n : WatchId} {state : WatchState} {w : WatchId}
    (first : w < n) : state.upTo n = .watching w ↔ state = .watching w := by
  cases state with
  | watching v =>
    by_cases held : v < n
    · have kept : (watching v).upTo n = .watching v := if_pos held
      rw [kept]
    · have dropped : (watching v).upTo n = .idle := if_neg held
      rw [dropped]
      refine iff_of_false WatchState.noConfusion fun same => held ?_
      cases same
      exact first
  | _ => exact iff_of_false WatchState.noConfusion WatchState.noConfusion

theorem WatchState.upTo_eq_idle {n : WatchId} {state : WatchState}
    (other : ∀ w < n, state ≠ .watching w) : state.upTo n = .idle := by
  cases state with
  | watching w => exact if_neg fun first => other w first rfl
  | _ => rfl

def Resolver.upTo (n : WatchId) (r : Resolver) : Resolver := { r with watch := r.watch.upTo n }

namespace Program

/-- A program as far as it is about its first watches, without what has occurred to it. -/
def upTo (n : WatchId) (p : Program) : Program :=
  { p with
    resolvers := p.resolvers.map (Resolver.upTo n)
    watches := p.watches.take n
    names := { p.names with notifiers := [] }
    history := [] }

/-- Nothing waits for the dispatchers of any but the first watches, all of which are there. -/
structure QuietFrom (n : WatchId) (p : Program) : Prop where
  known : n ≤ p.watches.length
  quiet {w : WatchId} {watch : Watch} : n ≤ w → p.watches[w]? = some watch → watch.published = []

/-- Two programs differ only in watches from a number on, for whose dispatchers nothing waits. -/
structure SameUpTo (n : WatchId) (p q : Program) : Prop where
  same : q.upTo n = p.upTo n
  left : p.QuietFrom n
  right : q.QuietFrom n

theorem QuietFrom.of_watches {n : WatchId} {p q : Program} (h : p.QuietFrom n)
    (same : q.watches = p.watches) : q.QuietFrom n where
  known := same ▸ h.known
  quiet := same ▸ h.quiet

theorem QuietFrom.modifyWatch {n : WatchId} {p : Program} (h : p.QuietFrom n) (w : WatchId)
    {f : Watch → Watch}
    (keeps : ∀ watch, n ≤ w → watch.published = [] → (f watch).published = []) :
    (p.modifyWatch w f).QuietFrom n where
  known := (List.length_modify ..).symm ▸ h.known
  quiet {v watch} later found := by
    rw [Program.modifyWatch, List.getElem?_modify] at found
    obtain ⟨before, held, rfl⟩ := Option.map_eq_some_iff.1 found
    have quiet := h.quiet later held
    split
    · rename_i same
      exact keeps before (same ▸ later) quiet
    · exact quiet

theorem QuietFrom.mapWatches {n : WatchId} {p : Program} (h : p.QuietFrom n) {f : Watch → Watch}
    (keeps : ∀ watch, (f watch).published = watch.published) :
    QuietFrom n { p with watches := p.watches.map f } where
  known := (List.length_map _).symm ▸ h.known
  quiet later found := by
    rw [List.getElem?_map] at found
    obtain ⟨before, held, rfl⟩ := Option.map_eq_some_iff.1 found
    exact (keeps before).trans (h.quiet later held)

namespace SameUpTo

variable {n : WatchId} {p q : Program}

/-! ## What they have in common -/

section
variable (h : SameUpTo n p q)
include h

theorem shared {α : Type} (f : Program → α) (blind : ∀ p, f (p.upTo n) = f p) : f q = f p := by
  rw [← blind q, h.same, blind]

theorem files : q.files = p.files := h.shared Program.files fun _ => rfl

theorem settings : q.names.settings = p.names.settings := h.shared (·.names.settings) fun _ => rfl

theorem namedRegistries : q.names.registries = p.names.registries :=
  h.shared (·.names.registries) fun _ => rfl

theorem handles : q.names.handles = p.names.handles := h.shared (·.names.handles) fun _ => rfl

theorem receivers : q.names.receivers = p.names.receivers :=
  h.shared (·.names.receivers) fun _ => rfl

theorem registries : q.registries = p.registries := h.shared Program.registries fun _ => rfl

theorem installed : q.installed = p.installed := h.shared Program.installed fun _ => rfl

theorem callbacks : q.callbacks = p.callbacks := h.shared Program.callbacks fun _ => rfl

theorem journal : q.journal = p.journal := h.shared Program.journal fun _ => rfl

theorem length_resolvers : q.resolvers.length = p.resolvers.length :=
  h.shared (·.resolvers.length) fun _ => List.length_map _

theorem reached (settings : Access) : q.reached settings = p.reached settings := by
  cases settings with
  | named name => exact congrArg (KeyMap.get? · name) h.settings
  | installed => exact h.installed

theorem inUse (i : ResolverId) : q.inUse i = p.inUse i := by
  rw [Program.inUse, h.settings, h.installed]
  rfl

/-- A resolver of the one program is a resolver of the other one but for its state. -/
theorem resolver (i : ResolverId) : p.resolvers[i]? = none ∧ q.resolvers[i]? = none ∨
    ∃ r state, p.resolvers[i]? = some r ∧ q.resolvers[i]? = some { r with watch := state } ∧
      state.upTo n = r.watch.upTo n := by
  have same : (q.upTo n).resolvers[i]? = (p.upTo n).resolvers[i]? := by rw [h.same]
  rw [upTo, upTo, List.getElem?_map, List.getElem?_map] at same
  cases held : p.resolvers[i]? with
  | none =>
    rw [held] at same
    exact .inl ⟨rfl, Option.map_eq_none_iff.1 same⟩
  | some r =>
    rw [held] at same
    obtain ⟨r', held', alike⟩ := Option.map_eq_some_iff.1 same
    have state := congrArg Resolver.watch alike
    have rest := congrArg (fun r : Resolver => { r with watch := r'.watch }) alike
    exact .inr ⟨r, r'.watch, rfl, held'.trans (congrArg some rest), state⟩

theorem watch {w : WatchId} (first : w < n) : q.watches[w]? = p.watches[w]? := by
  have same : (q.upTo n).watches[w]? = (p.upTo n).watches[w]? := by rw [h.same]
  rwa [upTo, upTo, List.getElem?_take_of_lt first, List.getElem?_take_of_lt first] at same

theorem source (i : ResolverId) : q.source? i = p.source? i := by
  rw [source?, source?]
  rcases h.resolver i with ⟨none, none'⟩ | ⟨r, state, held, held', -⟩
  · rw [none, none']
  · rw [held, held']
    rfl

theorem registry (owner : Owner) : q.registry owner = p.registry owner := by
  cases owner with
  | resolver i =>
    rw [Program.registry, Program.registry]
    rcases h.resolver i with ⟨none, none'⟩ | ⟨r, state, held, held', -⟩
    · rw [none, none']
    · rw [held, held']
      rfl
  | registry i =>
    rw [Program.registry, Program.registry, h.registries]

/-! ## Changes that keep it -/

/-- Changes that leave watches alone, and what is told of them. -/
theorem map (f : Program → Program) (commutes : ∀ p, (f p).upTo n = f (p.upTo n))
    (watches : ∀ p, (f p).watches = p.watches) :
    SameUpTo n (f p) (f q) where
  same := by rw [commutes, commutes, h.same]
  left := h.left.of_watches (watches p)
  right := h.right.of_watches (watches q)

theorem note (o o' : Occurrence) : SameUpTo n (p.note o) (q.note o') :=
  ⟨h.same, h.left.of_watches rfl, h.right.of_watches rfl⟩

theorem modifyWatch (w : WatchId) {f : Watch → Watch}
    (keeps : ∀ watch, n ≤ w → watch.published = [] → (f watch).published = []) :
    SameUpTo n (p.modifyWatch w f) (q.modifyWatch w f) where
  same := by
    have commutes (p : Program) : (p.modifyWatch w f).upTo n = (p.upTo n).modifyWatch w f := by
      simp only [Program.modifyWatch, upTo, List.take_modify]
    rw [commutes, commutes, h.same]
  left := h.left.modifyWatch w keeps
  right := h.right.modifyWatch w keeps

theorem mapWatches {f : Watch → Watch} (keeps : ∀ watch, (f watch).published = watch.published) :
    SameUpTo n { p with watches := p.watches.map f } { q with watches := q.watches.map f } where
  same := by
    have commutes (p : Program) : upTo n { p with watches := p.watches.map f } =
        { p.upTo n with watches := (p.upTo n).watches.map f } := by
      simp only [upTo, List.map_take]
    rw [commutes, commutes, h.same]
  left := h.left.mapWatches keeps
  right := h.right.mapWatches keeps

theorem modifyResolver (i : ResolverId) {f : Resolver → Resolver} (g : Resolver → Resolver)
    (commutes : ∀ r, (f r).upTo n = g (r.upTo n)) :
    SameUpTo n (p.modifyResolver i f) (q.modifyResolver i f) where
  same := by
    have commutes (p : Program) :
        (p.modifyResolver i f).upTo n = (p.upTo n).modifyResolver i g := by
      simp only [Program.modifyResolver, upTo, map_modify commutes]
    rw [commutes, commutes, h.same]
  left := h.left.of_watches rfl
  right := h.right.of_watches rfl

theorem modifyRegistry (owner : Owner) (f : Registry → Registry) :
    SameUpTo n (p.modifyRegistry owner f) (q.modifyRegistry owner f) := by
  cases owner with
  | resolver i =>
    exact h.modifyResolver i (fun r => { r with registry := f r.registry }) fun _ => rfl
  | registry i => exact h.map (·.modifyRegistry (.registry i) f) (fun _ => rfl) fun _ => rfl

theorem register (owner : Owner) (callback : Callback) :
    SameUpTo n (p.register owner callback).1 (q.register owner callback).1 := by
  unfold Program.register
  rw [h.registry, h.callbacks]
  have added := (h.modifyRegistry owner (·.register p.callbacks.length)).map
    (fun p => { p with callbacks := p.callbacks ++ [⟨callback, 0⟩] }) (fun _ => rfl) fun _ => rfl
  exact added.map (·.mark (.registered owner (p.registry owner).size p.callbacks.length))
    (fun _ => rfl) fun _ => rfl

theorem cancel (owner : Owner) (handle : Nat) :
    SameUpTo n (p.cancel owner handle) (q.cancel owner handle) :=
  (h.modifyRegistry owner _).map (·.mark (.cancelled owner handle)) (fun _ => rfl) fun _ => rfl

theorem rebind (change : Rebinding) : SameUpTo n (p.rebind change) (q.rebind change) := by
  refine h.map (·.rebind change) (fun p => ?_) fun p => ?_
  · cases change with
    | clone settings copy =>
      show (Option.elim (p.reached settings) p (p.holdSettings copy)).upTo n =
        (p.reached settings).elim (p.upTo n) ((p.upTo n).holdSettings copy)
      cases p.reached settings <;> rfl
    | drop name => rfl
    | install settings =>
      show (Option.elim (p.reached settings) p fun i => { p with installed := some i }).upTo n =
        (p.reached settings).elim (p.upTo n) fun i => { p.upTo n with installed := some i }
      cases p.reached settings <;> rfl
    | uninstall => rfl
  · rw [p.rebind_eq change]

theorem addResolver {r : Resolver} (idle : r.watch = .idle) :
    SameUpTo n (p.addResolver r).1 (q.addResolver r).1 := by
  refine h.map (fun p => (p.addResolver r).1) (fun p => ?_) fun _ => rfl
  have kept : r.upTo n = r := by
    cases r
    cases idle
    rfl
  simp [Program.addResolver, upTo, kept]

theorem reloadDocument (i : ResolverId) :
    Same (SameUpTo n) (p.reloadDocument i) (q.reloadDocument i) := by
  unfold Program.reloadDocument publish
  rw [h.files]
  rcases h.resolver i with ⟨none, none'⟩ | ⟨r, state, held, held', -⟩
  · rw [none, none']
    exact ⟨h, rfl⟩
  · rw [held, held']
    dsimp only
    cases r.source with
    | none => exact ⟨h, rfl⟩
    | some source =>
      dsimp only
      cases source.load p.files with
      | error fault => exact ⟨h, rfl⟩
      | ok d =>
        have published := h.modifyResolver (f := (·.publish d)) i (·.publish d) fun _ => rfl
        exact ⟨published.note _ _, rfl⟩

end

theorem matching : Matching (SameUpTo n) where
  settings := settings
  registries := namedRegistries
  handles := handles
  version h i := by
    rcases h.resolver i with ⟨none, none'⟩ | ⟨r, state, held, held', -⟩
    · rw [none, none']
    · rw [held, held']
      rfl
  registry := registry
  callbacks := callbacks
  began h := congrArg List.length h.journal
  note h o := h.note o o
  mark h m := h.map (·.mark m) (fun _ => rfl) fun _ => rfl
  enter h c m := h.map (·.enter c m) (fun _ => rfl) fun _ => rfl
  register := register
  cancel := cancel
  rebind := rebind
  reload := reloadDocument

theorem symm (h : SameUpTo n p q) : SameUpTo n q p := ⟨h.same.symm, h.right, h.left⟩

theorem trans {r : Program} (h : SameUpTo n p q) (h' : SameUpTo n q r) : SameUpTo n p r :=
  ⟨h'.same.trans h.same, h.left, h'.right⟩

/-- Each of the programs goes on to one that it is the same as. -/
theorem onward {p' q' : Program} (h : SameUpTo n p q) (left : SameUpTo n p p')
    (right : SameUpTo n q q') : SameUpTo n p' q' :=
  (left.symm.trans h).trans right

end SameUpTo

/-! ## What is only about later watches -/

namespace QuietFrom

variable {n : WatchId} {p : Program} (h : p.QuietFrom n)
include h

theorem refl : SameUpTo n p p := ⟨rfl, h, h⟩

theorem note (o : Occurrence) : SameUpTo n p (p.note o) := ⟨rfl, h, h.of_watches rfl⟩

theorem later_modifyWatch {w : WatchId} (later : n ≤ w) {f : Watch → Watch}
    (keeps : ∀ watch, n ≤ w → watch.published = [] → (f watch).published = []) :
    SameUpTo n p (p.modifyWatch w f) where
  same := by
    have beyond : (p.watches.take n).length ≤ w :=
      Nat.le_trans (List.length_take_le n p.watches) later
    simp only [Program.modifyWatch, upTo, List.take_modify, List.modify_eq_self beyond]
  left := h
  right := h.modifyWatch w keeps

theorem later_modifyResolver {i : ResolverId} {f : Resolver → Resolver}
    (unnoticed : ∀ r, p.resolvers[i]? = some r → (f r).upTo n = r.upTo n) :
    SameUpTo n p (p.modifyResolver i f) where
  same := by
    have kept : (p.resolvers.modify i f).map (Resolver.upTo n) =
        p.resolvers.map (Resolver.upTo n) := by
      apply List.ext_getElem?
      intro j
      rw [List.getElem?_map, List.getElem?_map, List.getElem?_modify]
      cases held : p.resolvers[j]? with
      | none => rfl
      | some r =>
        by_cases same : i = j
        · subst same
          simp [unnoticed r held]
        · simp [same]
    simp only [Program.modifyResolver, upTo, kept]
  left := h
  right := h.of_watches rfl

theorem later_endTask {w : WatchId} (later : n ≤ w) : SameUpTo n p (p.endTask w) := by
  unfold Program.endTask
  split
  · split
    · have ended := h.later_modifyWatch later (f := Watch.endTask) fun _ _ quiet => quiet
      exact ended.trans (ended.right.note _)
    · exact h.refl
  · exact h.refl

theorem later_send {w : WatchId} (later : n ≤ w) (e : WatchEvent) :
    SameUpTo n p (p.send w e).1 := by
  unfold Program.send
  split
  · exact h.later_modifyWatch later fun _ _ quiet => quiet
  · exact h.refl

end QuietFrom

/-! ## Watches -/

namespace SameUpTo

variable {n : WatchId} {p q : Program} (h : SameUpTo n p q)
include h

theorem endTask (w : WatchId) : SameUpTo n (p.endTask w) (q.endTask w) := by
  rcases Nat.lt_or_ge w n with first | later
  · unfold Program.endTask
    rw [h.watch first]
    cases p.watches[w]? with
    | none => exact h
    | some watch =>
      dsimp only
      split
      · exact (h.modifyWatch w (f := Watch.endTask) fun _ _ quiet => quiet).note _ _
      · exact h
  · exact h.onward (h.left.later_endTask later) (h.right.later_endTask later)

theorem endTaskIfOver (w : WatchId) : SameUpTo n (p.endTaskIfOver w) (q.endTaskIfOver w) := by
  unfold Program.endTaskIfOver
  rcases Nat.lt_or_ge w n with first | later
  · have same : q.taskIsOver w = p.taskIsOver w := by
      rw [taskIsOver, taskIsOver, h.watch first]
      simp only [h.inUse]
    rw [same]
    split
    · exact h.endTask w
    · exact h
  · have unnoticed {p : Program} (quiet : p.QuietFrom n) :
        SameUpTo n p (if p.taskIsOver w then p.endTask w else p) := by
      split
      · exact quiet.later_endTask later
      · exact quiet.refl
    exact h.onward (unnoticed h.left) (unnoticed h.right)

theorem send (w : WatchId) (e : WatchEvent) : SameUpTo n (p.send w e).1 (q.send w e).1 := by
  rcases Nat.lt_or_ge w n with first | later
  · unfold Program.send
    rw [h.watch first]
    split
    · exact h.modifyWatch w fun _ _ quiet => quiet
    · exact h
  · exact h.onward (h.left.later_send later e) (h.right.later_send later e)

/-- A watch that was there first takes an event. -/
theorem handleEvent {w : WatchId} (first : w < n) :
    SameUpTo n (p.handleEvent w) (q.handleEvent w) := by
  unfold Program.handleEvent
  rw [h.watch first]
  cases p.watches[w]? with
  | none => exact h
  | some watch =>
    dsimp only
    cases watch.events with
    | nil => exact h
    | cons event later =>
      have taken := h.modifyWatch w (f := fun watch => { watch with events := later })
        fun _ _ quiet => quiet
      cases event with
      | fault message => exact taken.note _ _
      | changed =>
        dsimp only
        generalize p.modifyWatch w (fun watch => { watch with events := later }) = p at taken
        generalize q.modifyWatch w (fun watch => { watch with events := later }) = q at taken
        have loaded := taken.reloadDocument watch.resolver
        rw [taken.inUse]
        cases p.inUse watch.resolver with
        | false => exact taken.endTask w
        | true =>
          rcases taken.resolver watch.resolver with ⟨none, none'⟩ | ⟨r, state, held, held', -⟩
          · rw [none, none']
            exact taken.endTask w
          · rw [held, held']
            dsimp only
            generalize p.reloadDocument watch.resolver = x at loaded
            generalize q.reloadDocument watch.resolver = y at loaded
            obtain ⟨p', answer⟩ := x
            obtain ⟨q', answer'⟩ := y
            obtain ⟨loaded, rfl⟩ := loaded
            cases answer' with
            | error fault => exact loaded.note _ _
            | ok published =>
              exact loaded.modifyWatch w fun _ later _ => absurd first (Nat.not_lt.2 later)

theorem dispatch (w : WatchId) : SameUpTo n (p.dispatch w) (q.dispatch w) := by
  rcases Nat.lt_or_ge w n with first | later
  · unfold Program.dispatch
    rw [h.watch first]
    cases p.watches[w]? with
    | none => exact h
    | some watch =>
      dsimp only
      cases watch.published with
      | nil => exact h
      | cons next later =>
        dsimp only
        rw [h.inUse]
        split
        · have taken := h.modifyWatch w (f := fun watch => { watch with published := later })
            fun _ later _ => absurd first (Nat.not_lt.2 later)
          exact matching.announce taken watch.resolver next
        · exact h.modifyWatch w fun _ _ _ => rfl
  · have unnoticed {p : Program} (quiet : p.QuietFrom n) : p.dispatch w = p := by
      unfold Program.dispatch
      cases found : p.watches[w]? with
      | none => rfl
      | some watch => simp only [quiet.quiet later found]
    rw [unnoticed h.left, unnoticed h.right]
    exact h

end SameUpTo
end Program
end LayeredSettings
