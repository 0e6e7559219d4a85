import LayeredSettings.Proofs.Program.Failures

/-!
Which documents a program has to offer, and what one step does about it.

A resolver offers its live document to readers and its latest publication to subscribers. A step
loads files once more, changes files, makes a resolver, or brings a subscriber up to date; whatever
else it does shows neither to readers nor to subscribers.
-/

namespace LayeredSettings

/-- What a resolver has for readers and for subscribers, and the file that it comes from. -/
structure Offer where
  source : Option Source
  live : Document
  latest : Publication

def Resolver.offer (r : Resolver) : Offer := ⟨r.source, r.live, r.latest⟩

/-- The file that a step makes a resolver for. -/
def Action.source? : Action → Option Source
  | .openFile _ path format _ => some ⟨path, format.getD (Format.ofPath path)⟩
  | .openConfig _ c _ _ => some ⟨c.path, c.format.getD (Format.ofPath c.path)⟩
  | _ => none

/-- Whether a step can bring a subscriber up to date. -/
def Action.mayMark : Action → Bool
  | .subscribe .. => true
  | .receive _ => true
  | _ => false

namespace Offer

/-- The offer of a resolver that was just made. -/
def first (source : Option Source) (d : Document) : Offer := ⟨source, d, ⟨0, d⟩⟩

/-- While files stayed as they were, a file has been loaded again, or not. -/
inductive Renewed (files : FileStore) (o : Offer) : Offer → Prop
  | kept : Renewed files o o
  | loaded {source : Source} {d : Document} {number : Nat} : o.source = some source →
    source.load files = .ok d → o.latest.number < number →
    Renewed files o ⟨some source, d, ⟨number, d⟩⟩

theorem Renewed.trans {files : FileStore} {o o' o'' : Offer} (h : Renewed files o o')
    (h' : Renewed files o' o'') : Renewed files o o'' := by
  cases h with
  | kept => exact h'
  | loaded origin read later =>
    cases h' with
    | kept => exact .loaded origin read later
    | loaded same read' later' =>
      cases same
      exact .loaded origin read' (Nat.lt_trans later later')

end Offer

namespace Program

def offers (p : Program) : List Offer := p.resolvers.map Resolver.offer

@[simp] theorem length_offers (p : Program) : p.offers.length = p.resolvers.length :=
  List.length_map _

theorem getElem?_offers (p : Program) (i : ResolverId) :
    p.offers[i]? = p.resolvers[i]?.map Resolver.offer := List.getElem?_map

theorem offers_modifyResolver (p : Program) (i : ResolverId) {f : Resolver → Resolver}
    (same : ∀ r, (f r).offer = r.offer) : (p.modifyResolver i f).offers = p.offers :=
  map_modify_of_eq same p.resolvers i

/-- A step of which readers and subscribers notice nothing. -/
structure Alike (p q : Program) : Prop where
  files : q.files = p.files
  receivers : q.names.receivers = p.names.receivers
  offers : q.offers = p.offers

/-- Files are as they were, and documents have changed by loading them again only. -/
structure Rereads (p q : Program) : Prop where
  files : q.files = p.files
  receivers : q.names.receivers = p.names.receivers
  length : q.resolvers.length = p.resolvers.length
  renewed : ∀ {i : ResolverId} {o : Offer}, p.offers[i]? = some o →
    ∃ o', q.offers[i]? = some o' ∧ Offer.Renewed p.files o o'

namespace Alike

theorem refl (p : Program) : Alike p p := ⟨rfl, rfl, rfl⟩

theorem trans {p q r : Program} (h : Alike p q) (h' : Alike q r) : Alike p r where
  files := h'.files.trans h.files
  receivers := h'.receivers.trans h.receivers
  offers := h'.offers.trans h.offers

theorem rereads {p q : Program} (h : Alike p q) : Rereads p q where
  files := h.files
  receivers := h.receivers
  length := by rw [← length_offers, ← length_offers, h.offers]
  renewed {i o} held := ⟨o, by rw [h.offers, held], .kept⟩

theorem of_bare_eq {p q : Program} (same : q.bare = p.bare) : Alike p q where
  files := by
    have files : q.bare.files = p.bare.files := by rw [same]
    exact files
  receivers := by
    have names : q.bare.names = p.bare.names := by rw [same]
    exact congrArg Names.receivers names
  offers := by
    have resolvers : q.bare.resolvers = p.bare.resolvers := by rw [same]
    exact congrArg (List.map Resolver.offer) resolvers

theorem modifyResolver (p : Program) (i : ResolverId) {f : Resolver → Resolver}
    (same : ∀ r, (f r).offer = r.offer) : Alike p (p.modifyResolver i f) :=
  ⟨rfl, rfl, offers_modifyResolver p i same⟩

theorem modifyRegistry (p : Program) (owner : Owner) (f : Registry → Registry) :
    Alike p (p.modifyRegistry owner f) := by
  cases owner with
  | resolver i => exact modifyResolver p i fun _ => rfl
  | registry i => exact ⟨rfl, rfl, rfl⟩

theorem register (p : Program) (owner : Owner) (callback : Callback) :
    Alike p (p.register owner callback).1 :=
  (modifyRegistry p owner (·.register p.callbacks.length)).trans ⟨rfl, rfl, rfl⟩

theorem cancel (p : Program) (owner : Owner) (handle : Nat) : Alike p (p.cancel owner handle) :=
  (modifyRegistry p owner (·.cancel handle)).trans ⟨rfl, rfl, rfl⟩

theorem rebind (p : Program) (change : Rebinding) : Alike p (p.rebind change) := by
  cases change with
  | clone settings copy =>
    rw [Program.rebind]
    cases p.reached settings <;> exact ⟨rfl, rfl, rfl⟩
  | drop name => exact ⟨rfl, rfl, rfl⟩
  | install settings =>
    rw [Program.rebind]
    cases p.reached settings <;> exact ⟨rfl, rfl, rfl⟩
  | uninstall => exact ⟨rfl, rfl, rfl⟩

theorem getSafe (p : Program) (i : ResolverId) (path : List String) :
    Alike p (p.getSafe i path).1 := by
  unfold Program.getSafe
  split
  · exact refl p
  · split
    · exact refl p
    · exact ⟨rfl, rfl, rfl⟩

theorem startWatch (p : Program) (i : ResolverId) (notifier : Source → Notifier)
    (hasRuntime : Bool) : Alike p (p.startWatch i notifier hasRuntime).1 := by
  have launched (q : Program) (hears : Option (List String)) : Alike q (q.launch i hears) :=
    ⟨rfl, rfl, offers_modifyResolver _ i fun _ => rfl⟩
  rcases p.startWatch_eq i notifier hasRuntime with
    ⟨fault, refused⟩ | ⟨source, q, hears, -, -, subscribed, started⟩
  · rw [refused]
    exact refl p
  · rw [started]
    rcases subscribe_eq_ok subscribed with rfl | ⟨path, directory, rfl⟩
    · exact (launched q hears).trans ⟨rfl, rfl, rfl⟩
    · exact (launched _ hears).trans ⟨rfl, rfl, rfl⟩

theorem endTask (p : Program) (w : WatchId) : Alike p (p.endTask w) :=
  of_bare_eq (bare_endTask p w)

theorem endTaskIfOver (p : Program) (w : WatchId) : Alike p (p.endTaskIfOver w) := by
  unfold Program.endTaskIfOver
  split
  · exact endTask p w
  · exact refl p

theorem requestStop (p : Program) (i : ResolverId) : Alike p (p.requestStop i).1 := by
  unfold Program.requestStop
  split
  · have given : Alike p (p.modifyResolver i fun r => { r with watch := .stopped }) :=
      modifyResolver p i fun _ => rfl
    exact given.trans ⟨rfl, rfl, rfl⟩
  · exact refl p

theorem stopAndLog (p : Program) (i : ResolverId) : Alike p (p.stopAndLog i) := by
  have requested := requestStop p i
  unfold Program.stopAndLog Program.stopWatch
  cases stop : p.requestStop i with
  | mk q stopped =>
    rw [stop] at requested
    cases stopped with
    | none => exact requested
    | some w => exact (requested.trans (endTask q w)).trans ⟨rfl, rfl, rfl⟩

theorem elim {α : Type} {p : Program} {f : α → Program} (alike : ∀ a, Alike p (f a))
    (found : Option α) : Alike p (found.elim p f) := by
  cases found with
  | none => exact refl p
  | some a => exact alike a

theorem holdNotifier {p : Program} {started : Program × Except Fault WatchId}
    (h : Alike p started.1) (name : String) : Alike p (Program.holdNotifier name started) := by
  obtain ⟨q, answer⟩ := started
  cases answer with
  | error fault => exact h
  | ok w => exact h.trans ⟨rfl, rfl, rfl⟩

end Alike

namespace Rereads

theorem trans {p q r : Program} (h : Rereads p q) (h' : Rereads q r) : Rereads p r where
  files := h'.files.trans h.files
  receivers := h'.receivers.trans h.receivers
  length := h'.length.trans h.length
  renewed held := by
    obtain ⟨o', held', renewed⟩ := h.renewed held
    obtain ⟨o'', held'', renewed'⟩ := h'.renewed held'
    rw [h.files] at renewed'
    exact ⟨o'', held'', renewed.trans renewed'⟩

/-- A document that was loaded is published. -/
theorem publish {p : Program} {i : ResolverId} {r : Resolver} {source : Source} {d : Document}
    (found : p.resolvers[i]? = some r) (origin : r.source = some source)
    (read : source.load p.files = .ok d) : Rereads p (p.publish i d) := by
  have published : p.publish i d =
      (p.modifyResolver i (·.publish d)).log (.published i r.version d.version d.size) := by
    rw [Program.publish, found]
  rw [published]
  constructor
  case files => rfl
  case receivers => rfl
  case length => exact List.length_modify ..
  case renewed =>
    intro j o held
    rw [getElem?_offers] at held
    obtain ⟨s, found', rfl⟩ := Option.map_eq_some_iff.1 held
    refine ⟨(if i = j then s.publish d else s).offer, ?_, ?_⟩
    · simp [getElem?_offers, log, note, modifyResolver, List.getElem?_modify, found']
    · split
      · rename_i same
        subst same
        cases found.symm.trans found'
        have next : (r.publish d).offer = ⟨some source, d, ⟨r.latest.number + 1, d⟩⟩ := by
          rw [← origin]
          rfl
        rw [next]
        exact .loaded origin read (Nat.lt_succ_self _)
      · exact .kept

theorem indifferent : Indifferent Rereads where
  refl p := (Alike.refl p).rereads
  trans := trans
  record p text := Alike.rereads ⟨rfl, rfl, rfl⟩
  panic p handle message := Alike.rereads ⟨rfl, rfl, rfl⟩
  mark p m := Alike.rereads ⟨rfl, rfl, rfl⟩
  enter p c m := Alike.rereads ⟨rfl, rfl, rfl⟩
  register p owner callback := (Alike.register p owner callback).rereads
  cancel p owner handle := (Alike.cancel p owner handle).rereads
  rebind p change := (Alike.rebind p change).rereads
  reload completed reloaded later := by
    obtain ⟨r, source, found, origin, read, -, rfl⟩ := reloadDocument_eq_ok reloaded
    exact ((publish found origin read).trans later).trans (Alike.rereads ⟨rfl, rfl, rfl⟩)

theorem respected : Respected Rereads := indifferent.respected

theorem reloadDocument (p : Program) (i : ResolverId) : Rereads p (p.reloadDocument i).1 := by
  cases answered : p.reloadDocument i with
  | mk q answer =>
    cases answer with
    | error fault =>
      obtain rfl := reloadDocument_eq_error answered
      exact (Alike.refl q).rereads
    | ok published =>
      obtain ⟨r, source, found, origin, read, -, rfl⟩ := reloadDocument_eq_ok answered
      exact publish found origin read

theorem handleEvent (p : Program) (w : WatchId) : Rereads p (p.handleEvent w) := by
  unfold Program.handleEvent
  split
  · exact (Alike.refl p).rereads
  · rename_i watch _
    split
    · exact (Alike.refl p).rereads
    · rename_i event later _
      have taken : Alike p (p.modifyWatch w fun watch => { watch with events := later }) :=
        ⟨rfl, rfl, rfl⟩
      refine taken.rereads.trans ?_
      cases event with
      | fault message => exact Alike.rereads ⟨rfl, rfl, rfl⟩
      | changed =>
        have reloaded := reloadDocument
          (p.modifyWatch w fun watch => { watch with events := later }) watch.resolver
        dsimp only
        split
        · split
          · rename_i q published answered
            rw [answered] at reloaded
            exact reloaded.trans (Alike.rereads ⟨rfl, rfl, rfl⟩)
          · rename_i q fault answered
            rw [answered] at reloaded
            exact reloaded.trans (Alike.rereads ⟨rfl, rfl, rfl⟩)
        · exact (Alike.endTask _ w).rereads

theorem dispatch (p : Program) (w : WatchId) : Rereads p (p.dispatch w) := by
  unfold Program.dispatch
  split
  · exact (Alike.refl p).rereads
  · rename_i watch _
    split
    · exact (Alike.refl p).rereads
    · rename_i next later _
      split
      · have taken : Alike p (p.modifyWatch w fun watch => { watch with published := later }) :=
          ⟨rfl, rfl, rfl⟩
        exact (taken.rereads.trans (indifferent.invokeAll _ _)).trans
          (Alike.rereads ⟨rfl, rfl, rfl⟩)
      · exact Alike.rereads ⟨rfl, rfl, rfl⟩

theorem elim {α : Type} {p : Program} {f : α → Program} (rereads : ∀ a, Rereads p (f a))
    (found : Option α) : Rereads p (found.elim p f) := by
  cases found with
  | none => exact (Alike.refl p).rereads
  | some a => exact rereads a

theorem holdRegistered {p : Program} {registered : Program × Outcome × Nat}
    (h : Rereads p registered.1) (name : String) :
    Rereads p (Program.holdRegistered name registered) := by
  obtain ⟨q, outcome, handle⟩ := registered
  cases outcome with
  | completed => exact h.trans (Alike.rereads ⟨rfl, rfl, rfl⟩)
  | panicked message => exact h

end Rereads

/-! ## Resolvers that are made -/

/-- A resolver is made; for others nothing changes. -/
structure Adds (o : Offer) (p q : Program) : Prop where
  files : q.files = p.files
  receivers : q.names.receivers = p.names.receivers
  offers : q.offers = p.offers ++ [o]

theorem Adds.trans {o : Offer} {p q r : Program} (h : Adds o p q) (h' : Alike q r) :
    Adds o p r where
  files := h'.files.trans h.files
  receivers := h'.receivers.trans h.receivers
  offers := h'.offers.trans h.offers

theorem adds_addResolver {p q : Program} (h : Alike p q) (r : Resolver) :
    Adds r.offer p (q.addResolver r).1 where
  files := h.files
  receivers := h.receivers
  offers := by
    rw [← h.offers]
    exact List.map_append

theorem openFile_opens (p : Program) (path : String) (format : Option Format) (facts : Facts) :
    (∃ fault, p.openFile path format facts = (p, .error fault)) ∨
    ∃ d q, Source.load ⟨path, format.getD (Format.ofPath path)⟩ p.files = .ok d ∧
      Adds (.first (some ⟨path, format.getD (Format.ofPath path)⟩) d) p q ∧
      p.openFile path format facts = (q, .ok p.resolvers.length) := by
  rcases p.openFile_eq path format facts with ⟨fault, -, refused⟩ | ⟨d, read, opened⟩
  · exact .inl ⟨fault, refused⟩
  · have logged : Alike p (p.log (.loaded path d.version d.size)) := ⟨rfl, rfl, rfl⟩
    exact .inr ⟨d, _, read, adds_addResolver logged (.create (some _) facts d), opened⟩

theorem openConfig_opens (p : Program) (c : Config) (hasRuntime : Bool)
    (watchable : String → Bool) :
    (p.openConfig c hasRuntime watchable).1 = p ∨
    ∃ d, Source.load ⟨c.path, c.format.getD (Format.ofPath c.path)⟩ p.files = .ok d ∧
      Adds (.first (some ⟨c.path, c.format.getD (Format.ofPath c.path)⟩) d) p
        (p.openConfig c hasRuntime watchable).1 := by
  cases given : c.facts with
  | error fault =>
    rw [openConfig, given]
    exact .inl rfl
  | ok facts =>
    rcases p.openFile_opens c.path c.format facts with ⟨fault, refused⟩ | ⟨d, q, read, adds, opened⟩
    · rw [openConfig_of_error given refused]
      exact .inl rfl
    · rw [openConfig_of_ok given opened]
      refine .inr ⟨d, read, ?_⟩
      split
      · exact adds.trans (Alike.startWatch q _ _ hasRuntime)
      · exact adds

/-! ## All steps -/

/-- A step that brings a subscriber of a resolver up to date, to be held under a name. -/
inductive Marks (p : Program) : Action → String → ResolverId → Prop
  | subscribe {settings : Access} {name : String} {i : ResolverId} :
    p.reached settings = some i → Marks p (.subscribe settings name) name i
  | receive {name : String} {receiver : Receiver} :
    p.names.receivers.get? name = some receiver → Marks p (.receive name) name receiver.resolver

theorem Marks.mayMark {p : Program} {a : Action} {name : String} {i : ResolverId}
    (h : Marks p a name i) : a.mayMark = true := by
  cases h <;> rfl

/-- What a step does to the documents of resolvers. -/
inductive Moves (p : Program) (a : Action) (q : Program) : Prop
  | rereads : Rereads p q → Moves p a q
  | outside : q.offers = p.offers → q.names.receivers = p.names.receivers → Moves p a q
  | opens {source : Source} {d : Document} : a.source? = some source →
    source.load p.files = .ok d → Adds (.first (some source) d) p q → Moves p a q
  | takes {name : String} {d : Document} {facts : Facts} : a = .openDocument name d facts →
    Adds (.first none d) p q → Moves p a q

/-- What a step does to documents and to subscribers. -/
inductive Turn (p : Program) (a : Action) (q : Program) : Prop
  | marks {name : String} {i : ResolverId} : Marks p a name i → q.offers = p.offers →
    q.names.receivers = p.names.receivers.insert name (p.receiver i) → Turn p a q
  | moves : (∀ name i, ¬ Marks p a name i) → Moves p a q → Turn p a q

theorem holdOpened_opens {p : Program} {a : Action} {opened : Program × Except Fault ResolverId}
    (h : Moves p a opened.1) (name : String) : Moves p a (holdOpened name opened) := by
  obtain ⟨q, answer⟩ := opened
  cases answer with
  | error fault => exact h
  | ok i =>
    have held : Alike q (q.holdSettings name i) := ⟨rfl, rfl, rfl⟩
    cases h with
    | rereads h => exact .rereads (h.trans held.rereads)
    | outside offers receivers => exact .outside offers receivers
    | opens source read adds => exact .opens source read (adds.trans held)
    | takes given adds => exact .takes given (adds.trans held)

theorem moves_outside {p : Program} {a : Action} (outside : a.isOutside = true) :
    Moves p a (p.act a) := by
  obtain ⟨change, changes⟩ := Option.isSome_iff_exists.1 outside
  have same := bare_outside (p := p) changes
  have resolvers : (p.act a).bare.resolvers = p.resolvers := by
    rw [same]
    rfl
  have names : (p.act a).bare.names = p.names := by
    rw [same]
    rfl
  exact .outside (congrArg (List.map Resolver.offer) resolvers) (congrArg Names.receivers names)

theorem Moves.turn {p q : Program} {a : Action} (h : Moves p a q) (unmarked : a.mayMark = false) :
    Turn p a q := by
  refine .moves (fun name i marks => ?_) h
  rw [marks.mayMark] at unmarked
  cases unmarked

theorem moves_of_alike {p q : Program} {a : Action} (h : Alike p q) : Moves p a q :=
  .rereads h.rereads

theorem turn_act (p : Program) (a : Action) : Turn p a (p.act a) := by
  cases a with
  | openFile name path format facts =>
    refine Moves.turn (holdOpened_opens ?_ name) rfl
    rcases p.openFile_opens path format facts with ⟨fault, refused⟩ | ⟨d, q, read, adds, opened⟩
    · rw [refused]
      exact moves_of_alike (.refl p)
    · rw [opened]
      exact .opens rfl read adds
  | openDocument name d facts =>
    have adds := adds_addResolver (.refl p) (.create none facts d)
    exact Moves.turn (.takes rfl (adds.trans ⟨rfl, rfl, rfl⟩)) rfl
  | openConfig name c hasRuntime watchable =>
    refine Moves.turn (holdOpened_opens ?_ name) rfl
    rcases p.openConfig_opens c hasRuntime watchable with refused | ⟨d, read, adds⟩
    · rw [refused]
      exact moves_of_alike (.refl p)
    · exact .opens rfl read adds
  | clone settings copy =>
    refine Moves.turn (moves_of_alike (.elim (fun i => ?_) _)) rfl
    exact ⟨rfl, rfl, rfl⟩
  | drop name => exact Moves.turn (moves_of_alike ⟨rfl, rfl, rfl⟩) rfl
  | install settings =>
    refine Moves.turn (moves_of_alike (.elim (fun i => ?_) _)) rfl
    exact ⟨rfl, rfl, rfl⟩
  | uninstall => exact Moves.turn (moves_of_alike ⟨rfl, rfl, rfl⟩) rfl
  | getSafe settings path =>
    exact Moves.turn (moves_of_alike (.elim (fun i => .getSafe p i path) _)) rfl
  | subscribe settings name =>
    cases reached : p.reached settings with
    | none =>
      refine .moves (fun _ _ marks => ?_) ?_
      · cases marks with
        | subscribe found => cases reached.symm.trans found
      · rw [act, reached]
        exact moves_of_alike (.refl p)
    | some i =>
      rw [act, reached]
      exact .marks (.subscribe reached) rfl rfl
  | receive name =>
    cases held : p.names.receivers.get? name with
    | none =>
      refine .moves (fun _ _ marks => ?_) ?_
      · cases marks with
        | receive found => cases held.symm.trans found
      · rw [act, held]
        exact moves_of_alike (.refl p)
    | some receiver =>
      rw [act, held]
      exact .marks (.receive held) rfl rfl
  | onUpdate settings name callback now =>
    refine Moves.turn (.rereads (.elim (fun i => .holdRegistered ?_ name) _)) rfl
    exact Rereads.indifferent.onUpdate p i callback now
  | cancelUpdate settings handle =>
    refine Moves.turn (moves_of_alike (.elim (fun i => .elim (fun index => ?_) _) _)) rfl
    exact .cancel p _ index
  | reload settings =>
    exact Moves.turn (.rereads (.elim (fun i => Rereads.respected.reloaded p i) _)) rfl
  | newRegistry name => exact Moves.turn (moves_of_alike ⟨rfl, rfl, rfl⟩) rfl
  | registerIn registry name callback =>
    refine Moves.turn (moves_of_alike (.elim (fun i => ?_) _)) rfl
    exact (Alike.register p _ callback).trans ⟨rfl, rfl, rfl⟩
  | cancelIn registry handle =>
    refine Moves.turn (moves_of_alike (.elim (fun i => .elim (fun index => ?_) _) _)) rfl
    exact .cancel p _ index
  | invoke registry =>
    exact Moves.turn (.rereads (.elim (fun i => Rereads.respected.invokeAll p _) _)) rfl
  | startWatch settings name notifier hasRuntime =>
    refine Moves.turn (moves_of_alike (.elim (fun i => ?_) _)) rfl
    exact (Alike.startWatch p i notifier hasRuntime).holdNotifier name
  | stopWatch settings => exact Moves.turn (moves_of_alike (.elim (.stopAndLog p) _)) rfl
  | requestStop settings => exact Moves.turn (moves_of_alike (.elim (.requestStop p) _)) rfl
  | writeFile path content => exact Moves.turn (moves_outside rfl) rfl
  | replaceFile path staging content => exact Moves.turn (moves_outside rfl) rfl
  | removeDirectory path => exact Moves.turn (moves_outside rfl) rfl
  | changeFiles change => exact Moves.turn (moves_outside rfl) rfl
  | send w e => exact Moves.turn (moves_outside rfl) rfl
  | close w => exact Moves.turn (moves_outside rfl) rfl
  | takeEvent w => exact Moves.turn (.rereads (.handleEvent p w)) rfl
  | endTask w => exact Moves.turn (moves_of_alike (.endTaskIfOver p w)) rfl
  | dispatch w => exact Moves.turn (.rereads (.dispatch p w)) rfl

end Program
end LayeredSettings
