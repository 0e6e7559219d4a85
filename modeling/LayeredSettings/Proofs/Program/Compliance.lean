import LayeredSettings.Proofs.Program.Contract

/-!
Every process keeps to its terms.

What a process does next is told for each way of putting processes together, with anything between
its operations that the terms allow. So it holds of callbacks, by induction on what they do and on
how deep they may be nested, and from there of rounds, tasks, and all steps.
-/

namespace LayeredSettings

open Program

/-- Somebody can get hold of a resolver: it is alive, or it is a new one. -/
def Program.Offers (p : Program) (alive : ResolverId → Bool) (i : ResolverId) : Prop :=
  alive i = true ∨ p.inUse i = true ∨ p.resolvers.length ≤ i

namespace Process

variable {α β : Type} {C : Terms} {hand taken references : List ResolverId} {s : Scene}

/-- All that a process may do from a scene on is allowed, whatever else happens in the meantime that
is allowed. It acts only on resolvers that it holds, or that somebody holds in whose hand it is, and
gets hold of no others than those on offer. What comes next depends neither on what nobody asks for
nor, while anything is held, on what is alive. -/
def Goes (C : Terms) (hand : List ResolverId) : Process α → Scene → Prop
  | .ended _, _ => True
  | .step rounds held op next, s => ∀ t, C.Ok t → s.Later t →
    (∀ round ∈ rounds, (round.resolver, round.published) ∈ t.published) ∧ C.Allows t op ∧
      (∀ i, op.Concerns t.program i → i ∈ held ∨ i ∈ hand) ∧
      ∀ alive, C.Alive t.program alive →
        (∀ q alive', C.Agree t.program q → (held = [] → hand = [] → alive' = alive) →
          next q alive' = next t.program alive) ∧
        (∀ i ∈ (next t.program alive).held,
          i ∈ held ∨ i ∈ hand ∨ t.program.Offers alive i) ∧
        Goes C hand (next t.program alive) (t.step op)

/-- A process keeps to its terms, and begins with nothing held but what has been taken for it. -/
structure Keeps (C : Terms) (hand taken : List ResolverId) (x : Process α) (s : Scene) :
    Prop where
  held : ∀ i ∈ x.held, i ∈ hand ∨ i ∈ taken
  goes : Goes C hand x s

/-! ## What is allowed -/

/-- An operation is allowed, and is about nothing that is not at hand. -/
structure Permits (C : Terms) (hand : List ResolverId) (s : Scene) (op : Operation) : Prop where
  allowed : C.Allows s op
  concerned : ∀ i, op.Concerns s.program i → i ∈ hand

/-- One may act on an owner of callbacks, which is at hand. -/
structure Entitled (C : Terms) (hand : List ResolverId) (owner : Owner) : Prop where
  owns : C.owners owner
  atHand : ∀ i ∈ owner.references, i ∈ hand

theorem entitled_resolver {i : ResolverId} (own : C.owners (.resolver i)) :
    Entitled C (i :: hand) (.resolver i) :=
  ⟨own, fun _ same => List.mem_singleton.1 same ▸ List.mem_cons_self ..⟩

theorem entitled_registry {i : Nat} (own : C.owners (.registry i)) :
    Entitled C hand (.registry i) :=
  ⟨own, List.forall_mem_nil _⟩

/-- An operation that neither takes hold of anything nor calls a callback is about its owner. -/
theorem concerned_of_quiet {op : Operation} (takes : op.takes? = none) (calls : op.calls? = none)
    {p : Program} {i : ResolverId} (concerns : op.Concerns p i) :
    op.owner? = some (.resolver i) := by
  rcases concerns with own | took | ⟨c, called, -⟩
  · exact own
  · cases takes.symm.trans took
  · cases calls.symm.trans called

/-- An operation on nothing that belongs to anyone. -/
theorem permits_of_free {op : Operation} (free : op.isFree = true) (fits : C.Fits s op) :
    Permits C hand s op := by
  simp only [Operation.isFree, Bool.and_eq_true, Option.isNone_iff_eq_none] at free
  obtain ⟨⟨⟨owner, watch⟩, takes⟩, calls⟩ := free
  refine ⟨⟨fun _ own => ?_, fun _ own => ?_, fits⟩, fun i concerns => ?_⟩
  · cases owner.symm.trans own
  · cases watch.symm.trans own
  · cases owner.symm.trans (concerned_of_quiet takes calls concerns)

theorem permits_of_owner {op : Operation} {owner : Owner} (entitled : Entitled C hand owner)
    (acts : op.owner? = some owner) (watch : op.watch? = none) (takes : op.takes? = none)
    (calls : op.calls? = none) (fits : C.Fits s op) : Permits C hand s op := by
  refine ⟨⟨fun _ other => ?_, fun _ own => ?_, fits⟩, fun i concerns => ?_⟩
  · exact Option.some.inj (acts.symm.trans other) ▸ entitled.owns
  · cases watch.symm.trans own
  · cases acts.symm.trans (concerned_of_quiet takes calls concerns)
    exact entitled.atHand i (List.mem_singleton_self i)

theorem permits_of_watch {op : Operation} {w : WatchId} (own : C.watches w)
    (owner : op.owner? = none) (acts : op.watch? = some w) (takes : op.takes? = none)
    (calls : op.calls? = none) (fits : C.Fits s op) : Permits C hand s op := by
  refine ⟨⟨fun _ other => ?_, fun _ other => ?_, fits⟩, fun i concerns => ?_⟩
  · cases owner.symm.trans other
  · exact Option.some.inj (acts.symm.trans other) ▸ own
  · cases owner.symm.trans (concerned_of_quiet takes calls concerns)

/-- Somebody takes hold of resolvers that are at hand. -/
theorem permits_of_taking {op : Operation} (atHand : ∀ i, op.takes? = some i → i ∈ hand)
    (owner : op.owner? = none) (watch : op.watch? = none) (calls : op.calls? = none)
    (fits : C.Fits s op) : Permits C hand s op := by
  refine ⟨⟨fun _ other => ?_, fun _ own => ?_, fits⟩, fun i concerns => ?_⟩
  · cases owner.symm.trans other
  · cases watch.symm.trans own
  · rcases concerns with own | took | ⟨c, called, -⟩
    · cases owner.symm.trans own
    · exact atHand i took
    · cases calls.symm.trans called

/-- A callback of an owner on which one may act is called. -/
theorem permits_enter {owner : Owner} {c : CallbackId} {m : Mark} (ok : C.Ok s)
    (entitled : Entitled C hand owner) (known : C.Known s.program owner c)
    (other : m.owner? = none) (old : m.new? = none) : Permits C hand s (.enter c m) := by
  obtain ⟨called, handle, found, tame, registered⟩ := known
  refine ⟨⟨fun _ own => ?_, fun _ own => ?_, ?_⟩, fun i concerns => ?_⟩
  · cases other.symm.trans own
  · cases own
  · exact ⟨⟨owner, entitled.owns, called, handle, found, tame, registered⟩, old⟩
  · rcases concerns with own | took | ⟨_, same, handle', registered'⟩
    · cases other.symm.trans own
    · cases took
    · cases same
      have same := ok.owner_unique registered registered'
      exact entitled.atHand i (same ▸ List.mem_singleton_self i)

/-! ## How processes are put together -/

theorem Goes.later {x : Process α} (goes : Goes C hand x s) {t : Scene} (later : s.Later t) :
    Goes C hand x t := by
  cases x with
  | ended a => trivial
  | step rounds held op next => exact fun u ok further => goes u ok (later.trans further)

theorem Keeps.later {x : Process α} (keeps : Keeps C hand taken x s) {t : Scene}
    (later : s.Later t) : Keeps C hand taken x t :=
  ⟨keeps.held, keeps.goes.later later⟩

theorem keeps_pure (a : α) : Keeps C hand taken (pure a) s :=
  ⟨List.forall_mem_nil _, trivial⟩

/-- What is taken need not be held. -/
theorem Keeps.taking {x : Process α} (keeps : Keeps C hand [] x s) : Keeps C hand taken x s :=
  ⟨fun i held => (keeps.held i held).imp_right fun none => absurd none List.not_mem_nil, keeps.goes⟩

/-- A process for which nothing is taken. -/
theorem Keeps.takesNothing {x : Process α} {may : ResolverId → Prop}
    (keeps : Keeps C hand [] x s) :
    ∃ taken, (∀ i ∈ taken, may i) ∧ Keeps C hand taken x s :=
  ⟨[], List.forall_mem_nil may, keeps⟩

/-- What is held when one process comes after another. -/
theorem held_bind {x : Process α} {f : α → Process β} {may : ResolverId → Prop}
    (first : ∀ i ∈ x.held, may i) (rest : ∀ a, ∀ i ∈ (f a).held, may i) :
    ∀ i ∈ (x >>= f).held, may i := by
  cases x with
  | ended a => exact rest a
  | step rounds held op next => exact first

theorem Goes.bind {x : Process α} {f : α → Process β} (first : Goes C hand x s)
    (rest : ∀ a t, s.Later t → Keeps C hand [] (f a) t) : Goes C hand (x >>= f) s := by
  induction x generalizing s with
  | ended a => exact (rest a s (.refl s)).goes
  | step rounds held op next ih =>
    intro t ok later
    obtain ⟨told, allowed, concerned, further⟩ := first t ok later
    refine ⟨told, allowed, concerned, fun alive living => ?_⟩
    obtain ⟨blind, offered, goes⟩ := further alive living
    refine ⟨fun q alive' agree calm => ?_, ?_, ih _ _ goes fun a u later' => ?_⟩
    · exact congrArg (Process.bind · f) (blind q alive' agree calm)
    · refine held_bind offered fun a i member => ?_
      have kept := (rest a s (.refl s)).held i member
      exact .inr (.inl (kept.resolve_right List.not_mem_nil))
    · exact rest a u ((later.trans (t.later_step op)).trans later')

theorem Keeps.bind {x : Process α} {f : α → Process β} (first : Keeps C hand taken x s)
    (rest : ∀ a t, s.Later t → Keeps C hand [] (f a) t) : Keeps C hand taken (x >>= f) s where
  held := held_bind first.held fun a => (rest a s (.refl s)).taking.held
  goes := first.goes.bind rest

theorem Goes.within {x : Process α} (goes : Goes C hand x s) {round : Round}
    (told : (round.resolver, round.published) ∈ s.published) :
    Goes C hand (x.within round) s := by
  induction x generalizing s with
  | ended a => trivial
  | step rounds held op next ih =>
    intro t ok later
    obtain ⟨others, allowed, concerned, further⟩ := goes t ok later
    have still := later.published _ told
    refine ⟨List.forall_mem_cons.2 ⟨still, others⟩, allowed, concerned, fun alive living => ?_⟩
    obtain ⟨blind, offered, goes⟩ := further alive living
    refine ⟨fun q alive' agree calm => ?_, ?_, ?_⟩
    · exact congrArg (Process.within round) (blind q alive' agree calm)
    · rwa [held_within]
    · exact ih _ _ goes ((t.later_step op).published _ still)

theorem Keeps.within {x : Process α} (keeps : Keeps C hand taken x s) {round : Round}
    (told : (round.resolver, round.published) ∈ s.published) :
    Keeps C hand taken (x.within round) s where
  held := by
    rw [held_within]
    exact keeps.held
  goes := keeps.goes.within told

/-- What is held for a process is at hand to it. -/
theorem Goes.holding {x : Process α} (goes : Goes C (references ++ hand) x s) :
    Goes C hand (x.holding references) s := by
  induction x generalizing s with
  | ended a => trivial
  | step rounds held op next ih =>
    intro t ok later
    obtain ⟨told, allowed, concerned, further⟩ := goes t ok later
    refine ⟨told, allowed, fun i concerns => ?_, fun alive living => ?_⟩
    · have near := concerned i concerns
      simp only [List.mem_append] at near ⊢
      tauto
    · obtain ⟨blind, offered, goes⟩ := further alive living
      refine ⟨fun q alive' agree calm => ?_, fun i member => ?_, ih _ _ goes⟩
      · refine congrArg (Process.holding references) (blind q alive' agree fun none nobody => ?_)
        obtain ⟨nothing, nobody⟩ := List.append_eq_nil_iff.1 nobody
        exact calm (by rw [nothing, none]; rfl) nobody
      · have near := mem_held_holding member
        have before := offered i
        simp only [List.mem_append] at before ⊢
        tauto

theorem Keeps.holding {x : Process α} (keeps : Keeps C (references ++ hand) [] x s) :
    Keeps C hand references (x.holding references) s where
  held i member := by
    rcases mem_held_holding member with held | held
    · exact .inr held
    · have near := (keeps.held i held).resolve_right List.not_mem_nil
      exact (List.mem_append.1 near).symm
  goes := keeps.goes.holding

/-- One operation, and what follows from what it found. -/
theorem keeps_once_taking {op : Operation} {f : Program → α} {next : α → Process β}
    (h : ∀ t, C.Ok t → s.Later t → Permits C hand t op ∧
      (∀ q, C.Agree t.program q → f q = f t.program) ∧
      ∃ taken, (∀ i ∈ taken, t.program.inUse i = true ∨ t.program.resolvers.length ≤ i) ∧
        Keeps C hand taken (next (f t.program)) (t.step op)) :
    Keeps C hand [] (once op f >>= next) s := by
  refine ⟨List.forall_mem_nil _, fun t ok later => ?_⟩
  obtain ⟨permits, blind, taken, offered, keeps⟩ := h t ok later
  refine ⟨List.forall_mem_nil _, permits.allowed,
    fun i concerns => .inr (permits.concerned i concerns), fun alive _ => ⟨?_, ?_, keeps.goes⟩⟩
  · exact fun q alive' agree _ => congrArg next (blind q agree)
  · intro i member
    rcases keeps.held i member with near | took
    · exact .inr (.inl near)
    · exact .inr (.inr (.inr (offered i took)))

theorem keeps_once {op : Operation} {f : Program → α} {next : α → Process β}
    (h : ∀ t, C.Ok t → s.Later t → Permits C hand t op ∧
      (∀ q, C.Agree t.program q → f q = f t.program) ∧
      Keeps C hand [] (next (f t.program)) (t.step op)) :
    Keeps C hand [] (once op f >>= next) s := by
  refine keeps_once_taking fun t ok later => ?_
  obtain ⟨permits, blind, keeps⟩ := h t ok later
  exact ⟨permits, blind, keeps.takesNothing⟩

/-- One operation and nothing else. -/
theorem keeps_only {op : Operation} {f : Program → α}
    (h : ∀ t, C.Ok t → s.Later t → Permits C hand t op ∧
      ∀ q, C.Agree t.program q → f q = f t.program) : Keeps C hand [] (once op f) s := by
  have answered : Keeps C hand [] (once op f >>= pure) s := by
    refine keeps_once fun t ok later => ?_
    obtain ⟨permits, blind⟩ := h t ok later
    exact ⟨permits, blind, keeps_pure _⟩
  exact answered

theorem keeps_does {op : Operation} (h : ∀ t, C.Ok t → s.Later t → Permits C hand t op) :
    Keeps C hand [] (does op) s :=
  keeps_only fun t ok later => ⟨h t ok later, fun _ _ => rfl⟩

/-- Something is looked up, and what is found may be taken hold of. -/
theorem keeps_see_taking {f : Program → α} {next : α → Process β}
    (h : ∀ t, C.Ok t → s.Later t → (∀ q, C.Agree t.program q → f q = f t.program) ∧
      ∃ taken, (∀ i ∈ taken, t.program.inUse i = true) ∧
        Keeps C hand taken (next (f t.program)) t) : Keeps C hand [] (see f >>= next) s := by
  refine keeps_once_taking fun t ok later => ?_
  obtain ⟨blind, taken, inUse, keeps⟩ := h t ok later
  exact ⟨permits_of_free rfl trivial, blind, taken, fun i took => .inl (inUse i took),
    keeps.later (t.later_step .look)⟩

theorem keeps_see {f : Program → α} {next : α → Process β}
    (h : ∀ t, C.Ok t → s.Later t → (∀ q, C.Agree t.program q → f q = f t.program) ∧
      Keeps C hand [] (next (f t.program)) t) : Keeps C hand [] (see f >>= next) s := by
  refine keeps_see_taking fun t ok later => ?_
  obtain ⟨blind, keeps⟩ := h t ok later
  exact ⟨blind, keeps.takesNothing⟩

/-- A task that holds nothing looks at what is alive, and may take hold of it. -/
theorem keeps_seeAlive {f : Program → (ResolverId → Bool) → α} {next : α → Process β}
    (h : ∀ t, C.Ok t → s.Later t → ∀ alive, C.Alive t.program alive →
      (∀ q, C.Agree t.program q → f q alive = f t.program alive) ∧
      ∃ taken, (∀ i ∈ taken, alive i = true) ∧ Keeps C [] taken (next (f t.program alive)) t) :
    Keeps C [] [] (seeAlive f >>= next) s := by
  refine ⟨List.forall_mem_nil _, fun t ok later => ?_⟩
  have permits : Permits C [] t .look := permits_of_free rfl trivial
  refine ⟨List.forall_mem_nil _, permits.allowed,
    fun i concerns => .inr (permits.concerned i concerns), fun alive living => ?_⟩
  obtain ⟨blind, taken, living', keeps⟩ := h t ok later alive living
  refine ⟨fun q alive' agree calm => ?_, fun i member => ?_, keeps.goes.later (t.later_step .look)⟩
  · rw [calm rfl rfl]
    exact congrArg next (blind q agree)
  · rcases keeps.held i member with near | took
    · exact .inr (.inl near)
    · exact .inr (.inr (.inl (living' i took)))

theorem keeps_found_taking {f : Program → Option α} {next : α → Process β}
    (blind : ∀ t, C.Ok t → ∀ q, C.Agree t.program q → f q = f t.program)
    (h : ∀ t, C.Ok t → s.Later t → ∀ a, f t.program = some a →
      ∃ taken, (∀ i ∈ taken, t.program.inUse i = true) ∧ Keeps C hand taken (next a) t) :
    Keeps C hand [] (found f next) s := by
  refine keeps_see_taking fun t ok later => ⟨blind t ok, ?_⟩
  cases known : f t.program with
  | none => exact (keeps_pure _).takesNothing
  | some a =>
    obtain ⟨taken, inUse, keeps⟩ := h t ok later a known
    exact ⟨taken, inUse, keeps.bind fun _ _ _ => keeps_pure _⟩

theorem keeps_found {f : Program → Option α} {next : α → Process β}
    (blind : ∀ t, C.Ok t → ∀ q, C.Agree t.program q → f q = f t.program)
    (h : ∀ t, C.Ok t → s.Later t → ∀ a, f t.program = some a → Keeps C hand [] (next a) t) :
    Keeps C hand [] (found f next) s :=
  keeps_found_taking blind fun t ok later a known =>
    (h t ok later a known).takesNothing

theorem keeps_silently {x : Process α} (h : Keeps C hand taken x s) :
    Keeps C hand taken (silently x) s :=
  h.bind fun _ _ _ => keeps_pure _

theorem keeps_note (o : Occurrence) : Keeps C hand [] (does (.note o)) s :=
  keeps_does fun _ _ _ => permits_of_free rfl trivial

/-- The owner of a mark is the only one whom it concerns. -/
theorem keeps_mark {m : Mark} (other : m.owner? = none) (old : m.new? = none) :
    Keeps C hand [] (does (.mark m)) s := by
  refine keeps_does fun _ _ _ => permits_of_free ?_ old
  show ((m.owner?.isNone && true) && true && true) = true
  rw [other]
  rfl

/-! ## What agreeing programs have in common -/

theorem reached_of_agree {p q : Program} (agree : C.Agree p q) {ask : Ask} {access : Access}
    (may : C.asks ask) (reads : ask.reads? = some access) : q.reached access = p.reached access :=
  agree.asked may access (Option.mem_def.2 reads)

theorem ownersNamed_of_agree {p q : Program} (agree : C.Agree p q) {name : String}
    (may : C.asks (.owner name)) : q.ownersNamed name = p.ownersNamed name := by
  have settings : q.names.settings.get? name = p.names.settings.get? name :=
    reached_of_agree agree may rfl
  have registries : q.names.registries = p.names.registries := by
    rw [agree.same]
    rfl
  rw [ownersNamed, ownersNamed, settings, registries]

theorem resolvers_of_agree {p q : Program} (agree : C.Agree p q) : q.resolvers = p.resolvers := by
  rw [agree.same]
  rfl

theorem registry_of_agree {p q : Program} (agree : C.Agree p q) (owner : Owner) :
    q.registry owner = p.registry owner := by
  rw [agree.same]
  cases owner <;> rfl

theorem reloadDocument_of_agree {p q : Program} (agree : C.Agree p q) (i : ResolverId) :
    (q.reloadDocument i).2 = (p.reloadDocument i).2 := by
  rw [agree.same, reloadDocument_withHandles]

theorem owner_of_reached (ok : C.Ok s) {access : Access} (may : C.asks (.settings access))
    {i : ResolverId} (reached : s.program.reached access = some i) : C.owners (.resolver i) := by
  refine C.named ok.refers may _ ?_
  simp [Ask.owners, reached]

theorem owner_of_registry (ok : C.Ok s) {name : String} (may : C.asks (.registry name)) {i : Nat}
    (held : s.program.names.registries.get? name = some i) : C.owners (.registry i) := by
  refine C.named ok.refers may _ ?_
  simp [Ask.owners, held]

/-- Settings that a name refers to are in use. -/
theorem inUse_of_ownersNamed {p : Program} {name : String} {owner : Owner}
    (named : owner ∈ p.ownersNamed name) : ∀ i ∈ owner.references, p.inUse i = true := by
  intro i member
  rcases List.mem_append.1 named with settings | registries
  · obtain ⟨k, held, rfl⟩ := Option.map_eq_some_iff.1 (Option.mem_toList.1 settings)
    have reached : p.reached (.named name) = some k := held
    exact List.mem_singleton.1 member ▸ inUse_of_reached reached
  · obtain ⟨k, held, rfl⟩ := Option.map_eq_some_iff.1 (Option.mem_toList.1 registries)
    cases member

theorem mem_published_step {i : ResolverId} {published : Publication}
    (answered : (s.program.reloadDocument i).2 = .ok published) :
    (i, published) ∈ (s.step (.reload i)).published := by
  refine List.mem_append_right _ ?_
  simp [Operation.publishes, answered, Except.toOption]

/-- What is done with settings that are reached, while they are held. -/
theorem keeps_reaching {access : Access} (may : C.asks (.settings access))
    {next : ResolverId → Process β}
    (h : ∀ i t, C.Ok t → C.owners (.resolver i) → Keeps C (i :: hand) [] (next i) t) :
    Keeps C hand [] (reaching access next) s := by
  refine keeps_found_taking (fun _ _ _ agree => reached_of_agree agree may rfl)
    fun t ok _ i reached =>
      ⟨[i], fun k same => ?_, (h i t ok (owner_of_reached ok may reached)).holding⟩
  exact List.mem_singleton.1 same ▸ inUse_of_reached reached

/-! ## Callbacks -/

/-- A call of a callback that is known, whose owner is at hand, keeps to the terms. -/
def Calls (C : Terms) (call : Caller) : Prop :=
  ∀ hand owner c m s, m.owner? = none → m.new? = none → Entitled C hand owner →
    C.Known s.program owner c → Keeps C hand [] (call c m) s

section
variable {call : Caller} (calls : Calls C call) {owner : Owner} (entitled : Entitled C hand owner)
include calls entitled

theorem keeps_callEach (round : Nat) {slots : List (Nat × CallbackId)}
    (known : ∀ slot ∈ slots, C.Known s.program owner slot.2) (n : Nat) :
    Keeps C hand [] (callEach call round slots n) s := by
  induction slots generalizing s n with
  | nil => exact keeps_pure n
  | cons slot slots ih =>
    obtain ⟨now, others⟩ := List.forall_mem_cons.1 known
    refine (calls hand owner slot.2 _ s rfl rfl entitled now).bind fun outcome t later => ?_
    have rest : ∀ u, t.Later u → ∀ n, Keeps C hand [] (callEach call round slots n) u :=
      fun u later' => ih fun other member => (others other member).mono (later.trans later')
    cases outcome with
    | completed => exact (keeps_mark rfl rfl).bind fun _ u later' => rest u later' _
    | panicked message => exact (keeps_note _).bind fun _ u later' => rest u later' _

theorem keeps_invokeAll : Keeps C hand [] (invokeAll call owner) s := by
  refine keeps_once fun t ok _ =>
    ⟨permits_of_owner entitled rfl rfl rfl rfl rfl, fun q agree => ?_, ?_⟩
  · rw [registry_of_agree agree, agree.same]
    rfl
  · -- The slots are those of this moment, so what is known of them now has to last.
    have known : ∀ slot ∈ (t.program.registry owner).live,
        C.Known (t.step (.mark (.began owner))).program owner slot.2 :=
      fun slot member => (ok.known owner entitled.owns slot member).mono (t.later_step _)
    refine (keeps_callEach calls entitled _ known 0).bind fun completed u _ => ?_
    exact (keeps_mark rfl rfl).bind fun _ _ _ => keeps_pure _

theorem keeps_registerAndCall {callback : Callback} (tame : C.Tame callback) :
    Keeps C hand [] (registerAndCall call owner callback) s := by
  refine keeps_once fun t ok _ =>
    ⟨permits_of_owner entitled rfl rfl rfl rfl tame, fun q agree => ?_, ?_⟩
  · rw [registry_of_agree agree, agree.same]
    rfl
  · have known : C.Known (t.program.register owner callback).1 owner t.program.callbacks.length :=
      Terms.known_register tame
    exact (calls _ _ _ _ _ rfl rfl entitled known).bind fun _ _ _ => keeps_pure _

end

section
variable {call : Caller} (calls : Calls C call) {i : ResolverId}
  (entitled : Entitled C hand (.resolver i))
include calls entitled

theorem keeps_announce {published : Publication} (told : (i, published) ∈ s.published) :
    Keeps C hand [] (announce call i published) s := by
  refine Keeps.within ?_ told
  exact (keeps_invokeAll calls entitled).bind fun _ _ _ => keeps_note _

theorem keeps_reload : Keeps C hand [] (reload call i) s := by
  refine keeps_once fun t ok _ =>
    ⟨permits_of_owner entitled rfl rfl rfl rfl trivial, fun q agree => ?_, ?_⟩
  · exact reloadDocument_of_agree agree i
  · cases answered : (t.program.reloadDocument i).2 with
    | error fault => exact keeps_pure _
    | ok published =>
      have told := mem_published_step answered
      exact (keeps_announce calls entitled told).bind fun _ _ _ => keeps_pure _

end

theorem keeps_cancelEach (handle : Nat) {owners : List Owner}
    (entitled : ∀ owner ∈ owners, Entitled C hand owner) :
    Keeps C hand [] (cancelEach handle owners) s := by
  induction owners generalizing s with
  | nil => exact keeps_pure ()
  | cons owner owners ih =>
    obtain ⟨now, others⟩ := List.forall_mem_cons.1 entitled
    have cancelled : Keeps C hand [] (does (.cancel owner handle)) s :=
      keeps_does fun _ _ _ => permits_of_owner now rfl rfl rfl rfl trivial
    exact cancelled.bind fun _ _ _ => ih others

/-- A handle of settings is put under a name. -/
theorem keeps_holdSettings {name : String} (may : C.asks (.rebind (.named name))) {i : ResolverId}
    (own : C.owners (.resolver i)) : Keeps C (i :: hand) [] (does (.holdSettings name i)) s := by
  refine keeps_does fun _ _ _ => permits_of_taking (fun k same => ?_) rfl rfl rfl ⟨may, own⟩
  exact Option.some.inj same ▸ List.mem_cons_self ..

theorem keeps_rebind {change : Rebinding} (asks : ∀ ask ∈ change.asks, C.asks ask) :
    Keeps C hand [] (rebind change) s := by
  cases change with
  | clone settings copy =>
    obtain ⟨reaches, rebinds⟩ := List.forall_mem_cons.1 asks
    have may := rebinds _ (List.mem_singleton_self _)
    have cloned : Keeps C hand []
        (reaching settings fun i => does (.holdSettings copy i)) s :=
      keeps_reaching reaches fun i t _ own => keeps_holdSettings may own
    exact cloned.bind fun _ _ _ => keeps_pure _
  | drop name =>
    have may := asks _ (List.mem_singleton_self _)
    exact keeps_does fun _ _ _ => permits_of_free rfl may
  | install settings =>
    obtain ⟨reaches, rebinds⟩ := List.forall_mem_cons.1 asks
    have may := rebinds _ (List.mem_singleton_self _)
    have installed : Keeps C hand [] (reaching settings fun i => does (.install (some i))) s := by
      refine keeps_reaching reaches fun i t _ own => keeps_does fun _ _ _ => ?_
      have owned : ∀ j ∈ some i, C.owners (.resolver j) := fun j same => Option.some.inj same ▸ own
      refine permits_of_taking (fun k same => ?_) rfl rfl rfl ⟨may, owned⟩
      exact Option.some.inj same ▸ List.mem_cons_self ..
    exact installed.bind fun _ _ _ => keeps_pure _
  | uninstall =>
    have may := asks _ (List.mem_singleton_self _)
    exact keeps_does fun _ _ _ => permits_of_free rfl ⟨may, fun _ none => by cases none⟩

/-- The owners that a name refers to are held. -/
theorem entitled_of_named {owner : Owner} {references : List ResolverId} (own : C.owners owner)
    (held : ∀ i ∈ owner.references, i ∈ references) : Entitled C (references ++ hand) owner :=
  ⟨own, fun i member => List.mem_append_left _ (held i member)⟩

theorem keeps_perform {inner : Option Caller} (calls : ∀ call ∈ inner, Calls C call)
    {script : Script} (asks : script.AsksOnly C.asks) :
    Keeps C hand [] (perform inner script) s := by
  -- The scene is another one at each step, since others take their turns.
  induction script generalizing s with
  | done => exact keeps_pure _
  | panic message => exact keeps_pure _
  | record text next ih => exact (keeps_note _).bind fun _ _ _ => ih asks
  | version settings next ih =>
    refine keeps_see fun t _ _ => ⟨fun q agree => ?_, ih _ (asks.2 _)⟩
    have held : q.names.settings.get? settings = t.program.names.settings.get? settings :=
      reached_of_agree agree asks.1 rfl
    rw [held, resolvers_of_agree agree]
  | handle name next ih =>
    exact keeps_see fun t _ _ => ⟨fun q agree => by rw [agree.same]; rfl, ih _ (asks _)⟩
  | cancel owner handle next ih =>
    refine keeps_see_taking fun t ok _ => ⟨fun q agree => ownersNamed_of_agree agree asks.1,
      (t.program.ownersNamed owner).flatMap Owner.references, fun i member => ?_, ?_⟩
    · obtain ⟨first, named, held⟩ := List.mem_flatMap.1 member
      exact inUse_of_ownersNamed named i held
    · have entitled : ∀ first ∈ t.program.ownersNamed owner, Entitled C
          ((t.program.ownersNamed owner).flatMap Owner.references ++ hand) first :=
        fun first named => entitled_of_named (C.named ok.refers asks.1 first named)
          fun i member => List.mem_flatMap.2 ⟨first, named, member⟩
      exact (keeps_cancelEach handle entitled).holding.bind fun _ _ _ => ih asks.2
  | register owner callback now next _ ih =>
    obtain ⟨may, tame, further⟩ := asks
    rw [perform]
    refine keeps_see_taking fun t ok _ => ⟨fun q agree => ?_, ?_⟩
    · rw [ownersNamed_of_agree agree may]
    · cases found : (t.program.ownersNamed owner).head? with
      | none => exact (ih _ (further _)).takesNothing
      | some first =>
        have named := List.mem_of_head? found
        have entitled : Entitled C (first.references ++ hand) first :=
          entitled_of_named (C.named ok.refers may first named) fun _ member => member
        refine ⟨first.references, inUse_of_ownersNamed named, ?_⟩
        cases now with
        | false =>
          have registered : Keeps C (first.references ++ hand) []
              (once (.register first callback) fun p => (p.registry first).size) t :=
            keeps_only fun u _ _ => ⟨permits_of_owner entitled rfl rfl rfl rfl tame,
              fun q agree => by rw [registry_of_agree agree]⟩
          exact registered.holding.bind fun _ _ _ => ih _ (further _)
        | true =>
          cases inner with
          | none => exact keeps_pure _
          | some call =>
            have called := keeps_registerAndCall (s := t) (calls call rfl) entitled tame
            refine called.holding.bind fun answer u _ => ?_
            obtain ⟨outcome, handle⟩ := answer
            cases outcome with
            | completed => exact ih _ (further _)
            | panicked message => exact keeps_pure _
  | invoke registry next ih =>
    rw [perform]
    refine keeps_see fun t ok _ => ⟨fun q agree => by rw [agree.same]; rfl, ?_⟩
    cases held : t.program.names.registries.get? registry with
    | none => exact ih _ (asks.2 _)
    | some i =>
      cases inner with
      | none => exact keeps_pure _
      | some call =>
        have entitled : Entitled C hand (.registry i) :=
          entitled_registry (owner_of_registry ok asks.1 held)
        exact (keeps_invokeAll (calls call rfl) entitled).bind fun _ _ _ => ih _ (asks.2 _)
  | reload settings next ih =>
    rw [perform]
    refine keeps_see_taking fun t ok _ => ⟨fun q agree => reached_of_agree agree asks.1 rfl, ?_⟩
    cases held : t.program.names.settings.get? settings with
    | none => exact (ih _ (asks.2 _)).takesNothing
    | some i =>
      have reached : t.program.reached (.named settings) = some i := held
      have inUse : ∀ k ∈ [i], t.program.inUse k = true :=
        fun k same => List.mem_singleton.1 same ▸ inUse_of_reached reached
      refine ⟨[i], inUse, ?_⟩
      cases inner with
      | none => exact keeps_pure _
      | some call =>
        have entitled : Entitled C (i :: hand) (.resolver i) :=
          entitled_resolver (owner_of_reached ok asks.1 reached)
        have reloaded := keeps_reload (s := t) (calls call rfl) entitled
        exact reloaded.holding.bind fun _ _ _ => ih _ (asks.2 _)
  | rebind change next ih => exact (keeps_rebind asks.1).bind fun _ _ _ => ih asks.2

theorem calls_callOnce {inner : Option Caller} (inside : ∀ call ∈ inner, Calls C call) :
    Calls C (callOnce inner) := by
  intro hand owner c m s other old entitled known
  refine keeps_once fun t ok later => ⟨?_, fun q agree => ?_, ?_⟩
  · exact permits_enter ok entitled (known.mono later) other old
  · rw [agree.same]
    rfl
  · obtain ⟨called, handle, found, tame, -⟩ := known.mono later
    have entered : (t.program.enter c m).callbacks[c]? =
        some { called with runs := called.runs + 1 } := by
      show (t.program.callbacks.modify c _)[c]? = _
      rw [List.getElem?_modify_eq, found]
      rfl
    rw [entered]
    exact keeps_perform inside (tame _)

theorem calls_callWithin (depth : Nat) : Calls C (callWithin depth) := by
  induction depth with
  | zero => exact calls_callOnce fun call inside => by cases inside
  | succ depth ih =>
    refine calls_callOnce fun call inside => ?_
    cases inside
    exact ih

theorem calls_call : Calls C call := calls_callWithin nestingLimit

/-! ## Tasks -/

theorem keeps_endTask {w : WatchId} (own : C.watches w) :
    Keeps C hand [] (does (.endTask w)) s :=
  keeps_does fun _ _ _ => permits_of_watch own rfl rfl rfl rfl trivial

/-- Somebody is alive only where one may act on it, or where it is in use. -/
theorem entitled_of_alive {w : WatchId} {watch : Watch} {alive : ResolverId → Bool} (ok : C.Ok s)
    (own : C.watches w) (found : s.program.watches[w]? = some watch)
    (living : C.Alive s.program alive) (now : alive watch.resolver = true) :
    Entitled C (watch.resolver :: hand) (.resolver watch.resolver) := by
  rcases living watch.resolver now with inUse | owns
  · exact entitled_resolver (ok.watched own found inUse)
  · exact entitled_resolver owns

theorem keeps_reloadQueued {w : WatchId} {i : ResolverId} (own : C.watches w)
    (entitled : Entitled C hand (.resolver i))
    (watched : ∃ watch, s.program.watches[w]? = some watch ∧ watch.resolver = i) :
    Keeps C hand [] (reloadQueued w i) s := by
  refine keeps_once fun t _ later =>
    ⟨permits_of_owner entitled rfl rfl rfl rfl trivial, fun q agree => ?_, ?_⟩
  · exact reloadDocument_of_agree agree i
  · cases answered : (t.program.reloadDocument i).2 with
    | ok published =>
      have told := mem_published_step answered
      refine keeps_does fun u _ later' => permits_of_watch own rfl rfl rfl rfl fun now held => ?_
      -- The watch still is one of the same resolver, whenever the task goes on.
      obtain ⟨watch, found, rfl⟩ := watched
      obtain ⟨same, found', resolver⟩ :=
        (later.trans ((t.later_step _).trans later')).watches found
      cases found'.symm.trans held
      rw [resolver]
      exact later'.published _ told
    | error fault =>
      refine keeps_see fun u _ _ => ⟨fun q agree => ?_, keeps_note _⟩
      rw [resolvers_of_agree agree]

theorem keeps_handleChange {w : WatchId} {i : ResolverId} (own : C.watches w)
    (watched : ∃ watch, s.program.watches[w]? = some watch ∧ watch.resolver = i) :
    Keeps C [] [] (handleChange w i) s := by
  obtain ⟨watch, found, rfl⟩ := watched
  refine keeps_seeAlive fun t ok later alive living => ⟨fun q agree => ?_, ?_⟩
  · rw [resolvers_of_agree agree]
  · obtain ⟨now, found', same⟩ := later.watches found
    split
    · rename_i both
      have here := (Bool.and_eq_true _ _ ▸ both).1
      refine ⟨[watch.resolver], fun i one => List.mem_singleton.1 one ▸ here, ?_⟩
      have entitled : Entitled C [now.resolver] (.resolver now.resolver) :=
        entitled_of_alive ok own found' living (same ▸ here)
      exact (keeps_reloadQueued own (same ▸ entitled) ⟨now, found', same⟩).holding
    · exact (keeps_endTask own).takesNothing

theorem keeps_handleEvent {w : WatchId} (own : C.watches w) :
    Keeps C [] [] (handleEvent w) s := by
  refine keeps_once fun t ok _ =>
    ⟨permits_of_watch own rfl rfl rfl rfl trivial, fun q agree => ?_, ?_⟩
  · rw [agree.same]
    rfl
  · cases found : t.program.watches[w]? with
    | none => exact keeps_pure _
    | some watch =>
      simp only [Option.bind_some]
      cases watch.events.head? with
      | none => exact keeps_pure _
      | some event =>
        cases event with
        | fault message => exact keeps_note _
        | changed => exact keeps_handleChange own (Operation.watch_stays _ found)

theorem keeps_dispatch {w : WatchId} (own : C.watches w) : Keeps C [] [] (dispatch w) s := by
  refine keeps_once fun t ok _ =>
    ⟨permits_of_watch own rfl rfl rfl rfl trivial, fun q agree => ?_, ?_⟩
  · rw [agree.same]
    rfl
  · cases found : t.program.watches[w]? with
    | none => exact keeps_pure _
    | some watch =>
      simp only [Option.bind_some]
      cases waiting : watch.published.head? with
      | none => exact keeps_pure _
      | some published =>
        have told := ok.queued found published (List.mem_of_head? waiting)
        refine keeps_seeAlive fun u ok' later alive living => ⟨fun q agree => rfl, ?_⟩
        have since := (t.later_step (.takePublication w)).trans later
        obtain ⟨now, found', same⟩ := since.watches found
        split
        · rename_i here
          refine ⟨[watch.resolver], fun i one => List.mem_singleton.1 one ▸ here, ?_⟩
          have entitled : Entitled C [now.resolver] (.resolver now.resolver) :=
            entitled_of_alive ok' own found' living (same ▸ here)
          have announced : Keeps C [watch.resolver] [] (announce call watch.resolver published) u :=
            keeps_announce calls_call (same ▸ entitled) (since.published _ told)
          exact announced.holding
        · have discarded : Keeps C [] [] (does (.discard w)) u :=
            keeps_does fun _ _ _ => permits_of_watch own rfl rfl rfl rfl trivial
          exact discarded.takesNothing

theorem keeps_endTaskIfOver {w : WatchId} (own : C.watches w) :
    Keeps C [] [] (endTaskIfOver w) s := by
  refine keeps_seeAlive fun t _ _ alive _ =>
    ⟨fun q agree => ?_, [], List.forall_mem_nil _, ?_⟩
  · have watches : q.watches = t.program.watches := by
      rw [agree.same]
      rfl
    rw [watches]
  · split
    · exact keeps_endTask own
    · exact keeps_pure _

theorem keeps_notifyEach (own : ∀ w, C.watches w) (names : Option (List String))
    (watches : List WatchId) : Keeps C hand [] (notifyEach names watches) s := by
  induction watches generalizing s with
  | nil => exact keeps_pure _
  | cons w watches ih =>
    refine keeps_see fun t _ _ => ⟨fun q agree => by rw [agree.same]; rfl, ?_⟩
    split
    · have sent : Keeps C hand [] (does (.send w .changed)) t :=
        keeps_does fun _ _ _ => permits_of_watch (own w) rfl rfl rfl rfl trivial
      exact sent.bind fun _ _ _ => ih
    · exact ih

theorem keeps_changeFile (files : C.files) (path : String) (change : FileStore → FileStore) :
    Keeps C hand [] (changeFile path change) s := by
  refine keeps_once fun t _ _ => ⟨permits_of_free rfl files, fun q agree => ?_, ?_⟩
  · rw [agree.same]
    rfl
  · refine keeps_see fun u _ _ => ⟨fun q agree => by rw [agree.same]; rfl, ?_⟩
    exact keeps_notifyEach (C.heard files) _ _

/-! ## Steps -/

theorem keeps_onUpdate {i : ResolverId} {callback : Callback}
    (entitled : Entitled C hand (.resolver i)) (tame : C.Tame callback) (now : Bool) :
    Keeps C hand [] (onUpdate i callback now) s := by
  cases now with
  | true => exact keeps_registerAndCall calls_call entitled tame
  | false =>
    refine keeps_only fun t _ _ =>
      ⟨permits_of_owner entitled rfl rfl rfl rfl tame, fun q agree => ?_⟩
    rw [registry_of_agree agree]

theorem keeps_holdRegistered (name : String) (registered : Outcome × Nat) :
    Keeps C hand [] (holdRegistered name registered) s := by
  obtain ⟨outcome, handle⟩ := registered
  cases outcome with
  | completed => exact keeps_does fun _ _ _ => permits_of_free rfl trivial
  | panicked message => exact keeps_pure _

theorem keeps_holdNotifier (name : String) (started : Except Fault WatchId) :
    Keeps C hand [] (holdNotifier name started) s := by
  cases started with
  | error fault => exact keeps_pure _
  | ok w => exact keeps_does fun _ _ _ => permits_of_free rfl trivial

theorem keeps_startWatch {i : ResolverId} (entitled : Entitled C hand (.resolver i))
    (notifier : Source → Notifier) (hasRuntime : Bool) :
    Keeps C hand [] (startWatch i notifier hasRuntime) s := by
  refine keeps_only fun t _ _ =>
    ⟨permits_of_owner entitled rfl rfl rfl rfl trivial, fun q agree => ?_⟩
  rw [agree.same, startWatch_withHandles]

/-- A file that is opened gives a new resolver, which is held while something is done with it. -/
theorem keeps_opening {path : String} {format : Option Format} {facts : Facts}
    {next : ResolverId → Process Unit}
    (rest : ∀ i t, C.owners (.resolver i) → Keeps C (i :: hand) [] (next i) t) :
    Keeps C hand [] (openFile path format facts >>= opening next) s := by
  refine keeps_once_taking fun t ok _ => ⟨permits_of_free rfl trivial, fun q agree => ?_, ?_⟩
  · rw [agree.same, openFile_withHandles]
  · rcases t.program.openFile_eq path format facts with ⟨fault, -, failed⟩ | ⟨d, -, made⟩
    · rw [failed]
      exact (keeps_pure ()).takesNothing
    · rw [made]
      refine ⟨[t.program.resolvers.length], fun i new => ?_, (rest _ _ (C.fresh ok.refers)).holding⟩
      exact .inr (List.mem_singleton.1 new ▸ Nat.le_refl _)

theorem keeps_watchOpened {name : String} (may : C.asks (.rebind (.named name))) {i : ResolverId}
    (own : C.owners (.resolver i)) {c : Config} {hasRuntime : Bool} {watchable : String → Bool} :
    Keeps C (i :: hand) [] (watchOpened name c hasRuntime watchable i) s := by
  unfold watchOpened
  split
  · refine (keeps_startWatch (entitled_resolver own) _ hasRuntime).bind fun started t _ => ?_
    cases started with
    | ok w => exact keeps_holdSettings may own
    | error fault => exact keeps_pure ()
  · exact keeps_holdSettings may own

theorem keeps_openConfig {name : String} (may : C.asks (.rebind (.named name))) {c : Config}
    {hasRuntime : Bool} {watchable : String → Bool} :
    Keeps C hand [] (openConfig name c hasRuntime watchable) s := by
  unfold openConfig
  cases c.facts with
  | error fault => exact keeps_pure ()
  | ok facts => exact keeps_opening fun i t own => keeps_watchOpened may own

theorem keeps_stopAndLog {i : ResolverId} (entitled : Entitled C hand (.resolver i)) :
    Keeps C hand [] (stopAndLog i) s := by
  refine keeps_once fun t ok _ =>
    ⟨permits_of_owner entitled rfl rfl rfl rfl trivial, fun q agree => ?_, ?_⟩
  · simp only [requestStop, resolvers_of_agree agree]
    split <;> rfl
  · cases stopped : (t.program.requestStop i).2 with
    | none => exact keeps_pure _
    | some w =>
      have watched : C.watches w := by
        simp only [requestStop] at stopped
        split at stopped
        · rename_i v watching
          obtain ⟨r, found, state⟩ := Option.map_eq_some_iff.1 watching
          cases stopped
          exact ok.current entitled.owns found state
        · cases stopped
      exact (keeps_endTask watched).bind fun _ _ _ => keeps_note _

theorem keeps_getSafe (i : ResolverId) (path : List String) :
    Keeps C hand [] (getSafe i path) s := by
  refine keeps_see fun t _ _ => ⟨fun q agree => ?_, ?_⟩
  · rw [resolvers_of_agree agree]
  · split
    · exact keeps_pure _
    · exact keeps_note _

/-- What is done with a registry that a step refers to. -/
theorem keeps_registry {name : String} (may : C.asks (.registry name)) {next : Nat → Process β}
    (h : ∀ i t, Entitled C hand (.registry i) → Keeps C hand [] (next i) t) :
    Keeps C hand [] (found (·.names.registries.get? name) next) s :=
  keeps_found (fun _ _ _ agree => by rw [agree.same]; rfl)
    fun t ok _ i held => h i t (entitled_registry (owner_of_registry ok may held))

theorem keeps_cancel {owner : Owner} (entitled : Entitled C hand owner) (handle : String) :
    Keeps C hand []
      (found (·.names.handles.get? handle) fun index => does (.cancel owner index)) s :=
  keeps_found (fun _ _ _ agree => by rw [agree.same]; rfl)
    fun _ _ _ _ _ => keeps_does fun _ _ _ => permits_of_owner entitled rfl rfl rfl rfl trivial

/-- A step keeps to the terms that admit it. -/
theorem keeps_ofAction {a : Action} (admitted : C.Admits a) : Keeps C [] [] (ofAction a) s := by
  cases a with
  | openFile name path format facts =>
    have may := admitted.rebinds _ rfl
    exact keeps_silently (keeps_opening fun i t own => keeps_holdSettings may own)
  | openDocument name d facts =>
    have may := admitted.rebinds _ rfl
    refine keeps_silently (keeps_once_taking fun t ok _ => ⟨permits_of_free rfl trivial, ?_, ?_⟩)
    · exact fun q agree => by rw [resolvers_of_agree agree]
    · refine ⟨[t.program.resolvers.length], fun i new => ?_, ?_⟩
      · exact .inr (List.mem_singleton.1 new ▸ Nat.le_refl _)
      · exact (keeps_holdSettings may (C.fresh ok.refers)).holding
  | openConfig name c hasRuntime watchable =>
    exact keeps_silently (keeps_openConfig (admitted.rebinds _ rfl))
  | clone settings copy =>
    exact keeps_silently (keeps_rebind (List.forall_mem_cons.2 ⟨admitted.settings _ rfl,
      List.forall_mem_singleton.2 (admitted.rebinds _ rfl)⟩))
  | drop name =>
    exact keeps_silently
      (keeps_rebind (List.forall_mem_singleton.2 (admitted.rebinds _ rfl)))
  | install settings =>
    exact keeps_silently (keeps_rebind (List.forall_mem_cons.2 ⟨admitted.settings _ rfl,
      List.forall_mem_singleton.2 (admitted.rebinds _ rfl)⟩))
  | uninstall =>
    exact keeps_silently
      (keeps_rebind (List.forall_mem_singleton.2 (admitted.rebinds _ rfl)))
  | getSafe settings path =>
    exact keeps_silently (keeps_reaching (admitted.settings _ rfl) fun i t _ _ =>
      keeps_getSafe i path)
  | subscribe settings name =>
    exact keeps_silently (keeps_reaching (admitted.settings _ rfl) fun i t _ _ =>
      keeps_does fun _ _ _ => permits_of_free rfl trivial)
  | receive name =>
    refine keeps_silently (keeps_found (fun _ _ _ agree => by rw [agree.same]; rfl) ?_)
    exact fun _ _ _ _ _ => keeps_does fun _ _ _ => permits_of_free rfl trivial
  | onUpdate settings name callback now =>
    refine keeps_silently (keeps_reaching (admitted.settings _ rfl) fun i t _ own => ?_)
    have tame := admitted.callback callback rfl
    exact (keeps_onUpdate (entitled_resolver own) tame now).bind fun _ _ _ =>
      keeps_holdRegistered name _
  | cancelUpdate settings handle =>
    exact keeps_silently (keeps_reaching (admitted.settings _ rfl) fun i t _ own =>
      keeps_cancel (entitled_resolver own) handle)
  | reload settings =>
    exact keeps_reaching (admitted.settings _ rfl) fun i t _ own =>
      keeps_reload calls_call (entitled_resolver own)
  | newRegistry name =>
    refine keeps_silently (keeps_once fun t _ _ => ⟨permits_of_free rfl trivial, ?_, ?_⟩)
    · exact fun q agree => by rw [agree.same]; rfl
    · exact keeps_does fun _ _ _ => permits_of_free rfl trivial
  | registerIn registry name callback =>
    refine keeps_silently (keeps_registry (admitted.registry _ rfl) fun i t entitled => ?_)
    have tame := admitted.callback callback rfl
    refine keeps_once fun u _ _ => ⟨permits_of_owner entitled rfl rfl rfl rfl tame, ?_, ?_⟩
    · exact fun q agree => by rw [registry_of_agree agree]
    · exact keeps_does fun _ _ _ => permits_of_free rfl trivial
  | cancelIn registry handle =>
    exact keeps_silently (keeps_registry (admitted.registry _ rfl) fun i t entitled =>
      keeps_cancel entitled handle)
  | invoke registry =>
    exact keeps_silently (keeps_registry (admitted.registry _ rfl) fun i t entitled =>
      keeps_invokeAll calls_call entitled)
  | startWatch settings name notifier hasRuntime =>
    refine keeps_silently (keeps_reaching (admitted.settings _ rfl) fun i t _ own => ?_)
    exact (keeps_startWatch (entitled_resolver own) notifier hasRuntime).bind fun started _ _ =>
      keeps_holdNotifier name started
  | stopWatch settings =>
    exact keeps_silently (keeps_reaching (admitted.settings _ rfl) fun i t _ own =>
      keeps_stopAndLog (entitled_resolver own))
  | requestStop settings =>
    exact keeps_silently (keeps_reaching (admitted.settings _ rfl) fun i t _ own =>
      keeps_does fun _ _ _ => permits_of_owner (entitled_resolver own) rfl rfl rfl rfl trivial)
  | writeFile path content =>
    exact keeps_silently (keeps_changeFile (admitted.files rfl) path _)
  | replaceFile path staging content =>
    exact keeps_silently ((keeps_changeFile (admitted.files rfl) staging _).bind fun _ _ _ =>
      keeps_changeFile (admitted.files rfl) path _)
  | removeDirectory path =>
    exact keeps_silently (keeps_does fun _ _ _ => permits_of_free rfl (admitted.files rfl))
  | changeFiles change =>
    exact keeps_silently (keeps_does fun _ _ _ => permits_of_free rfl (admitted.files rfl))
  | send w event =>
    exact keeps_silently (keeps_does fun _ _ _ =>
      permits_of_watch (admitted.watch w rfl) rfl rfl rfl rfl trivial)
  | close w =>
    exact keeps_silently (keeps_does fun _ _ _ =>
      permits_of_watch (admitted.watch w rfl) rfl rfl rfl rfl trivial)
  | takeEvent w => exact keeps_silently (keeps_handleEvent (admitted.watch w rfl))
  | endTask w => exact keeps_silently (keeps_endTaskIfOver (admitted.watch w rfl))
  | dispatch w => exact keeps_silently (keeps_dispatch (admitted.watch w rfl))

end Process
end LayeredSettings
