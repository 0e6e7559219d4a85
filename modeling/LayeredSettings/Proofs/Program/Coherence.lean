import LayeredSettings.Proofs.Document.Closed
import LayeredSettings.Proofs.Program.Offers
import LayeredSettings.Proofs.Program.WholeRounds

/-!
The document of a resolver, for all who look at it and at any time.

Readers and subscribers find one and the same document, and a run tells where it comes from: it is
what the file held when it was last loaded with success. A subscriber has something new before it
exactly if a reload has succeeded since it was brought up to date.
-/

namespace LayeredSettings.Program

/-! ## The last step of a kind -/

/-- The last step of a run that is of a kind, with the steps before it. -/
structure Latest (kind : List Action → Action → Prop) (run done : List Action) (a : Action) :
    Prop where
  happened : done ++ [a] <+: run
  of_kind : kind done a
  last : ∀ before b, before ++ [b] <+: run → kind before b → before.length ≤ done.length

namespace Latest

variable {kind : List Action → Action → Prop} {run done : List Action} {a b : Action}

theorem now (h : kind run a) : Latest kind (run ++ [a]) run a where
  happened := List.prefix_rfl
  of_kind := h
  last before b happened _ := by
    have shorter := happened.length_le
    simp only [List.length_append, List.length_singleton] at shorter
    omega

theorem later (h : Latest kind run done a) (other : ¬ kind run b) :
    Latest kind (run ++ [b]) done a where
  happened := h.happened.trans (List.prefix_append run [b])
  of_kind := h.of_kind
  last before c happened kindly := by
    rcases List.prefix_concat_iff.1 happened with same | earlier
    · obtain ⟨rfl, last⟩ := List.append_inj' same rfl
      cases last
      exact absurd kindly other
    · exact h.last before c earlier kindly

end Latest

/-! ## How often a resolver has published -/

theorem Effect.counted {p q : Program} {a : Action} (h : Effect p a q) (i : ResolverId) :
    ∃ n, q.number i = p.number i + n ∧ q.reloads i = p.reloads i + n := by
  cases h with
  | balanced _ _ h =>
    obtain ⟨n, number, reloads, -⟩ := h.rounds i
    exact ⟨n, number, reloads⟩
  | unpublished h => exact ⟨0, h.number i, h.reloads i⟩
  | enqueued h => exact ⟨_, h.number i, h.reloads i⟩
  | idle w => exact ⟨0, rfl, rfl⟩
  | dispatched h =>
    obtain ⟨n, number, reloads, -⟩ := h.rounds i
    exact ⟨n, number, reloads⟩
  | abandoned h => exact ⟨0, h.number i, h.reloads i⟩

theorem reloads_eq_number (run : List Action) (i : ResolverId) :
    (ofRun run).reloads i = (ofRun run).number i := by
  induction run using List.reverseRecOn with
  | nil => rfl
  | append_singleton run a ih =>
    obtain ⟨n, number, reloads⟩ := (effect_act (ofRun run) a).counted i
    rw [ofRun_concat, number, reloads, ih]

theorem reloads_le_of_prefix {done run : List Action} (earlier : done <+: run) (i : ResolverId) :
    (ofRun done).reloads i ≤ (ofRun run).reloads i := by
  induction run using List.reverseRecOn with
  | nil =>
    rw [List.prefix_nil.1 earlier]
  | append_singleton run a ih =>
    rcases List.prefix_concat_iff.1 earlier with rfl | earlier
    · exact Nat.le_refl _
    · obtain ⟨n, -, reloads⟩ := (effect_act (ofRun run) a).counted i
      rw [ofRun_concat, reloads]
      exact Nat.le_trans (ih earlier) (Nat.le_add_right _ n)

theorem number_of_offer {p : Program} {i : ResolverId} {o : Offer} (held : p.offers[i]? = some o) :
    p.number i = o.latest.number := by
  rw [getElem?_offers] at held
  obtain ⟨r, found, rfl⟩ := Option.map_eq_some_iff.1 held
  exact number_eq found

/-! ## Where a document comes from -/

/-- A resolver is made in a step. -/
def Makes (i : ResolverId) (done : List Action) (a : Action) : Prop :=
  (ofRun done).resolvers.length ≤ i ∧ i < (ofRun (done ++ [a])).resolvers.length

/-- A resolver gets a document in a step, which either makes it or reloads with success. -/
def Renews (i : ResolverId) (done : List Action) (a : Action) : Prop :=
  Makes i done a ∨ (ofRun done).reloads i < (ofRun (done ++ [a])).reloads i

/-- Where a document comes from: it was loaded from the file of the resolver when a reload last
succeeded, or when the resolver was made, or it was given to a resolver without a file. -/
inductive Origin (run : List Action) (i : ResolverId) (o : Offer) : Prop
  | file {source : Source} {before done : List Action} {made a : Action} :
    before ++ [made] <+: run → Makes i before made → made.source? = some source →
    o.source = some source → Latest (Renews i) run done a →
    source.load (ofRun done).files = .ok o.live → Origin run i o
  | memory {before : List Action} {name : String} {facts : Facts} :
    before ++ [.openDocument name o.live facts] <+: run →
    Makes i before (.openDocument name o.live facts) → o.source = none →
    (ofRun run).reloads i = 0 → Origin run i o

theorem not_renews {run : List Action} {a : Action} {i : ResolverId} {o : Offer}
    (held : (ofRun run).offers[i]? = some o) (kept : (ofRun (run ++ [a])).offers[i]? = some o) :
    ¬ Renews i run a := by
  rintro (⟨missing, -⟩ | reloaded)
  · obtain ⟨found, -⟩ := List.getElem?_eq_some_iff.1 held
    rw [length_offers] at found
    omega
  · rw [reloads_eq_number, reloads_eq_number, number_of_offer held,
      number_of_offer kept] at reloaded
    omega

theorem Origin.later {run : List Action} {a : Action} {i : ResolverId} {o : Offer}
    (h : Origin run i o) (other : ¬ Renews i run a) : Origin (run ++ [a]) i o := by
  have longer := List.prefix_append run [a]
  cases h with
  | file happened makes made source latest read =>
    exact .file (happened.trans longer) makes made source (latest.later other) read
  | memory happened makes source none =>
    refine .memory (happened.trans longer) makes source ?_
    have more := reloads_le_of_prefix longer i
    have noMore : ¬ (ofRun run).reloads i < (ofRun (run ++ [a])).reloads i := fun reloaded =>
      other (.inr reloaded)
    omega

/-- What is offered after a step was offered before or comes from the resolver made in it. -/
theorem getElem?_offers_of_adds {p q : Program} {o o' : Offer} {i : ResolverId}
    (adds : Adds o' p q) (held : q.offers[i]? = some o) :
    p.offers[i]? = some o ∨ i = p.resolvers.length ∧ o = o' := by
  rw [adds.offers] at held
  have bound := (List.getElem?_eq_some_iff.1 held).1
  rw [List.length_append, List.length_singleton] at bound
  rcases Nat.lt_or_eq_of_le (Nat.le_of_lt_succ bound) with old | rfl
  · rw [List.getElem?_append_left old] at held
    exact .inl held
  · rw [List.getElem?_concat_length] at held
    cases held
    exact .inr ⟨length_offers p, rfl⟩

theorem makes_of_adds {run : List Action} {a : Action} {o : Offer}
    (adds : Adds o (ofRun run) ((ofRun run).act a)) : Makes (ofRun run).resolvers.length run a := by
  have longer := congrArg List.length adds.offers
  rw [List.length_append, List.length_singleton, length_offers, length_offers] at longer
  rw [Makes, ofRun_concat, longer]
  exact ⟨Nat.le_refl _, Nat.lt_succ_self _⟩

/-- Readers and subscribers have the same document, and it comes from where it should. -/
structure Sound (run : List Action) (i : ResolverId) (o : Offer) : Prop where
  coherent : o.latest.document = o.live
  origin : Origin run i o

theorem Sound.later {run : List Action} {a : Action} {i : ResolverId} {o : Offer}
    (h : Sound run i o) (held : (ofRun run).offers[i]? = some o)
    (kept : (ofRun (run ++ [a])).offers[i]? = some o) : Sound (run ++ [a]) i o :=
  ⟨h.coherent, h.origin.later (not_renews held kept)⟩

theorem Sound.renewed {run : List Action} {a : Action} {i : ResolverId} {o o' : Offer}
    (h : Sound run i o) (before : (ofRun run).offers[i]? = some o)
    (held : (ofRun (run ++ [a])).offers[i]? = some o')
    (renewed : Offer.Renewed (ofRun run).files o o') : Sound (run ++ [a]) i o' := by
  cases renewed with
  | kept => exact h.later before held
  | loaded origin read newer =>
    have renews : Renews i run a := by
      refine .inr ?_
      rwa [reloads_eq_number, reloads_eq_number, number_of_offer before, number_of_offer held]
    cases h.origin with
    | file happened makes made source _ _ =>
      cases source.symm.trans origin
      exact ⟨rfl, .file (happened.trans (List.prefix_append ..)) makes made rfl (.now renews) read⟩
    | memory _ _ none _ => cases none.symm.trans origin

theorem sound_of_opens {run : List Action} {a : Action} {source : Source} {d : Document}
    (given : a.source? = some source) (read : source.load (ofRun run).files = .ok d)
    (makes : Makes (ofRun run).resolvers.length run a) :
    Sound (run ++ [a]) (ofRun run).resolvers.length (.first (some source) d) :=
  ⟨rfl, .file List.prefix_rfl makes given rfl (.now (.inl makes)) read⟩

theorem sound_of_takes {run : List Action} {name : String} {d : Document} {facts : Facts}
    (makes : Makes (ofRun run).resolvers.length run (.openDocument name d facts))
    (held : (ofRun (run ++ [.openDocument name d facts])).offers[(ofRun run).resolvers.length]? =
      some (.first none d)) :
    Sound (run ++ [.openDocument name d facts]) (ofRun run).resolvers.length (.first none d) := by
  refine ⟨rfl, .memory List.prefix_rfl makes rfl ?_⟩
  rw [reloads_eq_number, number_of_offer held]
  rfl

/-- One step keeps all offers as they should be. -/
theorem sound_concat {run : List Action}
    (earlier : ∀ {i o}, (ofRun run).offers[i]? = some o → Sound run i o) {a : Action}
    {i : ResolverId} {o : Offer} (held : (ofRun (run ++ [a])).offers[i]? = some o) :
    Sound (run ++ [a]) i o := by
  have unchanged (same : (ofRun (run ++ [a])).offers = (ofRun run).offers) :
      Sound (run ++ [a]) i o := by
    have before : (ofRun run).offers[i]? = some o := same ▸ held
    exact (earlier before).later before held
  have turn := turn_act (ofRun run) a
  rw [← ofRun_concat] at turn
  cases turn with
  | marks _ same _ => exact unchanged same
  | moves _ moves =>
    cases moves with
    | outside same _ => exact unchanged same
    | rereads rereads =>
      have found := (List.getElem?_eq_some_iff.1 held).1
      rw [length_offers, rereads.length, ← length_offers] at found
      have before := List.getElem?_eq_getElem found
      obtain ⟨o', kept, renewed⟩ := rereads.renewed before
      cases held.symm.trans kept
      exact (earlier before).renewed before held renewed
    | opens source read adds =>
      rcases getElem?_offers_of_adds adds held with before | ⟨rfl, rfl⟩
      · exact (earlier before).later before held
      · rw [ofRun_concat] at adds
        exact sound_of_opens source read (makes_of_adds adds)
    | takes given adds =>
      subst given
      rcases getElem?_offers_of_adds adds held with before | ⟨rfl, rfl⟩
      · exact (earlier before).later before held
      · rw [ofRun_concat] at adds
        exact sound_of_takes (makes_of_adds adds) held

theorem sound_ofRun {run : List Action} {i : ResolverId} {o : Offer}
    (held : (ofRun run).offers[i]? = some o) : Sound run i o := by
  induction run using List.reverseRecOn generalizing i o with
  | nil => cases held
  | append_singleton run a ih => exact sound_concat ih held

/-! ## What subscribers have seen -/

/-- A step that brings the subscriber up to date that is held under a name from then on. -/
def Updates (name : String) (done : List Action) (a : Action) : Prop :=
  ∃ i, Marks (ofRun done) a name i

theorem Marks.unique {p : Program} {a : Action} {name name' : String} {i i' : ResolverId}
    (h : Marks p a name i) (h' : Marks p a name' i') : name' = name := by
  cases h <;> cases h' <;> rfl

theorem namesExist_ofRun (run : List Action) : (ofRun run).NamesExist :=
  (lawful_after {} run recorded_start).1.exist

theorem length_resolvers_le (run : List Action) (a : Action) :
    (ofRun run).resolvers.length ≤ (ofRun (run ++ [a])).resolvers.length := by
  have turn := turn_act (ofRun run) a
  rw [ofRun_concat, ← length_offers, ← length_offers]
  cases turn with
  | marks _ same _ => rw [same]
  | moves _ moves =>
    cases moves with
    | outside same _ => rw [same]
    | rereads rereads => rw [length_offers, length_offers, rereads.length]
    | opens _ _ adds => simp [adds.offers]
    | takes _ adds => simp [adds.offers]

/-- A subscriber has seen what there was when it was last brought up to date. -/
structure Seen (run : List Action) (name : String) (receiver : Receiver) (done : List Action)
    (a : Action) : Prop where
  latest : Latest (Updates name) run done a
  marks : Marks (ofRun done) a name receiver.resolver
  seen : receiver.seen = (ofRun done).number receiver.resolver
  known : receiver.resolver < (ofRun run).resolvers.length

theorem Seen.later {run done : List Action} {name : String} {receiver : Receiver} {a b : Action}
    (h : Seen run name receiver done a) (other : ¬ Updates name run b) :
    Seen (run ++ [b]) name receiver done a where
  latest := h.latest.later other
  marks := h.marks
  seen := h.seen
  known := Nat.lt_of_lt_of_le h.known (length_resolvers_le run b)

/-- One step keeps track of what subscribers have seen. -/
theorem exists_seen_concat {run : List Action}
    (earlier : ∀ {name receiver}, (ofRun run).names.receivers.get? name = some receiver →
      ∃ done a, Seen run name receiver done a) {a : Action} {name : String} {receiver : Receiver}
    (held : (ofRun (run ++ [a])).names.receivers.get? name = some receiver) :
    ∃ done b, Seen (run ++ [a]) name receiver done b := by
  have turn := turn_act (ofRun run) a
  rw [← ofRun_concat] at turn
  cases turn with
  | @marks name' i marks _ receivers =>
    rw [receivers, KeyMap.get?_insert] at held
    split at held
    · rename_i same
      subst same
      cases held
      have known : i < (ofRun run).resolvers.length := by
        cases marks with
        | subscribe reached => exact (namesExist_ofRun run).of_reached reached
        | receive before =>
          obtain ⟨_, _, seen⟩ := earlier before
          exact seen.known
      exact ⟨run, a, .now ⟨i, marks⟩, marks, rfl,
        Nat.lt_of_lt_of_le known (length_resolvers_le run a)⟩
    · rename_i different
      obtain ⟨done, b, seen⟩ := earlier held
      refine ⟨done, b, seen.later ?_⟩
      rintro ⟨j, other⟩
      exact different (other.unique marks)
  | moves unmarked moves =>
    have receivers : (ofRun (run ++ [a])).names.receivers = (ofRun run).names.receivers := by
      cases moves with
      | rereads rereads => exact rereads.receivers
      | outside _ same => exact same
      | opens _ _ adds => exact adds.receivers
      | takes _ adds => exact adds.receivers
    rw [receivers] at held
    obtain ⟨done, b, seen⟩ := earlier held
    refine ⟨done, b, seen.later ?_⟩
    rintro ⟨j, marks⟩
    exact unmarked name j marks

theorem exists_seen {run : List Action} {name : String} {receiver : Receiver}
    (held : (ofRun run).names.receivers.get? name = some receiver) :
    ∃ done a, Seen run name receiver done a := by
  induction run using List.reverseRecOn generalizing name receiver with
  | nil => cases held
  | append_singleton run a ih => exact exists_seen_concat ih held

/-- A subscriber has something new before it exactly if a reload has succeeded since. -/
theorem Seen.hasChanged {run done : List Action} {name : String} {receiver : Receiver} {a : Action}
    (h : Seen run name receiver done a) :
    (ofRun run).hasChanged receiver =
      if (ofRun run).inUse receiver.resolver then
        some (decide ((ofRun done).reloads receiver.resolver <
          (ofRun run).reloads receiver.resolver))
      else none := by
  have found := List.getElem?_eq_getElem h.known
  have earlier : done <+: run := (List.prefix_append done [a]).trans h.latest.happened
  have more := reloads_le_of_prefix earlier receiver.resolver
  have unseen : decide ((ofRun run).reloads receiver.resolver ≠
      (ofRun done).reloads receiver.resolver) =
      decide ((ofRun done).reloads receiver.resolver < (ofRun run).reloads receiver.resolver) :=
    decide_eq_decide.2 (by omega)
  rw [Program.hasChanged, found, Option.map_some, h.seen, ← number_eq found, ← reloads_eq_number,
    ← reloads_eq_number, unseen]

/-! ## All views of a document -/

/-- The document that is read through a handle. -/
def document? (p : Program) (settings : Access) : Option Document :=
  (p.reached settings).bind p.live?

def version? (p : Program) (settings : Access) : Option Int64 :=
  (p.reached settings).bind fun i => p.resolvers[i]?.map Resolver.version

/-- The document that a subscriber finds. -/
def borrowed? (p : Program) (receiver : Receiver) : Option Document :=
  (p.latest? receiver.resolver).map (·.document)

/-- After any run, all handles of a resolver and all its subscribers find the same document. It is
what the file held when it was last loaded with success, or what was given, and it is closed by
metadata. A subscriber has something new before it exactly if a reload has succeeded since it was
brought up to date, whatever was loaded. -/
theorem live_document_coherent (run : List Action) :
    (∀ settings i, (ofRun run).reached settings = some i →
      ∃ r, (ofRun run).resolvers[i]? = some r ∧
        (ofRun run).document? settings = some r.live ∧
        (ofRun run).version? settings = some r.live.version) ∧
    (∀ name receiver, (ofRun run).names.receivers.get? name = some receiver →
      ∃ r, (ofRun run).resolvers[receiver.resolver]? = some r ∧
        (ofRun run).borrowed? receiver = some r.live ∧
        ∃ done a, Latest (Updates name) run done a ∧ Marks (ofRun done) a name receiver.resolver ∧
          (ofRun run).hasChanged receiver =
            if (ofRun run).inUse receiver.resolver then
              some (decide ((ofRun done).reloads receiver.resolver <
                (ofRun run).reloads receiver.resolver))
            else none) ∧
    ∀ i r, (ofRun run).resolvers[i]? = some r →
      (∀ seen, (ofRun run).borrowed? ⟨i, seen⟩ = some r.live) ∧
      Document.Closed r.live.layers ∧ Document.ofLayers r.live.layers = .ok r.live ∧
      Origin run i r.offer := by
  have sound {i : ResolverId} {r : Resolver} (found : (ofRun run).resolvers[i]? = some r) :
      Sound run i r.offer := by
    apply sound_ofRun
    rw [getElem?_offers, found, Option.map_some]
  have borrowed {i : ResolverId} {r : Resolver} (found : (ofRun run).resolvers[i]? = some r)
      (seen : Nat) : (ofRun run).borrowed? ⟨i, seen⟩ = some r.live := by
    rw [borrowed?, latest?, found]
    exact congrArg some (sound found).coherent
  refine ⟨fun settings i reached => ?handles, fun name receiver held => ?subscribers,
    fun i r found => ?resolvers⟩
  case handles =>
    have found := List.getElem?_eq_getElem ((namesExist_ofRun run).of_reached reached)
    refine ⟨_, found, ?_, ?_⟩
    · rw [document?, reached, Option.bind_some, live?, found, Option.map_some]
    · rw [version?, reached, Option.bind_some, found, Option.map_some, Resolver.version]
  case subscribers =>
    obtain ⟨done, a, seen⟩ := exists_seen held
    have found := List.getElem?_eq_getElem seen.known
    exact ⟨_, found, borrowed found receiver.seen, done, a, seen.latest, seen.marks,
      seen.hasChanged⟩
  case resolvers =>
    exact ⟨borrowed found, r.live.closed_layers, Document.ofLayers_eq_ok_iff.2 rfl,
      (sound found).origin⟩

/-- A file with new content is reloaded, once more without a change by an event of a watch, and in
vain when it is no document. One subscriber came early and has looked since, another came late. -/
def republished : List Action :=
  [.writeFile "s.json"
      (some "[\x7b\"name\":\"a\",\"settings\":\x7b\"k\":1\x7d\x7d,\x7b\"end\":true\x7d]"),
    .openFile "s" "s.json" none Facts.none, .subscribe (.named "s") "early",
    .clone (.named "s") "t", .startWatch (.named "t") "n" (fun _ => .controlled) true,
    .changeFiles (·.write "s.json" (some "[\x7b\"version\":2,\"end\":true\x7d]")),
    .reload (.named "t"), .subscribe (.named "t") "late", .send 0 .changed, .takeEvent 0,
    .receive "early", .changeFiles (·.write "s.json" (some "[")), .reload (.named "s"),
    .drop "s"]

theorem live_document_coherent_republished :
    (ofRun republished).reached (.named "t") = some 0 ∧
    (ofRun republished).version? (.named "t") = some 2 ∧
    ∃ r early late, (ofRun republished).resolvers[0]? = some r ∧
      (ofRun republished).document? (.named "t") = some r.live ∧
      (ofRun republished).names.receivers.get? "early" = some early ∧
      (ofRun republished).names.receivers.get? "late" = some late ∧
      (ofRun republished).borrowed? early = some r.live ∧
      (ofRun republished).borrowed? late = some r.live ∧
      (ofRun republished).hasChanged early = some false ∧
      (ofRun republished).hasChanged late = some true ∧
      Document.Closed r.live.layers ∧ Origin republished 0 r.offer := by
  obtain ⟨handles, subscribers, resolvers⟩ := live_document_coherent republished
  have reached : (ofRun republished).reached (.named "t") = some 0 := by decide +kernel
  have version : (ofRun republished).version? (.named "t") = some 2 := by decide +kernel
  have heldEarly : ((ofRun republished).names.receivers.get? "early").any
      (fun early => early.resolver = 0 ∧ (ofRun republished).hasChanged early = some false) =
      true := by
    decide +kernel
  have heldLate : ((ofRun republished).names.receivers.get? "late").any
      (fun late => late.resolver = 0 ∧ (ofRun republished).hasChanged late = some true) = true := by
    decide +kernel
  obtain ⟨early, earlyHeld, isEarly⟩ := (Option.any_eq_true _ _).1 heldEarly
  obtain ⟨late, lateHeld, isLate⟩ := (Option.any_eq_true _ _).1 heldLate
  obtain ⟨earlyOwn, earlySeen⟩ := of_decide_eq_true isEarly
  obtain ⟨lateOwn, lateUnseen⟩ := of_decide_eq_true isLate
  obtain ⟨r, found, document, -⟩ := handles (.named "t") 0 reached
  obtain ⟨_, foundEarly, borrowedEarly, -⟩ := subscribers "early" early earlyHeld
  obtain ⟨_, foundLate, borrowedLate, -⟩ := subscribers "late" late lateHeld
  rw [earlyOwn] at foundEarly
  rw [lateOwn] at foundLate
  cases found.symm.trans foundEarly
  cases found.symm.trans foundLate
  obtain ⟨-, closed, -, origin⟩ := resolvers 0 r found
  exact ⟨reached, version, r, early, late, found, document, earlyHeld, lateHeld, borrowedEarly,
    borrowedLate, earlySeen, lateUnseen, closed, origin⟩

end LayeredSettings.Program
