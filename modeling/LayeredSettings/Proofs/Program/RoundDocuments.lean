import LayeredSettings.Proofs.Program.Coherence
import LayeredSettings.Proofs.Program.Pool

/-!
The documents that are live during rounds.

However steps take turns, a round may come late, after other reloads, but it is never about a
document that is still to come.
-/

namespace LayeredSettings

open Program

/-! ## Publications -/

namespace Scene

/-- The documents that a resolver has published, in order. -/
def documents (s : Scene) (i : ResolverId) : List Document :=
  (s.published.filter (·.1 = i)).map (·.2.document)

/-- The documents that a resolver has published, numbered from one. -/
def publish? (s : Scene) (i : ResolverId) : Nat → Option Document
  | 0 => none
  | m + 1 => (s.documents i)[m]?

/-- Publications are numbered in order, and the latest one is live. -/
structure Numbered (s : Scene) : Prop where
  numbers : ∀ i, (s.published.filter (·.1 = i)).map (·.2.number) =
    List.range' 1 (s.program.number i)
  latest : ∀ {i : ResolverId} {r : Resolver}, s.program.resolvers[i]? = some r →
    r.live = r.latest.document ∧ (0 < r.latest.number → (i, r.latest) ∈ s.published)

theorem numbered_start : Numbered ⟨{}, []⟩ where
  numbers _ := rfl
  latest found := by cases found

theorem Numbered.step_of_other {s : Scene} (h : s.Numbered) {op : Operation}
    (other : ∀ i, op ≠ .reload i) : (s.step op).Numbered := by
  have none : op.publishes s.program = [] := by
    cases op with
    | reload i => exact absurd rfl (other i)
    | _ => rfl
  have published : (s.step op).published = s.published := by
    show s.published ++ op.publishes s.program = s.published
    rw [none, List.append_nil]
  have number (i : ResolverId) : (s.step op).program.number i = s.program.number i := by
    cases found : (op.effect s.program).resolvers[i]? with
    | none =>
      have missing := List.getElem?_eq_none (Nat.le_trans (op.length_resolvers_le s.program)
        (List.getElem?_eq_none_iff.1 found))
      simp only [Program.number, step, found, missing]
    | some r =>
      rcases Operation.document_before other found with ⟨before, held, -, latest⟩ | ⟨new, -, zero⟩
      · simp only [Program.number, step, found, held, Option.map_some, latest]
      · simp only [Program.number, step, found, new, Option.map_some, Option.map_none, zero]
        rfl
  constructor
  case numbers =>
    intro i
    rw [published, number, h.numbers]
  case latest =>
    intro i r found
    rw [published]
    rcases Operation.document_before other found with
      ⟨before, held, live, latest⟩ | ⟨-, live, zero⟩
    · rw [live, latest]
      exact h.latest held
    · exact ⟨live, fun positive => absurd zero (Nat.ne_of_gt positive)⟩

theorem Numbered.step_reload {s : Scene} (h : s.Numbered) (i : ResolverId) :
    (s.step (.reload i)).Numbered := by
  cases answered : s.program.reloadDocument i with
  | mk q answer =>
    cases answer with
    | error fault =>
      have same : s.step (.reload i) = s := by
        obtain rfl := reloadDocument_eq_error answered
        simp [step, Operation.effect, Operation.publishes, answered, Except.toOption]
      rw [same]
      exact h
    | ok published =>
      obtain ⟨r, source, found, -, -, numbered, rfl⟩ := reloadDocument_eq_ok answered
      have stepped : s.step (.reload i) =
          ⟨s.program.publish i published.document, s.published ++ [(i, published)]⟩ := by
        simp [step, Operation.effect, Operation.publishes, answered, Except.toOption]
      rw [stepped]
      constructor
      case numbers =>
        intro j
        rw [number_publish found, List.filter_append, List.map_append, h.numbers]
        by_cases same : i = j
        · subst same
          have before : s.program.number i = r.latest.number := by
            simp [Program.number, found]
          simp [List.range'_concat, numbered, before, Nat.add_comm]
        · simp [same]
      case latest =>
        intro j r' found'
        simp only [publish, found, log, note, modifyResolver, List.getElem?_modify] at found'
        obtain ⟨before, held, rfl⟩ := Option.map_eq_some_iff.1 found'
        by_cases same : i = j
        · subst same
          cases found.symm.trans held
          rw [if_pos rfl]
          have now : (r.publish published.document).latest = published := by
            rw [Resolver.publish, ← numbered]
          exact ⟨rfl, fun _ => List.mem_append_right _ (now ▸ List.mem_singleton_self _)⟩
        · rw [if_neg same]
          have kept := h.latest held
          exact ⟨kept.1, fun positive => List.mem_append_left _ (kept.2 positive)⟩

theorem Numbered.step {s : Scene} (h : s.Numbered) (op : Operation) : (s.step op).Numbered := by
  by_cases other : ∀ i, op ≠ .reload i
  · exact h.step_of_other other
  · obtain ⟨i, reloads⟩ := not_forall.1 other
    obtain rfl := not_not.1 reloads
    exact h.step_reload i

theorem Numbered.length_documents {s : Scene} (h : s.Numbered) (i : ResolverId) :
    (s.documents i).length = s.program.number i := by
  have length := congrArg List.length (h.numbers i)
  rw [List.length_map, List.length_range'] at length
  rw [documents, List.length_map, length]

/-- What was published is found under its number. -/
theorem Numbered.publish?_eq {s : Scene} (h : s.Numbered) {i : ResolverId} {published : Publication}
    (member : (i, published) ∈ s.published) :
    s.publish? i published.number = some published.document := by
  have filtered : (i, published) ∈ s.published.filter (·.1 = i) :=
    List.mem_filter.2 ⟨member, decide_eq_true rfl⟩
  obtain ⟨m, hm⟩ := List.mem_iff_getElem?.1 filtered
  have numbers := congrArg (·[m]?) (h.numbers i)
  simp only [List.getElem?_map, hm, Option.map_some] at numbers
  obtain ⟨exist, number⟩ := List.getElem?_eq_some_iff.1 numbers.symm
  rw [List.getElem_range'] at number
  have position : published.number = m + 1 := by omega
  rw [position]
  show (s.documents i)[m]? = _
  rw [documents, List.getElem?_map, hm]
  rfl

theorem Numbered.number_le {s : Scene} (h : s.Numbered) {i : ResolverId} {m : Nat} {d : Document}
    (published : s.publish? i m = some d) : m ≤ s.program.number i := by
  cases m with
  | zero => exact Nat.zero_le _
  | succ m =>
    have position := (List.getElem?_eq_some_iff.1 published).1
    rwa [h.length_documents] at position

end Scene

/-- What is read through every handle of a resolver comes from a document. -/
structure Program.Shows (p : Program) (i : ResolverId) (d : Document) : Prop where
  document : ∀ settings, p.reached settings = some i → p.document? settings = some d
  version : ∀ settings, p.reached settings = some i → p.version? settings = some d.version
  getSafe : ∃ facts, ∀ path, (p.getSafe i path).2 = d.resolve? facts path ∧
    (p.get i path).2 = (d.resolve? facts path).elim (.error (.notFound path)) .ok

theorem Program.shows_live {p : Program} {i : ResolverId} {r : Resolver}
    (found : p.resolvers[i]? = some r) : p.Shows i r.live where
  document settings reached := by
    rw [document?, reached, Option.bind_some, live?, found, Option.map_some]
  version settings reached := by
    rw [version?, reached, Option.bind_some, found, Option.map_some, Resolver.version]
  getSafe := by
    refine ⟨r.facts, fun path => ?_⟩
    have safe : (p.getSafe i path).2 = r.live.resolve? r.facts path := by
      rw [getSafe_snd, found, Option.bind_some, Resolver.resolve?]
    exact ⟨safe, by rw [get_snd, safe]⟩

/-- What is live during a round, in terms of the publications so far. -/
structure Scene.Sees (s : Scene) (round : Round) : Prop where
  caused : s.publish? round.resolver round.published.number = some round.published.document
  newer : ∃ m d, round.published.number ≤ m ∧ s.publish? round.resolver m = some d ∧
    s.program.Shows round.resolver d
  /-- Without another publication it is the document of the round. -/
  exact : (∀ m, round.published.number < m → s.publish? round.resolver m = none) →
    s.program.Shows round.resolver round.published.document

theorem Scene.Numbered.sees {s : Scene} (h : s.Numbered) {round : Round}
    (told : (round.resolver, round.published) ∈ s.published) : s.Sees round := by
  obtain ⟨i, published⟩ := round
  have caused := h.publish?_eq told
  have reached := h.number_le caused
  have positive : 0 < published.number := by
    refine Nat.pos_of_ne_zero fun zero => ?_
    rw [zero] at caused
    cases caused
  cases found : s.program.resolvers[i]? with
  | none =>
    rw [Program.number, found] at reached
    exact absurd reached (Nat.not_le.2 positive)
  | some r =>
    have number : s.program.number i = r.latest.number := by rw [Program.number, found]; rfl
    rw [number] at reached
    obtain ⟨live, member⟩ := h.latest found
    have latest := h.publish?_eq (member (Nat.lt_of_lt_of_le positive reached))
    have shown : s.program.Shows i r.latest.document := live ▸ shows_live found
    refine ⟨caused, ⟨r.latest.number, r.latest.document, reached, latest, shown⟩, fun last => ?_⟩
    have same : published.number = r.latest.number := by
      refine Nat.le_antisymm reached (Nat.not_lt.1 fun more => ?_)
      cases (last _ more).symm.trans latest
    show s.program.Shows i published.document
    rw [same, latest] at caused
    exact Option.some.inj caused ▸ shown

/-! ## Rounds that reloads run inline -/

namespace Process

variable {α β : Type}

/-- Every operation that is left happens during a round. -/
def Throughout (round : Round) : Process α → Prop
  | .ended _ => True
  | .step rounds _ _ next =>
    rounds.head? = some round ∧ ∀ p alive, (next p alive).Throughout round

/-- If a process ends then with an answer. -/
def AnswersOnly (answer : α) : Process α → Prop
  | .ended a => a = answer
  | .step _ _ _ next => ∀ p alive, (next p alive).AnswersOnly answer

theorem throughout_within (round : Round) (x : Process α) : (x.within round).Throughout round := by
  induction x with
  | ended a => trivial
  | step rounds held op next ih => exact ⟨rfl, fun p alive => ih p alive⟩

theorem Throughout.map {round : Round} {x : Process α} (h : x.Throughout round) (f : α → β) :
    (x >>= fun a => pure (f a)).Throughout round := by
  induction x with
  | ended a => trivial
  | step rounds held op next ih => exact ⟨h.1, fun p alive => ih p alive (h.2 p alive)⟩

theorem Throughout.holding {round : Round} {x : Process α} (h : x.Throughout round)
    (references : List ResolverId) : (x.holding references).Throughout round := by
  induction x with
  | ended a => trivial
  | step rounds held op next ih => exact ⟨h.1, fun p alive => ih p alive (h.2 p alive)⟩

theorem AnswersOnly.holding {answer : α} {x : Process α} (h : x.AnswersOnly answer)
    (references : List ResolverId) : (x.holding references).AnswersOnly answer := by
  induction x with
  | ended a => exact h
  | step rounds held op next ih => exact fun p alive => ih p alive (h p alive)

theorem AnswersOnly.map {answer : α} {x : Process α} (h : x.AnswersOnly answer) (f : α → β) :
    (x >>= fun a => pure (f a)).AnswersOnly (f answer) := by
  induction x with
  | ended a => exact congrArg f h
  | step rounds held op next ih => exact fun p alive => ih p alive (h p alive)

theorem answersOnly_answering (x : Process α) (b : β) :
    (x >>= fun _ => pure b).AnswersOnly b := by
  induction x with
  | ended a => rfl
  | step rounds held op next ih => exact fun p alive => ih p alive

/-- A process that loads a document again and answers with its version, after the round of the
publication. A failure is answered at once. -/
def RunsInline (i : ResolverId) (x : Process (Except Fault Int64)) : Prop :=
  ∃ next, x = .step [] [] (.reload i) next ∧ ∀ p alive,
    (∀ fault, (p.reloadDocument i).2 = .error fault → next p alive = .ended (.error fault)) ∧
    ∀ published, (p.reloadDocument i).2 = .ok published →
      (next p alive).Throughout ⟨i, published⟩ ∧
      (next p alive).AnswersOnly (.ok published.document.version)

theorem runsInline_reload (call : Caller) (i : ResolverId) : RunsInline i (reload call i) := by
  refine ⟨_, rfl, fun p alive => ⟨fun fault failed => ?_, fun published answered => ?_⟩⟩
  · simp only [Process.bind, failed]
    rfl
  · simp only [Process.bind, answered]
    exact ⟨(throughout_within _ _).map _, answersOnly_answering _ _⟩

/-- How far a reload by hand has come. -/
inductive Reloads : Process (Option (Except Fault Int64)) → Prop
  | calling (settings : Access) : Reloads (ofAction (.reload settings))
  | reaching (i : ResolverId) :
    Reloads (holding [i] (reload call i) >>= fun answer => pure (some answer))
  | announcing {round : Round} {x : Process (Option (Except Fault Int64))} : x.Throughout round →
    x.AnswersOnly (some (.ok round.published.document.version)) → Reloads x
  | ended (answer : Option (Except Fault Int64)) : Reloads (.ended answer)

theorem Reloads.next {rounds : List Round} {held : List ResolverId} {op : Operation}
    {next : Program → (ResolverId → Bool) → Process (Option (Except Fault Int64))}
    (h : Reloads (.step rounds held op next)) (p : Program) (alive : ResolverId → Bool) :
    Reloads (next p alive) := by
  -- The process gets a name of its own, since its form tells the cases apart only later.
  generalize reloading : Process.step rounds held op next = x at h
  cases h with
  | calling settings =>
    cases reloading
    simp only [Process.bind]
    cases p.reached settings with
    | none => exact .ended _
    | some i => exact .reaching i
  | reaching i =>
    obtain ⟨rest, reload, inline⟩ := runsInline_reload call i
    rw [reload] at reloading
    cases reloading
    obtain ⟨failed, announced⟩ := inline p alive
    cases answered : (p.reloadDocument i).2 with
    | error fault =>
      dsimp only
      rw [failed fault answered]
      exact .ended _
    | ok published =>
      obtain ⟨throughout, answers⟩ := announced published answered
      exact .announcing ((throughout.holding [i]).map _) ((answers.holding [i]).map _)
  | announcing throughout answers =>
    cases reloading
    exact .announcing (throughout.2 p alive) (answers p alive)
  | ended answer => cases reloading

theorem Reloads.answers {x : Process (Option (Except Fault Int64))} (h : Reloads x) {round : Round}
    (during : x.rounds.head? = some round) :
    x.Throughout round ∧ x.AnswersOnly (some (.ok round.published.document.version)) := by
  cases h with
  | calling settings => cases during
  | reaching i => cases during
  | @announcing other _ throughout answers =>
    cases x with
    | ended answer => cases during
    | step rounds held op next =>
      cases throughout.1.symm.trans during
      exact ⟨throughout, answers⟩
  | ended answer => cases during

end Process

namespace Pool

/-- What holds at any time. -/
structure Sound (s : Pool) : Prop where
  complies : s.Complies .free everyone
  numbered : s.scene.Numbered
  reloads : ∀ thread ∈ s.threads, ∀ settings, thread.action = .reload settings →
    Process.Reloads thread.rest

theorem sound_start : start.Sound where
  complies := complies_after []
  numbered := Scene.numbered_start
  reloads _ member := by cases member

theorem Sound.begin {s : Pool} (h : s.Sound) (a : Action) : (s.move (.begin a)).Sound where
  complies := h.complies.begin fun _ => Terms.admits_free a
  numbered := h.numbered
  reloads := by
    refine List.forall_mem_append.2 ⟨h.reloads, List.forall_mem_singleton.2 ?_⟩
    rintro settings rfl
    exact .calling settings

theorem Sound.advance {s : Pool} (h : s.Sound) (n : Nat) : (s.advance n).Sound where
  complies := h.complies.advance s.alive_free fun _ => trivial
  numbered := by
    rcases s.advance_eq n with ⟨same, -⟩ | ⟨a, rounds, held, op, next, found, stepped⟩
    · exact same.symm ▸ h.numbered
    · rw [stepped]
      exact h.numbered.step op
  reloads := by
    rcases s.advance_eq n with ⟨same, -⟩ | ⟨a, rounds, held, op, next, found, stepped⟩
    · exact same.symm ▸ h.reloads
    · rw [stepped]
      intro other now settings reloading
      rcases List.mem_or_eq_of_mem_set now with before | rfl
      · exact h.reloads other before settings reloading
      · exact (h.reloads _ (List.mem_of_getElem? found) settings reloading).next _ _

theorem sound_after (moves : List Move) : (start.after moves).Sound := by
  induction moves using List.reverseRecOn with
  | nil => exact sound_start
  | append_singleton moves last ih =>
    rw [after_append]
    cases last with
    | begin a => exact ih.begin a
    | advance n => exact ih.advance n

/-- However reloads, tasks, stops and whatever else take turns: what belongs to a round of a
publication finds this document live, or a later one, and this one if there is none later. A reload
by hand runs its round before it answers, with the version of the document of that round; so does a
reload inside of a callback. -/
theorem rounds_see_no_older_document (moves : List Move) :
    (∀ thread ∈ (start.after moves).threads, ∀ round ∈ thread.rest.rounds,
      (start.after moves).scene.Sees round) ∧
    (∀ thread ∈ (start.after moves).threads, ∀ settings, thread.action = .reload settings →
      ∀ round, thread.rest.rounds.head? = some round →
        thread.rest.Throughout round ∧
        thread.rest.AnswersOnly (some (.ok round.published.document.version))) ∧
    ∀ call i, Process.RunsInline i (Process.reload call i) := by
  have sound := sound_after moves
  refine ⟨fun thread member round during => ?sees,
    fun thread member settings reloading round head => ?answers, Process.runsInline_reload⟩
  case sees =>
    obtain ⟨n, there⟩ := List.mem_iff_getElem?.1 member
    have goes := sound.complies.going n _ there trivial
    cases rest : thread.rest with
    | ended answer =>
      rw [rest] at during
      cases during
    | step rounds held op next =>
      rw [rest] at during goes
      obtain ⟨told, -⟩ := goes _ sound.complies.ok (.refl _)
      exact sound.numbered.sees (told round during)
  case answers => exact (sound.reloads thread member settings reloading).answers head

/-- What an event made the reload task publish waits for the dispatcher, and a callback has just
been called for it, when a caller reloads and runs a round, too. -/
def overtaken : List Move :=
  uninterrupted 0 (.writeFile "s.json" (some "[\x7b\"version\":1,\"end\":true\x7d]")) ++
  uninterrupted 1 (.openFile "s" "s.json" none Facts.none) ++
  uninterrupted 2
    (.onUpdate (.named "s") "h" (fun _ => .version "s" fun _ => .done) false) ++
  uninterrupted 3 (.startWatch (.named "s") "n" (fun _ => .controlled) true) ++
  uninterrupted 4 (.writeFile "s.json" (some "[\x7b\"version\":2,\"end\":true\x7d]")) ++
  uninterrupted 5 (.send 0 .changed) ++ uninterrupted 6 (.takeEvent 0) ++
  uninterrupted 7 (.writeFile "s.json" (some "[\x7b\"version\":3,\"end\":true\x7d]")) ++
  .begin (.dispatch 0) :: List.replicate 4 (.advance 8) ++
  .begin (.reload (.named "s")) :: List.replicate 2 (.advance 9)

theorem rounds_see_no_older_document_overtaken :
    (start.after overtaken).scene.program.version? (.named "s") = some 3 ∧
    ∃ dispatching reloading first second,
      dispatching ∈ (start.after overtaken).threads ∧ first ∈ dispatching.rest.rounds ∧
      first.published.number = 1 ∧ first.published.document.version = 2 ∧
      (start.after overtaken).scene.Sees first ∧
      reloading ∈ (start.after overtaken).threads ∧ second ∈ reloading.rest.rounds ∧
      second.published.number = 2 ∧ (start.after overtaken).scene.Sees second ∧
      reloading.rest.AnswersOnly (some (.ok 3)) := by
  obtain ⟨sees, answers, -⟩ := rounds_see_no_older_document overtaken
  have version : (start.after overtaken).scene.program.version? (.named "s") = some 3 := by
    decide +kernel
  have first : (start.after overtaken).threads[8]?.any (fun thread => thread.rest.rounds.head?.any
      fun round => round.published.number = 1 ∧ round.published.document.version = 2) = true := by
    decide +kernel
  have second : (start.after overtaken).threads[9]?.any (fun thread => thread.rest.rounds.head?.any
      fun round => round.published.number = 2 ∧ round.published.document.version = 3) = true := by
    decide +kernel
  obtain ⟨dispatching, held, during⟩ := (Option.any_eq_true _ _).1 first
  obtain ⟨first, firstHead, facts⟩ := (Option.any_eq_true _ _).1 during
  obtain ⟨firstNumber, firstVersion⟩ := of_decide_eq_true facts
  obtain ⟨reloading, held', during'⟩ := (Option.any_eq_true _ _).1 second
  obtain ⟨second, secondHead, facts'⟩ := (Option.any_eq_true _ _).1 during'
  obtain ⟨secondNumber, secondVersion⟩ := of_decide_eq_true facts'
  have reloads : reloading.action = .reload (.named "s") := by
    have begun : (overtaken.filterMap Move.begun?)[9]? = some (.reload (.named "s")) := rfl
    have action := congrArg (·[9]?) (map_action_after start overtaken)
    simp only [List.getElem?_map, held', Option.map_some] at action
    exact Option.some.inj (action.trans begun)
  have member := List.mem_of_getElem? held
  have member' := List.mem_of_getElem? held'
  have firstMember := List.mem_of_head? firstHead
  have secondMember := List.mem_of_head? secondHead
  obtain ⟨-, answered⟩ := answers reloading member' _ reloads second secondHead
  rw [secondVersion] at answered
  exact ⟨version, dispatching, reloading, first, second, member, firstMember, firstNumber,
    firstVersion, sees _ member _ firstMember, member', secondMember, secondNumber,
    sees _ member' _ secondMember, answered⟩

end Pool
end LayeredSettings
