import LayeredSettings.Proofs.Program.Adherence

/-!
Steps that take turns.

Any number of steps go on at the same time, one operation after the other: calls, reload tasks,
dispatchers, and whatever else happens. A resolver is alive as long as somebody has a handle of it
or a step that is going on holds it.
-/

namespace LayeredSettings

open Program

/-- A step that has begun, and what remains of it. -/
structure Thread where
  action : Action
  rest : Process (Option (Except Fault Int64))

/-- Steps that go on at the same time. -/
structure Pool where
  scene : Scene
  threads : List Thread

/-- What happens next. -/
inductive Move
  | begin (a : Action)
  /-- A thread takes its next operation, if it has not ended. -/
  | advance (thread : Nat)

namespace Move

/-- The step that a move begins. -/
def begun? : Move → Option Action
  | .begin a => some a
  | .advance _ => none

/-- Whether it is the turn of a thread. -/
def advances (n : Nat) : Move → Bool
  | .begin _ => false
  | .advance m => m = n

end Move

namespace Pool

def start : Pool := ⟨⟨{}, []⟩, []⟩

/-- Somebody has a handle of a resolver, or a thread holds it. -/
def alive (s : Pool) (i : ResolverId) : Bool :=
  s.scene.program.inUse i || s.threads.any (·.rest.held.contains i)

def advance (s : Pool) (n : Nat) : Pool :=
  match s.threads[n]? with
  | none => s
  | some thread =>
    match thread.rest with
    | .ended _ => s
    | .step _ _ op next =>
      { scene := s.scene.step op
        threads := s.threads.set n { thread with rest := next s.scene.program s.alive } }

def move (s : Pool) : Move → Pool
  | .begin a => { s with threads := s.threads ++ [⟨a, Process.ofAction a⟩] }
  | .advance n => s.advance n

def after (s : Pool) (moves : List Move) : Pool := moves.foldl move s

theorem after_append (s : Pool) (moves later : List Move) :
    s.after (moves ++ later) = (s.after moves).after later := List.foldl_append ..

section
variable {s : Pool} {n : Nat} {a : Action}

theorem advance_of_step {rounds : List Round} {held : List ResolverId} {op : Operation}
    {next : Program → (ResolverId → Bool) → Process (Option (Except Fault Int64))}
    (found : s.threads[n]? = some ⟨a, .step rounds held op next⟩) :
    s.advance n = { scene := s.scene.step op
                    threads := s.threads.set n ⟨a, next s.scene.program s.alive⟩ } := by
  simp only [advance, found]

/-- A thread that has its turn takes an operation, unless there is none to take. -/
theorem advance_eq (s : Pool) (n : Nat) :
    (s.advance n = s ∧ ∀ thread, s.threads[n]? = some thread →
      ∃ answer, thread.rest = .ended answer) ∨
    ∃ a rounds held op next, s.threads[n]? = some ⟨a, .step rounds held op next⟩ ∧
      s.advance n = { scene := s.scene.step op
                      threads := s.threads.set n ⟨a, next s.scene.program s.alive⟩ } := by
  cases found : s.threads[n]? with
  | none => exact .inl ⟨by simp only [advance, found], by simp⟩
  | some thread =>
    obtain ⟨a, rest⟩ := thread
    cases rest with
    | ended answer =>
      refine .inl ⟨by simp only [advance, found], fun thread same => ⟨answer, ?_⟩⟩
      rw [← Option.some.inj same]
    | step rounds held op next =>
      exact .inr ⟨a, rounds, held, op, next, rfl, advance_of_step found⟩

end

theorem later_move (s : Pool) (m : Move) : s.scene.Later (s.move m).scene := by
  cases m with
  | begin a => exact .refl s.scene
  | advance n =>
    rcases s.advance_eq n with ⟨same, -⟩ | ⟨a, rounds, held, op, next, -, stepped⟩
    · exact (congrArg Pool.scene same).symm ▸ .refl s.scene
    · exact (congrArg Pool.scene stepped).symm ▸ s.scene.later_step op

/-- There is one thread for each step that has begun. -/
theorem map_action_after (s : Pool) (moves : List Move) :
    (s.after moves).threads.map (·.action) =
      s.threads.map (·.action) ++ moves.filterMap Move.begun? := by
  induction moves generalizing s with
  | nil => exact (List.append_nil _).symm
  | cons first moves ih =>
    rw [after, List.foldl_cons]
    refine (ih (s.move first)).trans ?_
    cases first with
    | begin a =>
      have begun : List.filterMap Move.begun? (.begin a :: moves) =
          a :: moves.filterMap Move.begun? := rfl
      rw [begun, List.append_cons]
      exact congrArg (· ++ _) List.map_append
    | advance n =>
      refine congrArg (· ++ _) ?_
      show (s.advance n).threads.map (·.action) = s.threads.map (·.action)
      rcases s.advance_eq n with ⟨same, -⟩ | ⟨a, rounds, held, op, next, found, stepped⟩
      · rw [same]
      · have exist := (List.getElem?_eq_some_iff.1 found).1
        rw [stepped, List.map_set]
        refine List.ext_getElem? fun m => ?_
        by_cases turn : n = m
        · subst turn
          rw [List.getElem?_set_self (by simpa using exist), List.getElem?_map, found]
          rfl
        · rw [List.getElem?_set_ne turn]

/-- What every operation keeps of the program stays. -/
theorem program_after {I : Program → Prop}
    (each : ∀ {p : Program} (op : Operation), I p → I (op.effect p)) {s : Pool}
    (now : I s.scene.program) (moves : List Move) : I (s.after moves).scene.program := by
  induction moves using List.reverseRecOn with
  | nil => exact now
  | append_singleton moves last ih =>
    rw [after_append]
    cases last with
    | begin a => exact ih
    | advance n =>
      show I ((s.after moves).advance n).scene.program
      rcases (s.after moves).advance_eq n with ⟨same, -⟩ | ⟨a, rounds, held, op, next, -, stepped⟩
      · rwa [same]
      · rw [stepped]
        exact each op ih

/-! ## Threads keep to their terms -/

/-- Some of the threads keep to some terms. Which ones it is about is told by their numbers and by
the steps that they go through. -/
def Going (C : Terms) (among : Nat → Action → Prop) (s : Pool) : Prop :=
  ∀ n thread, s.threads[n]? = some thread → among n thread.action →
    Process.Goes C [] thread.rest s.scene

/-- Besides, there is nothing to be said against what there is now. -/
structure Complies (C : Terms) (among : Nat → Action → Prop) (s : Pool) : Prop where
  ok : C.Ok s.scene
  going : s.Going C among

/-- All threads. -/
def everyone : Nat → Action → Prop := fun _ _ => True

section
variable {C : Terms} {among : Nat → Action → Prop} {s : Pool}

theorem Going.begin (going : s.Going C among) {a : Action}
    (admitted : among s.threads.length a → C.Admits a) :
    (s.move (.begin a)).Going C among := by
  intro n thread found mine
  rcases Nat.lt_or_ge n s.threads.length with old | new
  · exact going n thread ((List.getElem?_append_left old).symm.trans found) mine
  · have begun := (List.getElem?_append_right new).symm.trans found
    rw [List.getElem?_singleton] at begun
    split at begun
    · rename_i first
      cases begun
      obtain rfl : n = s.threads.length := Nat.le_antisymm (Nat.sub_eq_zero_iff_le.1 first) new
      exact (Process.keeps_ofAction (admitted mine)).goes
    · cases begun

theorem Going.advance (going : s.Going C among) (ok : C.Ok s.scene)
    (living : C.Alive s.scene.program s.alive) (n : Nat) : (s.advance n).Going C among := by
  rcases s.advance_eq n with ⟨same, -⟩ | ⟨a, rounds, held, op, next, found, stepped⟩
  · exact same.symm ▸ going
  · rw [stepped]
    intro m thread there mine
    rw [List.getElem?_set] at there
    split at there
    · rename_i same
      subst same
      split at there
      · cases there
        obtain ⟨-, -, -, further⟩ :=
          going n ⟨a, .step rounds held op next⟩ found mine s.scene ok (.refl s.scene)
        exact (further s.alive living).2.2
      · cases there
    · -- To another thread this is something that happens in the meantime.
      exact (going m thread there mine).later (s.scene.later_step op)

theorem Complies.begin (h : s.Complies C among) {a : Action}
    (admitted : among s.threads.length a → C.Admits a) : (s.move (.begin a)).Complies C among :=
  ⟨h.ok, h.going.begin admitted⟩

theorem Complies.advance (h : s.Complies C among) (living : C.Alive s.scene.program s.alive)
    {n : Nat} (mine : ∀ a, among n a) : (s.advance n).Complies C among where
  ok := by
    rcases s.advance_eq n with ⟨same, -⟩ | ⟨a, rounds, held, op, next, found, stepped⟩
    · exact same.symm ▸ h.ok
    · obtain ⟨-, allowed, -⟩ := h.going n _ found (mine a) s.scene h.ok (.refl s.scene)
      rw [stepped]
      exact Terms.ok_step h.ok allowed
  going := h.going.advance h.ok living n

end

theorem alive_free (s : Pool) : Terms.free.Alive s.scene.program s.alive :=
  fun _ _ => .inr trivial

theorem complies_after (moves : List Move) : (start.after moves).Complies .free everyone := by
  induction moves using List.reverseRecOn with
  | nil => exact ⟨Terms.ok_start trivial, fun _ _ none => by cases none⟩
  | append_singleton moves last ih =>
    rw [after_append]
    cases last with
    | begin a => exact ih.begin fun _ => Terms.admits_free a
    | advance n => exact ih.advance (alive_free _) fun _ => trivial

/-! ## Threads that are left alone -/

/-- A step that has just begun holds nothing. -/
theorem held_ofAction (a : Action) : (Process.ofAction a).held = [] := by
  have begins := (Process.keeps_ofAction (s := start.scene) (Terms.admits_free a)).held
  exact List.eq_nil_iff_forall_not_mem.2 fun i held => by simpa using begins i held

/-- A thread that is left alone, while no other holds anything, does what its process does. -/
theorem exists_finish {s : Pool} (h : s.Complies .free everyone) {n : Nat} {a : Action}
    {x : Process (Option (Except Fault Int64))} (found : s.threads[n]? = some ⟨a, x⟩)
    (others : ∀ m thread, m ≠ n → s.threads[m]? = some thread → thread.rest.held = []) :
    ∃ k, (s.after (List.replicate k (.advance n))).scene.program = (x.finish s.scene.program).1 ∧
      ∀ thread ∈ (s.after (List.replicate k (.advance n))).threads, thread.rest.held = [] := by
  induction x generalizing s with
  | ended answer =>
    refine ⟨0, rfl, fun thread member => ?_⟩
    obtain ⟨m, there⟩ := List.mem_iff_getElem?.1 member
    by_cases same : m = n
    · cases found.symm.trans (same ▸ there)
      rfl
    · exact others m thread same there
  | step rounds held op next ih =>
    have advanced := advance_of_step found
    have exist := (List.getElem?_eq_some_iff.1 found).1
    have now : (s.advance n).threads[n]? = some ⟨a, next s.scene.program s.alive⟩ := by
      rw [advanced, List.getElem?_set_self exist]
    have others' (m : Nat) (thread : Thread) (other : m ≠ n)
        (there : (s.advance n).threads[m]? = some thread) : thread.rest.held = [] := by
      rw [advanced, List.getElem?_set_ne (Ne.symm other)] at there
      exact others m thread other there
    obtain ⟨k, finished, idle⟩ := ih _ _ (h.advance s.alive_free fun _ => trivial) now others'
    refine ⟨k + 1, ?_, idle⟩
    rw [List.replicate_succ]
    refine finished.trans ?_
    -- What is alive makes a difference only where the thread holds nothing, and then it is just
    -- what is in use.
    obtain ⟨-, -, -, further⟩ := h.going n _ found trivial s.scene h.ok (.refl s.scene)
    obtain ⟨blind, -, -⟩ := further s.alive s.alive_free
    have agree : Terms.free.Agree s.scene.program s.scene.program := ⟨rfl, fun _ _ _ => rfl⟩
    have next_eq := blind s.scene.program s.scene.program.inUse agree fun none _ => by
      funext i
      have nobody : s.threads.any (·.rest.held.contains i) = false := by
        refine List.any_eq_false.2 fun thread member => ?_
        obtain ⟨m, there⟩ := List.mem_iff_getElem?.1 member
        by_cases same : m = n
        · cases found.symm.trans (same ▸ there)
          simp [Process.held, none]
        · simp [others m thread same there]
      rw [alive, nobody, Bool.or_false]
    rw [Process.finish, next_eq, advanced]
    rfl

/-- A step that nothing interrupts, if it ends within a few operations. -/
def uninterrupted (n : Nat) (a : Action) : List Move := .begin a :: List.replicate 8 (.advance n)

/-- Every run of a program is one in which each step is left alone until it ends. -/
theorem exists_moves (run : List Action) :
    ∃ moves, (start.after moves).scene.program = ofRun run ∧
      ∀ thread ∈ (start.after moves).threads, thread.rest.held = [] := by
  induction run using List.reverseRecOn with
  | nil => exact ⟨[], rfl, List.forall_mem_nil _⟩
  | append_singleton run a ih =>
    obtain ⟨moves, done, idle⟩ := ih
    let s := (start.after moves).move (.begin a)
    have begun : s.threads[(start.after moves).threads.length]? =
        some ⟨a, Process.ofAction a⟩ := List.getElem?_concat_length
    have complies : s.Complies .free everyone :=
      (complies_after moves).begin fun _ => Terms.admits_free a
    have others (m : Nat) (thread : Thread) (_ : m ≠ (start.after moves).threads.length)
        (there : s.threads[m]? = some thread) : thread.rest.held = [] := by
      rcases List.mem_append.1 (List.mem_of_getElem? there) with before | new
      · exact idle thread before
      · cases List.mem_singleton.1 new
        exact held_ofAction a
    obtain ⟨k, finished, idle'⟩ := exists_finish complies begun others
    refine ⟨moves ++ .begin a :: List.replicate k (.advance (start.after moves).threads.length),
      ?_, ?_⟩
    · rw [after_append]
      refine finished.trans ?_
      rw [Process.finish_ofAction, ofRun_concat, ← done]
      rfl
    · rw [after_append]
      exact idle'

end Pool
end LayeredSettings
