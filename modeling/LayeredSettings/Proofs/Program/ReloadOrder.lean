import LayeredSettings.Proofs.Except
import LayeredSettings.Proofs.Program.Interleaving
import Mathlib

/-!
Reloads that go on at the same time publish in the order of the file.

A reloader that has the lock always gets on, and the lock is given back, so that a reload that waits
for it can get its answer. What it answers, if the file is not replaced any more, is the version of
the file.
-/

namespace LayeredSettings.Interleaving

section
variable {source : Source} {s : State} {i j : ReloaderId}

/-! ## Answers -/

/-- A reloader that started when the file had a valid content, which was not replaced since. -/
def OnCourse (source : Source) (d : Document) : Stage → Prop
  | .waiting | .locked => True
  | .read text => Document.parse source.format text = .ok d
  | .checked c | .swapped c | .sent c | .announcing c => c = d
  | .answered answer => answer = .ok d.version
  | .idle | .failed _ => False

theorem files_advance (source : Source) (s : State) (i : ReloaderId) :
    (s.advance source i).files = s.files := by
  unfold State.advance
  split
  case h_2 | h_3 | h_4 => split <;> rfl
  all_goals rfl

theorem files_act {a : Action} (kept : a.isReplace = false) : (s.act source a).files = s.files := by
  cases a with
  | replace files => cases kept
  | call i =>
    show (if (s.stage i).isOver then s.enter i .waiting else s).files = s.files
    split <;> rfl
  | advance i => exact files_advance source s i
  | look k => rfl

theorem stage_advance_ne (source : Source) (s : State) (other : j ≠ i) :
    (s.advance source i).stage j = s.stage j := by
  unfold State.advance
  split
  case h_2 | h_3 | h_4 =>
    split
    · exact State.stage_enter_ne _ other _
    · first | exact State.stage_enter_ne _ other _ | rfl
  all_goals first | exact State.stage_enter_ne _ other _ | rfl

theorem OnCourse.advance {d : Document} (loaded : source.load s.files = .ok d)
    (course : OnCourse source d (s.stage i)) :
    OnCourse source d ((s.advance source i).stage i) := by
  unfold State.advance
  cases stage : s.stage i with
  | idle =>
    rw [stage] at course
    exact course.elim
  | waiting =>
    simp only
    split
    · rw [State.stage_enter_self]
      trivial
    · rw [stage]
      trivial
  | locked =>
    obtain ⟨text, found, parsed⟩ := Except.bind_eq_ok_iff.1 loaded
    rw [Except.mapError_eq_ok_iff] at found
    simp only [found, State.stage_enter_self]
    exact parsed
  | read text =>
    rw [stage] at course
    have parsed : Document.parse source.format text = .ok d := course
    simp only [parsed, State.stage_enter_self]
    rfl
  | failed fault =>
    rw [stage] at course
    exact course.elim
  | announcing c =>
    rw [stage] at course
    have same : c = d := course
    rw [State.stage_enter_self, same]
    rfl
  | answered answer =>
    rw [stage] at course
    show OnCourse source d (s.stage i)
    rwa [stage]
  | _ =>
    rw [stage] at course
    rw [State.stage_enter_self]
    exact course

theorem OnCourse.answered {d : Document} (course : OnCourse source d (s.stage i))
    (ended : (s.stage i).isOver = true) : s.stage i = .answered (.ok d.version) := by
  cases stage : s.stage i with
  | answered answer =>
    rw [stage] at course
    exact congrArg Stage.answered course
  | idle =>
    rw [stage] at course
    exact course.elim
  | _ =>
    rw [stage] at ended
    cases ended

theorem OnCourse.act {d : Document} {a : Action} (kept : a.isReplace = false)
    (loaded : source.load s.files = .ok d) (course : OnCourse source d (s.stage i)) :
    OnCourse source d ((s.act source a).stage i) := by
  cases a with
  | replace files => cases kept
  | call j =>
    show OnCourse source d ((if (s.stage j).isOver then s.enter j .waiting else s).stage i)
    split
    · by_cases same : i = j
      · rw [same, State.stage_enter_self]
        trivial
      · rwa [State.stage_enter_ne s same]
    · exact course
  | advance j =>
    by_cases same : i = j
    · subst same
      exact course.advance loaded
    · show OnCourse source d ((s.advance source j).stage i)
      rwa [stage_advance_ne source s same]
  | look k => exact course

theorem OnCourse.after {d : Document} {run : List Action} (kept : ∀ a ∈ run, a.isReplace = false)
    (loaded : source.load s.files = .ok d) (course : OnCourse source d (s.stage i)) :
    source.load (s.after source run).files = .ok d ∧
      OnCourse source d ((s.after source run).stage i) := by
  induction run generalizing s with
  | nil => exact ⟨loaded, course⟩
  | cons a run ih =>
    obtain ⟨now, later⟩ := List.forall_mem_cons.1 kept
    refine ih later ?_ (course.act now loaded)
    rwa [files_act now]

/-! ## Progress -/

/-- How many steps of its own a reloader is away from its answer. -/
def Stage.left : Stage → Nat
  | .waiting => 7
  | .locked => 6
  | .read _ => 5
  | .checked _ => 4
  | .swapped _ => 3
  | .sent _ => 2
  | .failed _ | .announcing _ => 1
  | .idle | .answered _ => 0

theorem Stage.left_le (stage : Stage) : stage.left ≤ 7 := by
  unfold left
  split <;> decide

theorem Stage.left_le_of_holds {stage : Stage} (holds : stage.holds = true) : stage.left ≤ 6 := by
  cases stage with
  | waiting => cases holds
  | _ => exact Nat.le_of_ble_eq_true rfl

/-- A reloader that has something to do gets on, unless another one has the lock. -/
theorem left_advance (source : Source) (busy : (s.stage i).isOver = false)
    (free : s.stage i = .waiting → s.lock = none) :
    ((s.advance source i).stage i).left < (s.stage i).left := by
  unfold State.advance
  cases stage : s.stage i with
  | idle =>
    rw [stage] at busy
    cases busy
  | answered answer =>
    rw [stage] at busy
    cases busy
  | waiting =>
    simp only [free stage, Option.isNone_none, if_true, State.stage_enter_self]
    decide
  | locked =>
    simp only
    split <;> (rw [State.stage_enter_self]; exact Nat.lt_of_sub_eq_succ rfl)
  | read text =>
    simp only
    split <;> (rw [State.stage_enter_self]; exact Nat.lt_of_sub_eq_succ rfl)
  | _ =>
    rw [State.stage_enter_self]
    exact Nat.lt_of_sub_eq_succ rfl

/-- Nothing but steps of reloaders. -/
def OnlySteps (run : List Action) : Prop := ∀ a ∈ run, ∃ j, a = .advance j

theorem OnlySteps.cons {run : List Action} (steps : OnlySteps run) (j : ReloaderId) :
    OnlySteps (.advance j :: run) := List.forall_mem_cons.2 ⟨⟨j, rfl⟩, steps⟩

variable {top : Document}

theorem exists_free_of_held (sound : Sound source s top) (held : s.lock = some i) :
    ∃ more, OnlySteps more ∧ (s.after source more).lock = none ∧
      (s.after source more).files = s.files ∧
      ∀ j, (s.stage j).holds = false → (s.after source more).stage j = s.stage j := by
  generalize measure : (s.stage i).left = n
  induction n using Nat.strongRecOn generalizing s with
  | ind n ih =>
    have holds : (s.stage i).holds = true := (sound.holder i).2 held
    have busy : (s.stage i).isOver = false := by
      rw [Bool.eq_false_iff]
      intro ended
      rw [Stage.holds_of_isOver ended] at holds
      cases holds
    have notWaiting : s.stage i = .waiting → s.lock = none := by
      intro waiting
      rw [waiting] at holds
      cases holds
    have nearer := left_advance source busy notWaiting
    obtain ⟨next, -⟩ := sound.advance i
    have others : ∀ j, (s.stage j).holds = false →
        (s.advance source i).stage j = s.stage j := by
      intro j without
      apply stage_advance_ne
      rintro rfl
      rw [holds] at without
      cases without
    cases lock : (s.advance source i).lock with
    | none =>
      have steps : OnlySteps [.advance i] := List.forall_mem_singleton.2 ⟨i, rfl⟩
      exact ⟨[.advance i], steps, lock, files_advance source s i, others⟩
    | some k =>
      have same : k = i := by
        by_contra other
        have stays : (s.stage k).holds = true := by
          rw [← stage_advance_ne source s other]
          exact (next.holder k).2 lock
        exact other (Option.some.inj (((sound.holder k).1 stays).symm.trans held))
      subst same
      obtain ⟨more, steps, free, files, kept⟩ := ih _ (measure ▸ nearer) next lock rfl
      refine ⟨.advance k :: more, steps.cons k, free, files.trans (files_advance source s k), ?_⟩
      intro j without
      have stage := others j without
      exact (kept j (by rwa [stage])).trans stage

/-- Whoever has the lock can give it back. -/
theorem exists_free (sound : Sound source s top) :
    ∃ more, OnlySteps more ∧ (s.after source more).lock = none ∧
      (s.after source more).files = s.files ∧
      ∀ j, (s.stage j).holds = false → (s.after source more).stage j = s.stage j := by
  cases lock : s.lock with
  | none => exact ⟨[], List.forall_mem_nil _, lock, rfl, fun _ _ => rfl⟩
  | some i => exact exists_free_of_held sound lock

/-- A step of the reloader itself. -/
def Action.isStepOf (i : ReloaderId) : Action → Bool
  | .advance j => j = i
  | _ => false

theorem stage_act_of_not_step {a : Action} (busy : (s.stage i).isOver = false)
    (foreign : a.isStepOf i = false) : (s.act source a).stage i = s.stage i := by
  cases a with
  | replace files => rfl
  | call j =>
    show (if (s.stage j).isOver then s.enter j .waiting else s).stage i = s.stage i
    split
    · rename_i ended
      apply State.stage_enter_ne
      rintro rfl
      rw [busy] at ended
      cases ended
    · rfl
  | advance j => exact stage_advance_ne source s fun same => of_decide_eq_false foreign same.symm
  | look k => rfl

/-- From when it has the lock, only its own steps count for a reloader on course, whatever others do
in between. -/
theorem exists_answered_of_steps {d : Document} {more : List Action}
    (kept : ∀ a ∈ more, a.isReplace = false) (loaded : source.load s.files = .ok d)
    (course : OnCourse source d (s.stage i)) (started : s.stage i ≠ .waiting)
    (enough : (s.stage i).left ≤ more.countP (Action.isStepOf i)) :
    ∃ first, first <+: more ∧ (s.after source first).stage i = .answered (.ok d.version) := by
  induction more generalizing s with
  | nil =>
    refine ⟨[], List.prefix_rfl, course.answered (eq_true_of_ne_false fun busy => ?_)⟩
    have nearer := left_advance source busy fun waiting => absurd waiting started
    exact absurd (Nat.lt_of_lt_of_le nearer enough) (Nat.not_lt_zero _)
  | cons a more ih =>
    cases ended : (s.stage i).isOver with
    | true => exact ⟨[], List.nil_prefix, course.answered ended⟩
    | false =>
      obtain ⟨now, later⟩ := List.forall_mem_cons.1 kept
      have loaded' : source.load (s.act source a).files = .ok d := by rwa [files_act now]
      have onward : (s.act source a).stage i ≠ .waiting ∧
          ((s.act source a).stage i).left ≤ more.countP (Action.isStepOf i) := by
        cases own : a.isStepOf i with
        | false =>
          rw [List.countP_cons_of_neg (by rw [own]; exact Bool.false_ne_true)] at enough
          rw [stage_act_of_not_step ended own]
          exact ⟨started, enough⟩
        | true =>
          rw [List.countP_cons_of_pos own] at enough
          cases a with
          | advance j =>
            cases of_decide_eq_true own
            have nearer := left_advance source ended fun waiting => absurd waiting started
            refine ⟨fun waiting => ?_, Nat.le_of_lt_succ (Nat.lt_of_lt_of_le nearer enough)⟩
            have same : ((s.advance source i).stage i).left = 7 := congrArg Stage.left waiting
            exact absurd (same ▸ nearer) (Nat.not_lt.2 (s.stage i).left_le)
          | _ => cases own
      obtain ⟨first, taken, answered⟩ :=
        ih later loaded' (course.act now loaded) onward.1 onward.2
      exact ⟨a :: first, List.cons_prefix_cons.2 ⟨rfl, taken⟩, answered⟩

theorem exists_answered_of_started {d : Document} (loaded : source.load s.files = .ok d)
    (course : OnCourse source d (s.stage i)) (started : s.stage i ≠ .waiting) :
    ∃ more, OnlySteps more ∧ (s.after source more).stage i = .answered (.ok d.version) := by
  have own : ∀ a ∈ List.replicate 7 (Action.advance i), a = .advance i :=
    fun _ => List.eq_of_mem_replicate
  have kept : ∀ a ∈ List.replicate 7 (Action.advance i), a.isReplace = false := by
    intro a member
    rw [own a member]
    rfl
  have enough : (s.stage i).left ≤
      (List.replicate 7 (Action.advance i)).countP (Action.isStepOf i) := by
    have mine : (Action.advance i).isStepOf i = true := decide_eq_true rfl
    rw [List.countP_replicate, if_pos mine]
    exact (s.stage i).left_le
  obtain ⟨more, taken, answered⟩ := exists_answered_of_steps kept loaded course started enough
  exact ⟨more, fun a member => ⟨i, own a (taken.subset member)⟩, answered⟩

/-- No reloader that is on course waits in vain. -/
theorem exists_answered {d : Document} (sound : Sound source s top)
    (loaded : source.load s.files = .ok d) (course : OnCourse source d (s.stage i)) :
    ∃ more, OnlySteps more ∧ (s.after source more).stage i = .answered (.ok d.version) := by
  by_cases waiting : s.stage i = .waiting
  · obtain ⟨first, steps, free, files, kept⟩ := exists_free sound
    have stage : (s.after source first).stage i = .waiting :=
      (kept i (by rw [waiting]; rfl)).trans waiting
    have entered : ((s.after source first).advance source i).stage i = .locked := by
      unfold State.advance
      simp only [stage, free, Option.isNone_none, if_true, State.stage_enter_self]
    have loaded' : source.load ((s.after source first).advance source i).files = .ok d := by
      rwa [files_advance, files]
    obtain ⟨more, others, answered⟩ := exists_answered_of_started loaded'
      (by rw [entered]; trivial) (by rw [entered]; exact Stage.noConfusion)
    refine ⟨first ++ .advance i :: more, List.forall_mem_append.2 ⟨steps, others.cons i⟩, ?_⟩
    rw [State.after, List.foldl_append]
    exact answered
  · exact exists_answered_of_started loaded course waiting

/-! ## Without interruption -/

/-- A call with all the steps that it can take. -/
def uninterrupted (i : ReloaderId) : List Action := .call i :: List.replicate 7 (.advance i)

theorem State.enter_enter (s : State) (i : ReloaderId) (first next : Stage) :
    (s.enter i first).enter i next = s.enter i next :=
  congrArg (fun stage => { s with stage }) (Function.update_idem ..)

theorem advance_waiting (free : s.lock = none) :
    (s.enter i .waiting).advance source i = { s with lock := some i }.enter i .locked := by
  have free : (s.enter i .waiting).lock.isNone = true := Option.isNone_iff_eq_none.2 free
  unfold State.advance
  rw [State.stage_enter_self]
  exact (if_pos free).trans (State.enter_enter { s with lock := some i } i _ _)

theorem advance_locked_ok {text : String} (found : s.files.readText source.path = .ok text) :
    (s.enter i .locked).advance source i = s.enter i (.read text) := by
  have found : (s.enter i .locked).files.readText source.path = .ok text := found
  unfold State.advance
  simp only [State.stage_enter_self, found, State.enter_enter]

theorem advance_locked_error {reason : ReadFault}
    (found : s.files.readText source.path = .error reason) :
    (s.enter i .locked).advance source i = s.enter i (.failed (.load source.path reason)) := by
  have found : (s.enter i .locked).files.readText source.path = .error reason := found
  unfold State.advance
  simp only [State.stage_enter_self, found, State.enter_enter]

theorem advance_read_ok {text : String} {d : Document}
    (parsed : Document.parse source.format text = .ok d) :
    (s.enter i (.read text)).advance source i = s.enter i (.checked d) := by
  unfold State.advance
  simp only [State.stage_enter_self, parsed, State.enter_enter]

theorem advance_read_error {text : String} {fault : Fault}
    (parsed : Document.parse source.format text = .error fault) :
    (s.enter i (.read text)).advance source i = s.enter i (.failed fault) := by
  unfold State.advance
  simp only [State.stage_enter_self, parsed, State.enter_enter]

theorem advance_checked (s : State) (i : ReloaderId) (d : Document) :
    (s.enter i (.checked d)).advance source i =
      { s with resolver := s.resolver.swap d }.enter i (.swapped d) := by
  unfold State.advance
  rw [State.stage_enter_self]
  exact State.enter_enter { s with resolver := s.resolver.swap d } i _ _

theorem advance_swapped (s : State) (i : ReloaderId) (d : Document) :
    (s.enter i (.swapped d)).advance source i =
      { s with resolver := s.resolver.send d }.enter i (.sent d) := by
  unfold State.advance
  rw [State.stage_enter_self]
  exact State.enter_enter { s with resolver := s.resolver.send d } i _ _

theorem advance_sent (s : State) (i : ReloaderId) (d : Document) :
    (s.enter i (.sent d)).advance source i = { s with lock := none }.enter i (.announcing d) := by
  unfold State.advance
  rw [State.stage_enter_self]
  exact State.enter_enter { s with lock := none } i _ _

theorem advance_failed (s : State) (i : ReloaderId) (fault : Fault) :
    (s.enter i (.failed fault)).advance source i =
      { s with lock := none }.enter i (.answered (.error fault)) := by
  unfold State.advance
  rw [State.stage_enter_self]
  exact State.enter_enter { s with lock := none } i _ _

theorem advance_announcing (s : State) (i : ReloaderId) (d : Document) :
    (s.enter i (.announcing d)).advance source i = s.enter i (.answered (.ok d.version)) := by
  unfold State.advance
  rw [State.stage_enter_self]
  exact State.enter_enter s i _ _

theorem advance_answered (s : State) (i : ReloaderId) (answer : Except Fault Int64) :
    (s.enter i (.answered answer)).advance source i = s.enter i (.answered answer) := by
  unfold State.advance
  rw [State.stage_enter_self]

/-- The state after a call and all its steps is that of a reload at once. -/
theorem after_uninterrupted (i : ReloaderId) (free : s.lock = none)
    (ended : (s.stage i).isOver = true) :
    s.after source (uninterrupted i) =
      { s with
        resolver := (source.load s.files).toOption.elim s.resolver s.resolver.publish }.enter i
        (.answered ((source.load s.files).map Document.version)) := by
  unfold State.after uninterrupted
  simp only [List.replicate, List.foldl, State.act, ended, if_true, advance_waiting free]
  cases found : s.files.readText source.path with
  | error reason =>
    have loaded := Source.load_of_readText_error found
    rw [advance_locked_error (s := { s with lock := some i }) found]
    simp only [advance_failed, advance_answered, loaded, free]
    rfl
  | ok text =>
    rw [advance_locked_ok (s := { s with lock := some i }) found]
    cases parsed : Document.parse source.format text with
    | error fault =>
      have loaded := (Source.load_of_readText_ok found).trans parsed
      rw [advance_read_error parsed]
      simp only [advance_failed, advance_answered, loaded, free]
      rfl
    | ok d =>
      have loaded := (Source.load_of_readText_ok found).trans parsed
      rw [advance_read_ok parsed]
      simp only [advance_checked, advance_swapped, Resolver.send_swap, advance_sent,
        advance_announcing, loaded, free]
      rfl

theorem getElem?_publish {p : Program} {k : ResolverId} {r : Resolver}
    (known : p.resolvers[k]? = some r) (d : Document) :
    (p.publish k d).resolvers[k]? = some (r.publish d) := by
  have published : p.publish k d =
      (p.modifyResolver k (·.publish d)).log (.published k r.version d.version d.size) := by
    unfold Program.publish
    rw [known]
  rw [published]
  show (p.resolvers.modify k (·.publish d))[k]? = some (r.publish d)
  rw [List.getElem?_modify, known]
  exact congrArg some (if_pos rfl)

/-- A reload at once does to the resolver, and answers, what a reload does that nothing
interrupts. -/
theorem reloadDocument_eq_uninterrupted {p : Program} {k : ResolverId} {r : Resolver}
    (known : p.resolvers[k]? = some r) (own : r.source = some source) (i : ReloaderId) :
    let t := (State.start p.files r).after source (uninterrupted i)
    (p.reloadDocument k).1.resolvers[k]? = some t.resolver ∧
      t.stage i = .answered ((p.reloadDocument k).2.map (·.document.version)) := by
  intro t
  have ends : t = { State.start p.files r with
      resolver := (source.load p.files).toOption.elim r r.publish }.enter i
        (.answered ((source.load p.files).map Document.version)) := after_uninterrupted i rfl rfl
  rw [ends, State.stage_enter_self]
  unfold Program.reloadDocument
  simp only [known, own]
  cases loaded : source.load p.files with
  | error fault => exact ⟨known, rfl⟩
  | ok d => exact ⟨getElem?_publish known d, rfl⟩

end

/-- However reloads and replacements of the file interleave, if the versions of its successive valid
contents never decrease, then neither does the version of the live document, nor does any
subscriber ever see an older one than before. A reload that begins after the last replacement, when
the content is valid, answers with the version of the content: it cannot answer anything else, it
can always still answer, and after six more steps of its own with the lock it has done so. -/
theorem published_versions_ascend {source : Source} {files : FileStore} {facts : Facts}
    {d : Document} (loaded : source.load files = .ok d) (run : List Action)
    (ascending : Ascending source d run) :
    let s := State.start files (.create (some source) facts d)
    (∀ before later, before ++ later <+: run →
      (s.after source before).resolver.version ≤
        (s.after source (before ++ later)).resolver.version) ∧
    (∀ k, ((s.after source run).seen k).Pairwise (· ≤ ·)) ∧
    ∀ before i later c, run = before ++ .call i :: later →
      ((s.after source before).stage i).isOver = true →
      (∀ a ∈ later, a.isReplace = false) →
      source.load (s.after source before).files = .ok c →
      (∀ answer, (s.after source run).stage i = .answered answer → answer = .ok c.version) ∧
      (∃ more, OnlySteps more ∧
        (s.after source (run ++ more)).stage i = .answered (.ok c.version)) ∧
      ∀ more, (∀ a ∈ more, a.isReplace = false) →
        ((s.after source run).stage i).holds = true → 6 ≤ more.countP (Action.isStepOf i) →
        ∃ first, first <+: more ∧
          (s.after source (run ++ first)).stage i = .answered (.ok c.version) := by
  intro s
  have sound : Sound source s d := Sound.start loaded rfl rfl
  have append (first next : List Action) :
      s.after source (first ++ next) = (s.after source first).after source next :=
    List.foldl_append
  refine ⟨?_, ?_, ?_⟩
  · rintro before later ⟨rest, rfl⟩
    rw [List.append_assoc] at ascending
    obtain ⟨top, reached, onward, -⟩ := sound.after ascending
    obtain ⟨-, -, -, further⟩ := reached.after onward
    rw [append]
    exact further
  · intro k
    obtain ⟨top, reached⟩ := sound.whole ascending
    exact (reached.seen k).1
  · rintro before i later c rfl ended kept content
    obtain ⟨top, reached⟩ := sound.whole ascending
    have called : (s.after source before).act source (.call i) =
        (s.after source before).enter i .waiting := if_pos ended
    have begun : OnCourse source c (((s.after source before).enter i .waiting).stage i) := by
      rw [State.stage_enter_self]
      trivial
    have split : s.after source (before ++ .call i :: later) =
        ((s.after source before).enter i .waiting).after source later := by
      rw [append, ← called]
      rfl
    have content : source.load ((s.after source before).enter i .waiting).files = .ok c := content
    obtain ⟨still, course⟩ := begun.after kept content
    rw [← split] at still course
    refine ⟨?_, ?_, ?_⟩
    · intro answer answered
      rw [answered] at course
      exact course
    · obtain ⟨more, steps, answered⟩ := exists_answered reached still course
      exact ⟨more, steps, by rwa [append]⟩
    · intro more kept holds enough
      have started : (s.after source (before ++ .call i :: later)).stage i ≠ .waiting := by
        intro waiting
        rw [waiting] at holds
        cases holds
      obtain ⟨first, taken, answered⟩ := exists_answered_of_steps kept still course started
        (Nat.le_trans (Stage.left_le_of_holds holds) enough)
      exact ⟨first, taken, by rwa [append]⟩

/-- Files with a document of one version at `s.json`. -/
def filesOf (version : Nat) : FileStore :=
  ({} : FileStore).write "s.json"
    (some ("[\x7b\"version\":" ++ toString version ++ ",\"end\":true\x7d]"))

/-- One reloader reads the file before it is replaced, and publishes what it has read afterwards.
Another one, which began after the replacement, waits for the lock meanwhile and then gets it. -/
def overtaken : List Action :=
  [.call 0, .advance 0, .advance 0, .replace (filesOf 2), .call 1, .advance 1, .look 0, .advance 0,
    .advance 0, .advance 0, .look 0, .advance 1, .advance 0, .advance 1]

theorem published_versions_ascend_overtaken :
    let source : Source := ⟨"s.json", .json⟩
    let first : Document := ⟨[], 1, List.forall_mem_nil _⟩
    let s := State.start (filesOf 1) (.create (some source) Facts.none first)
    let t := s.after source overtaken
    source.load (filesOf 1) = .ok first ∧ Ascending source first overtaken ∧
      t.seen 0 = [1, 1] ∧ (t.seen 0).Pairwise (· ≤ ·) ∧
      s.resolver.version ≤ t.resolver.version ∧ (t.stage 1).holds = true ∧
      ∃ more, more <+: List.replicate 6 (.advance 1) ∧
        (s.after source (overtaken ++ more)).stage 1 = .answered (.ok 2) := by
  have loaded : Source.load ⟨"s.json", .json⟩ (filesOf 1) =
      .ok ⟨[], 1, List.forall_mem_nil _⟩ := by cbv
  have reloaded : Source.load ⟨"s.json", .json⟩ (filesOf 2) =
      .ok ⟨[], 2, List.forall_mem_nil _⟩ := by cbv
  intro source first s t
  have replaced : contents source overtaken = [⟨[], 2, List.forall_mem_nil _⟩] := by
    have content : (Action.replace (filesOf 2)).content? source =
        some ⟨[], 2, List.forall_mem_nil _⟩ := by
      rw [Action.content?, reloaded]
      rfl
    exact List.filterMap_cons_some content
  have ascending : Ascending source first overtaken := by
    rw [Ascending, replaced]
    exact List.pairwise_pair.2 (by decide)
  have seen : t.seen 0 = [1, 1] := by decide +kernel
  have holds : (t.stage 1).holds = true := by decide +kernel
  obtain ⟨versions, views, answers⟩ :=
    @published_versions_ascend source (filesOf 1) Facts.none first loaded overtaken ascending
  have whole : s.resolver.version ≤ t.resolver.version :=
    versions [] overtaken (List.prefix_rfl)
  obtain ⟨-, -, returns⟩ := answers (overtaken.take 4) 1 (overtaken.drop 5) _ rfl
    (by decide +kernel) (by decide) reloaded
  obtain ⟨more, taken, answered⟩ :=
    returns (List.replicate 6 (.advance 1)) (by decide) holds (by decide)
  exact ⟨loaded, ascending, seen, views 0, whole, holds, more, taken, answered⟩

end LayeredSettings.Interleaving
