import LayeredSettings.Program.Rounds
import Mathlib.Logic.Function.Basic

/-!
Reloads of one resolver by several parties at the same time.

A reload consists of steps between which others may take theirs: it waits for the lock, reads the
file, checks what was read, replaces the live document, tells the subscribers, and gives the lock
back before callbacks run. Files may be replaced at any time. Taken without interruption the steps
are what `reloadDocument` does.
-/

namespace LayeredSettings

namespace Resolver

/-- The first half of a publication, for readers. -/
def swap (r : Resolver) (d : Document) : Resolver := { r with live := d }

/-- The second half of a publication, for subscribers. -/
def send (r : Resolver) (d : Document) : Resolver :=
  { r with latest := ⟨r.latest.number + 1, d⟩ }

theorem send_swap (r : Resolver) (d : Document) : (r.swap d).send d = r.publish d := rfl

end Resolver

namespace Source

theorem load_of_readText_ok {source : Source} {files : FileStore} {text : String}
    (found : files.readText source.path = .ok text) :
    source.load files = Document.parse source.format text := by
  rw [load, found]
  rfl

theorem load_of_readText_error {source : Source} {files : FileStore} {reason : ReadFault}
    (found : files.readText source.path = .error reason) :
    source.load files = .error (.load source.path reason) := by
  rw [load, found]
  rfl

end Source

namespace Interleaving

/-- Whoever reloads: the task of a watch, or a caller. -/
abbrev ReloaderId := Nat

abbrev SubscriberId := Nat

/-- How far a reloader has come. -/
inductive Stage
  | idle
  | waiting
  | locked
  | read (text : String)
  | checked (d : Document)
  | swapped (d : Document)
  | sent (d : Document)
  | failed (fault : Fault)
  /-- The lock was given back, and callbacks run. -/
  | announcing (d : Document)
  | answered (answer : Except Fault Int64)

namespace Stage

/-- Whether a reloader has the lock. -/
def holds : Stage → Bool
  | locked | read _ | checked _ | swapped _ | sent _ | failed _ => true
  | _ => false

/-- Whether a reloader may start the next reload. -/
def isOver : Stage → Bool
  | idle | answered _ => true
  | _ => false

theorem holds_of_isOver {stage : Stage} (ended : stage.isOver = true) : stage.holds = false := by
  cases stage with
  | idle => rfl
  | answered answer => rfl
  | _ => cases ended

end Stage

structure State where
  files : FileStore
  resolver : Resolver
  lock : Option ReloaderId := none
  stage : ReloaderId → Stage := fun _ => .idle
  /-- The versions that subscribers have seen, in order. -/
  seen : SubscriberId → List Int64 := fun _ => []

/-- What may happen next. -/
inductive Action
  | replace (files : FileStore)
  | call (i : ReloaderId)
  | advance (i : ReloaderId)
  | look (k : SubscriberId)

def Action.isReplace : Action → Bool
  | replace _ => true
  | _ => false

namespace State

def enter (s : State) (i : ReloaderId) (stage : Stage) : State :=
  { s with stage := Function.update s.stage i stage }

section
variable (source : Source)

/-- The next step of a reloader. Nothing happens while another one has the lock that it waits for,
or if it has nothing to do. -/
def advance (s : State) (i : ReloaderId) : State :=
  match s.stage i with
  | .idle => s
  | .waiting => if s.lock.isNone then { s with lock := some i }.enter i .locked else s
  | .locked =>
    match s.files.readText source.path with
    | .ok text => s.enter i (.read text)
    | .error reason => s.enter i (.failed (.load source.path reason))
  | .read text =>
    match Document.parse source.format text with
    | .ok d => s.enter i (.checked d)
    | .error fault => s.enter i (.failed fault)
  | .checked d => { s with resolver := s.resolver.swap d }.enter i (.swapped d)
  | .swapped d => { s with resolver := s.resolver.send d }.enter i (.sent d)
  | .sent d => { s with lock := none }.enter i (.announcing d)
  | .failed fault => { s with lock := none }.enter i (.answered (.error fault))
  | .announcing d => s.enter i (.answered (.ok d.version))
  | .answered _ => s

def act (s : State) : Action → State
  | .replace files => { s with files }
  | .call i => if (s.stage i).isOver then s.enter i .waiting else s
  | .advance i => s.advance source i
  | .look k =>
    let view := s.seen k ++ [s.resolver.latest.document.version]
    { s with seen := Function.update s.seen k view }

def after (s : State) (run : List Action) : State := run.foldl (act source) s

end

/-- A resolver with nothing going on. -/
def start (files : FileStore) (r : Resolver) : State := { files, resolver := r }

end State

namespace State

@[simp] theorem stage_enter_self (s : State) (i : ReloaderId) (stage : Stage) :
    (s.enter i stage).stage i = stage := Function.update_self ..

theorem stage_enter_ne (s : State) {i j : ReloaderId} (other : j ≠ i) (stage : Stage) :
    (s.enter i stage).stage j = s.stage j := Function.update_of_ne other ..

/-- What holds of one reloader in its new stage and of all others holds of each. -/
theorem forall_enter {P : ReloaderId → Stage → Prop} {s : State} {i : ReloaderId} {stage : Stage}
    (own : P i stage) (others : ∀ j, j ≠ i → P j (s.stage j)) :
    ∀ j, P j ((s.enter i stage).stage j) := by
  intro j
  by_cases same : j = i
  · rw [same, stage_enter_self]
    exact own
  · rw [stage_enter_ne s same]
    exact others j same

end State

/-! ## What every step keeps -/

section
variable (source : Source)

/-- The document that is the content of the file from now on, if the action makes it one. -/
def Action.content? : Action → Option Document
  | .replace files => (source.load files).toOption
  | _ => none

/-- The valid contents that the file has one after the other. -/
def contents (run : List Action) : List Document := run.filterMap (Action.content? source)

/-- The versions of successive valid contents never decrease. -/
def Ascending (top : Document) (run : List Action) : Prop :=
  (top :: contents source run).Pairwise fun c d => c.version ≤ d.version

/-- What holds of a reloader that has the lock, when `top` was the last valid content of the file.
What it has read is not older than the live document, which no one else replaces meanwhile. -/
def Fits (r : Resolver) (top : Document) : Stage → Prop
  | .read text => ∀ d, Document.parse source.format text = .ok d →
      r.version ≤ d.version ∧ d.version ≤ top.version
  | .checked d => r.version ≤ d.version ∧ d.version ≤ top.version
  | .swapped d => r.version = d.version
  | _ => True

/-- What every step keeps, when `top` was the last valid content of the file. -/
structure Sound (s : State) (top : Document) : Prop where
  content : ∀ d, source.load s.files = .ok d → d = top
  /-- At most one reloader has the lock. -/
  holder : ∀ i, (s.stage i).holds = true ↔ s.lock = some i
  fits : ∀ i, Fits source s.resolver top (s.stage i)
  live : s.resolver.version ≤ top.version
  /-- Subscribers are told after readers. -/
  latest : s.resolver.latest.document.version ≤ s.resolver.version
  seen : ∀ k, (s.seen k).Pairwise (· ≤ ·) ∧
    ∀ v ∈ s.seen k, v ≤ s.resolver.latest.document.version

theorem fits_of_not_holds {stage : Stage} (without : stage.holds = false) (r : Resolver)
    (top : Document) : Fits source r top stage := by
  cases stage with
  | read text => cases without
  | checked d => cases without
  | swapped d => cases without
  | _ => trivial

variable {source}

theorem Fits.mono {r : Resolver} {top last : Document} {stage : Stage}
    (fits : Fits source r top stage) (newer : top.version ≤ last.version) :
    Fits source r last stage := by
  cases stage with
  | read text =>
    intro d parsed
    exact (fits d parsed).imp_right fun below => Int64.le_trans below newer
  | checked d => exact fits.imp_right fun below => Int64.le_trans below newer
  | swapped d => exact fits
  | _ => trivial

theorem Ascending.cons {top : Document} {a : Action} {run : List Action}
    (ascending : Ascending source top (a :: run)) :
    top.version ≤ ((a.content? source).getD top).version ∧
      Ascending source ((a.content? source).getD top) run := by
  unfold Ascending contents at *
  cases content : a.content? source with
  | none =>
    rw [List.filterMap_cons_none content] at ascending
    exact ⟨Int64.le_refl _, ascending⟩
  | some d =>
    rw [List.filterMap_cons_some content] at ascending
    obtain ⟨first, later⟩ := List.pairwise_cons.1 ascending
    exact ⟨first d (List.mem_cons_self ..), later⟩

end

namespace Sound

variable {source : Source} {s : State} {top : Document} {i : ReloaderId}

theorem start {files : FileStore} {r : Resolver} (loaded : source.load files = .ok top)
    (live : r.live = top) (latest : r.latest.document = top) :
    Sound source (State.start files r) top where
  content d found := Except.ok.inj (found.symm.trans loaded)
  holder i := iff_of_false Bool.false_ne_true (Option.some_ne_none i).symm
  fits _ := trivial
  live := by
    show r.live.version ≤ top.version
    rw [live]
    exact Int64.le_refl _
  latest := by
    show r.latest.document.version ≤ r.live.version
    rw [latest, live]
    exact Int64.le_refl _
  seen _ := ⟨List.Pairwise.nil, List.forall_mem_nil _⟩

/-- Whoever else is under way has not got the lock. -/
theorem other (sound : Sound source s top) (held : s.lock = some i) {j : ReloaderId} (ne : j ≠ i) :
    (s.stage j).holds = false := by
  apply Bool.eq_false_iff.2
  rw [ne_eq, sound.holder j, held]
  exact fun same => ne (Option.some.inj same).symm

/-- A reloader that neither takes nor gives back the lock goes on. -/
theorem enter (sound : Sound source s top) {stage : Stage}
    (holds : stage.holds = (s.stage i).holds) (fits : Fits source s.resolver top stage) :
    Sound source (s.enter i stage) top where
  content := sound.content
  holder := State.forall_enter (P := fun j stage => stage.holds = true ↔ s.lock = some j)
    (by rw [holds, sound.holder i]) fun j _ => sound.holder j
  fits := State.forall_enter (P := fun _ => Fits source s.resolver top) fits fun j _ => sound.fits j
  live := sound.live
  latest := sound.latest
  seen := sound.seen

theorem acquire (sound : Sound source s top) (free : s.lock = none) :
    Sound source ({ s with lock := some i }.enter i .locked) top where
  content := sound.content
  holder := by
    refine State.forall_enter (P := fun j stage => stage.holds = true ↔ some i = some j)
      (iff_of_true rfl rfl) fun j other => ?_
    have without : ¬ (s.stage j).holds = true := by
      rw [sound.holder j, free]
      exact (Option.some_ne_none j).symm
    exact iff_of_false without fun held => other (Option.some.inj held).symm
  fits := State.forall_enter (P := fun _ => Fits source s.resolver top) trivial
    fun j _ => sound.fits j
  live := sound.live
  latest := sound.latest
  seen := sound.seen

theorem release (sound : Sound source s top) (held : s.lock = some i) {stage : Stage}
    (without : stage.holds = false) :
    Sound source ({ s with lock := none }.enter i stage) top where
  content := sound.content
  holder := State.forall_enter (P := fun j stage => stage.holds = true ↔ none = some j)
    (iff_of_false (Bool.eq_false_iff.1 without) (Option.some_ne_none i).symm)
    fun j other => iff_of_false (Bool.eq_false_iff.1 (sound.other held other))
      (Option.some_ne_none j).symm
  fits := State.forall_enter (P := fun _ => Fits source s.resolver top)
    (fits_of_not_holds source without _ _) fun j _ => sound.fits j
  live := sound.live
  latest := sound.latest
  seen := sound.seen

/-- The reloader with the lock changes the resolver. -/
theorem change (sound : Sound source s top) (held : s.lock = some i) {r : Resolver} {stage : Stage}
    (holds : stage.holds = true) (fits : Fits source r top stage) (live : r.version ≤ top.version)
    (latest : r.latest.document.version ≤ r.version)
    (onward : s.resolver.latest.document.version ≤ r.latest.document.version) :
    Sound source ({ s with resolver := r }.enter i stage) top where
  content := sound.content
  holder := State.forall_enter (P := fun j stage => stage.holds = true ↔ s.lock = some j)
    (iff_of_true holds held) fun j _ => sound.holder j
  fits := State.forall_enter (P := fun _ => Fits source r top) fits
    fun _ other => fits_of_not_holds source (sound.other held other) _ _
  live := live
  latest := latest
  seen k := by
    obtain ⟨ascending, below⟩ := sound.seen k
    exact ⟨ascending, fun v member => Int64.le_trans (below v member) onward⟩

theorem look (sound : Sound source s top) (k : SubscriberId) :
    Sound source (s.act source (.look k)) top where
  content := sound.content
  holder := sound.holder
  fits := sound.fits
  live := sound.live
  latest := sound.latest
  seen := by
    intro l
    obtain ⟨ascending, below⟩ := sound.seen l
    show ((Function.update s.seen k _ l).Pairwise (· ≤ ·)) ∧ ∀ v ∈ Function.update s.seen k _ l, _
    by_cases same : l = k
    · rw [same] at ascending below ⊢
      rw [Function.update_self]
      constructor
      · refine List.pairwise_append.2 ⟨ascending, List.pairwise_singleton .., ?_⟩
        intro v member w last
        rw [List.mem_singleton.1 last]
        exact below v member
      · intro v member
        rcases List.mem_append.1 member with early | last
        · exact below v early
        · rw [List.mem_singleton.1 last]
          exact Int64.le_refl _
    · rw [Function.update_of_ne same]
      exact ⟨ascending, below⟩

/-- The step of a reloader replaces the live document by one that is not older, if at all. -/
theorem advance (sound : Sound source s top) (i : ReloaderId) :
    Sound source (s.advance source i) top ∧
      s.resolver.version ≤ (s.advance source i).resolver.version := by
  have kept : s.resolver.version ≤ s.resolver.version := Int64.le_refl _
  have holder := sound.holder i
  have fits := sound.fits i
  unfold State.advance
  cases stage : s.stage i with
  | idle => exact ⟨sound, kept⟩
  | waiting =>
    simp only
    split
    · rename_i free
      exact ⟨sound.acquire (Option.isNone_iff_eq_none.1 free), kept⟩
    · exact ⟨sound, kept⟩
  | locked =>
    simp only
    split
    · rename_i text found
      refine ⟨sound.enter (by rw [stage]; rfl) fun d parsed => ?_, kept⟩
      rw [sound.content d ((Source.load_of_readText_ok found).trans parsed)]
      exact ⟨sound.live, Int64.le_refl _⟩
    · exact ⟨sound.enter (by rw [stage]; rfl) trivial, kept⟩
  | read text =>
    rw [stage] at fits
    simp only
    split
    · rename_i d parsed
      exact ⟨sound.enter (by rw [stage]; rfl) (fits d parsed), kept⟩
    · exact ⟨sound.enter (by rw [stage]; rfl) trivial, kept⟩
  | checked d =>
    rw [stage] at fits holder
    obtain ⟨newer, below⟩ := fits
    have latest := Int64.le_trans sound.latest newer
    exact ⟨sound.change (holder.1 rfl) rfl rfl below latest (Int64.le_refl _), newer⟩
  | swapped d =>
    rw [stage] at fits holder
    have same : s.resolver.version = d.version := fits
    have onward : s.resolver.latest.document.version ≤ d.version := by
      rw [← same]
      exact sound.latest
    have latest : d.version ≤ s.resolver.version := by
      rw [same]
      exact Int64.le_refl _
    exact ⟨sound.change (holder.1 rfl) rfl trivial sound.live latest onward, kept⟩
  | sent d =>
    rw [stage] at holder
    exact ⟨sound.release (holder.1 rfl) rfl, kept⟩
  | failed fault =>
    rw [stage] at holder
    exact ⟨sound.release (holder.1 rfl) rfl, kept⟩
  | announcing d => exact ⟨sound.enter (by rw [stage]; rfl) trivial, kept⟩
  | answered answer => exact ⟨sound, kept⟩

/-- Any step; `top` is the last valid content of the file before it. -/
theorem act (sound : Sound source s top) {a : Action}
    (ascending : top.version ≤ ((a.content? source).getD top).version) :
    Sound source (s.act source a) ((a.content? source).getD top) ∧
      s.resolver.version ≤ (s.act source a).resolver.version := by
  cases a with
  | replace files =>
    refine ⟨?_, Int64.le_refl _⟩
    constructor
    case content =>
      intro d loaded
      have loaded : source.load files = .ok d := loaded
      rw [Action.content?, loaded]
      rfl
    case holder => exact sound.holder
    case fits =>
      intro i
      exact (sound.fits i).mono ascending
    case live => exact Int64.le_trans sound.live ascending
    case latest => exact sound.latest
    case seen => exact sound.seen
  | call i =>
    refine ⟨?_, ?_⟩
    · show Sound source (if (s.stage i).isOver then s.enter i .waiting else s) top
      split
      · rename_i ended
        exact sound.enter (Stage.holds_of_isOver ended).symm trivial
      · exact sound
    · show _ ≤ (if (s.stage i).isOver then s.enter i .waiting else s).resolver.version
      split <;> exact Int64.le_refl _
  | advance i => exact sound.advance i
  | look k => exact ⟨sound.look k, Int64.le_refl _⟩

/-- After any steps the successive contents that follow do not go back either. -/
theorem after {before later : List Action} (sound : Sound source s top)
    (ascending : Ascending source top (before ++ later)) :
    ∃ last, Sound source (s.after source before) last ∧ Ascending source last later ∧
      s.resolver.version ≤ (s.after source before).resolver.version := by
  induction before generalizing s top with
  | nil => exact ⟨top, sound, ascending, Int64.le_refl _⟩
  | cons a before ih =>
    obtain ⟨now, following⟩ := ascending.cons
    obtain ⟨next, onward⟩ := sound.act now
    obtain ⟨last, reached, rest, further⟩ := ih next following
    exact ⟨last, reached, rest, Int64.le_trans onward further⟩

theorem whole {run : List Action} (sound : Sound source s top)
    (ascending : Ascending source top run) : ∃ last, Sound source (s.after source run) last := by
  rw [← List.append_nil run] at ascending
  obtain ⟨last, reached, -⟩ := sound.after ascending
  exact ⟨last, reached⟩

end Sound

end Interleaving
end LayeredSettings
