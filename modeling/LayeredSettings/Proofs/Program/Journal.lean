import LayeredSettings.Program.Basic

/-!
What the marks of a program say about its callbacks, and how a list of marks grows.

A round is known by the place of the mark with which it began. While the list of marks grows, a
round that is over stays as it is.
-/

namespace LayeredSettings

namespace Mark

/-- The handle and the callback that were registered, for registrations of an owner. -/
def registered? (owner : Owner) : Mark → Option (Nat × CallbackId)
  | .registered o handle c => if o = owner then some (handle, c) else none
  | _ => none

def new? : Mark → Option CallbackId
  | .registered _ _ c => some c
  | _ => none

/-- The round that a mark is about. The mark with which it began stands for none. -/
def round? : Mark → Option Nat
  | .called k _ _ => some k
  | .completed k _ => some k
  | .ended k _ => some k
  | _ => none

def called? : Mark → Option (Nat × CallbackId)
  | .called _ handle c => some (handle, c)
  | _ => none

def completed? : Mark → Option Nat
  | .completed _ handle => some handle
  | _ => none

def ended? : Mark → Option Nat
  | .ended _ n => some n
  | _ => none

def calls (c : CallbackId) : Mark → Bool
  | .called _ _ d => d = c
  | .calledAtOnce d => d = c
  | _ => false

end Mark

def marksOf (round : Nat) (marks : List Mark) : List Mark :=
  marks.filter (·.round? = some round)

def callsOf (round : Nat) (marks : List Mark) : List (Nat × CallbackId) :=
  (marksOf round marks).filterMap Mark.called?

def completionsOf (round : Nat) (marks : List Mark) : List Nat :=
  (marksOf round marks).filterMap Mark.completed?

@[simp] theorem marksOf_append (round : Nat) (marks new : List Mark) :
    marksOf round (marks ++ new) = marksOf round marks ++ marksOf round new := List.filter_append ..

theorem marksOf_eq_nil {round : Nat} {marks : List Mark}
    (h : ∀ m ∈ marks, m.round? ≠ some round) : marksOf round marks = [] := by
  rw [marksOf, List.filter_eq_nil_iff]
  intro m member
  simpa using h m member

/-- A slot is live: its callback was registered, and not cancelled since then. -/
def LiveIn (marks : List Mark) (owner : Owner) (handle : Nat) (c : CallbackId) : Prop :=
  ∃ before after, marks = before ++ .registered owner handle c :: after ∧
    .cancelled owner handle ∉ after

theorem liveIn_concat {marks : List Mark} {m : Mark} {owner : Owner} {handle : Nat}
    {c : CallbackId} :
    LiveIn (marks ++ [m]) owner handle c ↔
      m = .registered owner handle c ∨
        LiveIn marks owner handle c ∧ m ≠ .cancelled owner handle := by
  constructor
  · rintro ⟨before, after, heq, hnot⟩
    rcases List.eq_nil_or_concat after with rfl | ⟨after, last, rfl⟩
    · obtain ⟨-, hlast⟩ := List.append_inj' heq rfl
      exact .inl (List.cons.inj hlast).1
    · rw [List.concat_eq_append] at heq hnot
      rw [← List.cons_append, ← List.append_assoc] at heq
      obtain ⟨rfl, hlast⟩ := List.append_inj' heq rfl
      obtain rfl := (List.cons.inj hlast).1
      rw [List.mem_append, List.mem_singleton, not_or] at hnot
      exact .inr ⟨⟨before, after, rfl, hnot.1⟩, Ne.symm hnot.2⟩
  · rintro (rfl | ⟨⟨before, after, rfl, hnot⟩, hne⟩)
    · exact ⟨marks, [], rfl, List.not_mem_nil⟩
    · refine ⟨before, after ++ [m], by simp, ?_⟩
      rw [List.mem_append, List.mem_singleton, not_or]
      exact ⟨hnot, Ne.symm hne⟩

theorem getElem?_concat_of_some {marks : List Mark} {n : Nat} {m : Mark} (new : Mark)
    (h : marks[n]? = some m) : (marks ++ [new])[n]? = some m := by
  obtain ⟨hn, -⟩ := List.getElem?_eq_some_iff.1 h
  exact (List.getElem?_append_left hn).trans h

/-- A callback is called at once only as the first thing after its registration, and what is said of
a round is said after it began. -/
structure Orderly (marks : List Mark) : Prop where
  atOnce : ∀ {n : Nat} {c : CallbackId}, marks[n]? = some (.calledAtOnce c) →
    ∃ m owner handle, n = m + 1 ∧ marks[m]? = some (.registered owner handle c)
  begun : ∀ m ∈ marks, ∀ round, m.round? = some round →
    ∃ owner, marks[round]? = some (.began owner)

theorem Orderly.concat {marks : List Mark} (h : Orderly marks) {m : Mark}
    (hatOnce : ∀ c, m = .calledAtOnce c → ∃ n owner handle, marks.length = n + 1 ∧
      marks[n]? = some (.registered owner handle c))
    (hbegun : ∀ round, m.round? = some round → ∃ owner, marks[round]? = some (.began owner)) :
    Orderly (marks ++ [m]) := by
  constructor
  case atOnce =>
    intro n c hn
    rcases Nat.lt_or_ge n marks.length with hlt | hge
    · rw [List.getElem?_append_left hlt] at hn
      obtain ⟨k, owner, handle, hk, hregistered⟩ := h.atOnce hn
      exact ⟨k, owner, handle, hk, getElem?_concat_of_some m hregistered⟩
    · rw [List.getElem?_append_right hge, List.getElem?_singleton] at hn
      split at hn
      · rename_i hzero
        obtain ⟨k, owner, handle, hk, hregistered⟩ := hatOnce c (Option.some.inj hn)
        refine ⟨k, owner, handle, ?_, getElem?_concat_of_some m hregistered⟩
        rw [← hk]
        exact Nat.le_antisymm (Nat.le_of_sub_eq_zero hzero) hge
      · cases hn
  case begun =>
    intro m' member round hround
    have hbefore : ∃ owner, marks[round]? = some (.began owner) := by
      rcases List.mem_append.1 member with member | member
      · exact h.begun m' member round hround
      · rw [List.mem_singleton.1 member] at hround
        exact hbegun round hround
    obtain ⟨owner, hbegan⟩ := hbefore
    exact ⟨owner, getElem?_concat_of_some m hbegan⟩

theorem Orderly.marksOf_eq_nil {marks : List Mark} (h : Orderly marks) :
    marksOf marks.length marks = [] := by
  refine LayeredSettings.marksOf_eq_nil fun m member hround => ?_
  obtain ⟨owner, hbegan⟩ := h.begun m member _ hround
  rw [List.getElem?_eq_none (Nat.le_refl _)] at hbegan
  cases hbegan

/-- A round of an owner is over: it has called what was live when it began, each slot once and in
the order of handles, and has counted which callbacks completed. -/
structure RoundDone (marks : List Mark) (round : Nat) (owner : Owner) : Prop where
  mem_calls : ∀ {handle : Nat} {c : CallbackId},
    (handle, c) ∈ callsOf round marks ↔ LiveIn (marks.take round) owner handle c
  increasing : ((callsOf round marks).map Prod.fst).Pairwise (· < ·)
  completed : (completionsOf round marks).Sublist ((callsOf round marks).map Prod.fst)
  ended : (marksOf round marks).filterMap Mark.ended? = [(completionsOf round marks).length]

theorem RoundDone.append {marks new : List Mark} {round : Nat} {owner : Owner}
    (h : RoundDone marks round owner) (hround : round ≤ marks.length)
    (hnew : ∀ m ∈ new, m.round? ≠ some round) : RoundDone (marks ++ new) round owner := by
  have hmarks : marksOf round (marks ++ new) = marksOf round marks := by
    rw [marksOf_append, marksOf_eq_nil hnew, List.append_nil]
  have hcalls : callsOf round (marks ++ new) = callsOf round marks := by
    rw [callsOf, hmarks, callsOf]
  have hcompletions : completionsOf round (marks ++ new) = completionsOf round marks := by
    rw [completionsOf, hmarks, completionsOf]
  constructor
  · rw [hcalls, List.take_append_of_le_length hround]
    exact h.mem_calls
  · rw [hcalls]
    exact h.increasing
  · rw [hcalls, hcompletions]
    exact h.completed
  · rw [hmarks, hcompletions]
    exact h.ended

/-- Marks have been added. What they say of earlier rounds is about those that were going on, and
the rounds that began meanwhile are over. -/
structure Grown (ongoing : Nat → Prop) (marks later : List Mark) : Prop where
  added : ∃ new, later = marks ++ new ∧
    ∀ m ∈ new, ∀ round, m.round? = some round → marks.length ≤ round ∨ ongoing round
  done : ∀ {round : Nat} {owner : Owner}, marks.length ≤ round →
    later[round]? = some (.began owner) → RoundDone later round owner

namespace Grown

variable {ongoing : Nat → Prop} {marks later : List Mark}

theorem refl (ongoing : Nat → Prop) (marks : List Mark) : Grown ongoing marks marks where
  added := ⟨[], by simp⟩
  done hround hbegan := by
    rw [List.getElem?_eq_none hround] at hbegan
    cases hbegan

theorem length_le (h : Grown ongoing marks later) : marks.length ≤ later.length := by
  obtain ⟨new, rfl, -⟩ := h.added
  simp

theorem getElem?_eq_some (h : Grown ongoing marks later) {n : Nat} {m : Mark}
    (hm : marks[n]? = some m) : later[n]? = some m := by
  obtain ⟨new, rfl, -⟩ := h.added
  obtain ⟨hn, -⟩ := List.getElem?_eq_some_iff.1 hm
  exact (List.getElem?_append_left hn).trans hm

theorem mono (h : Grown ongoing marks later) {more : Nat → Prop}
    (hmore : ∀ round, ongoing round → more round) : Grown more marks later where
  added := by
    obtain ⟨new, heq, hnew⟩ := h.added
    exact ⟨new, heq, fun m member round hround => (hnew m member round hround).imp_right (hmore _)⟩
  done := h.done

theorem trans {last : List Mark} (h : Grown ongoing marks later) (h' : Grown ongoing later last)
    (hongoing : ∀ round, ongoing round → round < marks.length) : Grown ongoing marks last := by
  obtain ⟨new, rfl, hnew⟩ := h.added
  obtain ⟨new', rfl, hnew'⟩ := h'.added
  refine ⟨⟨new ++ new', List.append_assoc marks new new', ?_⟩, ?done⟩
  · intro m member round hround
    rcases List.mem_append.1 member with member | member
    · exact hnew m member round hround
    · rw [List.length_append] at hnew'
      exact (hnew' m member round hround).imp_left Nat.le_of_add_right_le
  case done =>
    intro round owner hround hbegan
    rcases Nat.lt_or_ge round (marks ++ new).length with hlt | hge
    · -- A round that began before is not added to.
      rw [List.getElem?_append_left hlt] at hbegan
      refine (h.done hround hbegan).append (Nat.le_of_lt hlt) fun m member hsame => ?_
      rcases hnew' m member round hsame with hle | hon
      · exact absurd hlt (Nat.not_lt.2 hle)
      · exact absurd (hongoing round hon) (Nat.not_lt.2 hround)
    · exact h'.done hge hbegan

theorem marksOf_eq (h : Grown ongoing marks later) {round : Nat} (hround : round < marks.length)
    (hnot : ¬ ongoing round) : marksOf round later = marksOf round marks := by
  obtain ⟨new, rfl, hnew⟩ := h.added
  have hnone : marksOf round new = [] := by
    refine marksOf_eq_nil fun m member hsame => ?_
    rcases hnew m member round hsame with hle | hongoing
    · exact Nat.not_lt.2 hle hround
    · exact hnot hongoing
  rw [marksOf_append, hnone, List.append_nil]

theorem concat (marks : List Mark) {m : Mark} (hbegan : ∀ owner, m ≠ .began owner)
    (hround : ∀ round, m.round? = some round → ongoing round) :
    Grown ongoing marks (marks ++ [m]) where
  added := ⟨[m], rfl, fun m' member round h => by
    obtain rfl := List.mem_singleton.1 member
    exact .inr (hround round h)⟩
  done {round owner} hle h := by
    rw [List.getElem?_append_right hle] at h
    exact absurd (List.mem_singleton.1 (List.mem_of_getElem? h)).symm (hbegan owner)

/-- A round that began and is over was the only one that was going on. -/
theorem of_began {owner : Owner} (h : Grown (· = marks.length) (marks ++ [.began owner]) later)
    (ended : RoundDone later marks.length owner) : Grown (fun _ => False) marks later where
  added := by
    obtain ⟨new, rfl, hnew⟩ := h.added
    refine ⟨.began owner :: new, List.append_assoc .., fun m member round hround => .inl ?_⟩
    rcases List.mem_cons.1 member with rfl | member
    · cases hround
    · rcases hnew m member round hround with hle | rfl
      · rw [List.length_append] at hle
        exact Nat.le_of_add_right_le hle
      · exact Nat.le_refl _
  done := by
    intro round other hle hbegan
    by_cases hsame : round = marks.length
    · subst hsame
      have hown : later[marks.length]? = some (.began owner) := h.getElem?_eq_some (by simp)
      rw [hown] at hbegan
      cases hbegan
      exact ended
    · -- A round inside of this one.
      have hlater : (marks ++ [Mark.began owner]).length ≤ round := by
        rw [List.length_append]
        exact Nat.lt_of_le_of_ne hle (Ne.symm hsame)
      exact h.done hlater hbegan

end Grown
end LayeredSettings
