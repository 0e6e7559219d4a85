import LayeredSettings.Proofs.Program.Compliance

/-!
What runs keep whose steps keep to some terms.

Such a run consists of operations that the terms allow, so whatever each of these keeps is kept by
the run.
-/

namespace LayeredSettings

open Program

variable {α : Type} {C : Terms} {s : Scene}

/-! ## One process after another -/

namespace Process

/-- What all operations keep that are allowed, a process keeps that nothing interrupts. -/
theorem Goes.finish {I : Program → Prop}
    (each : ∀ {t op}, C.Ok t → I t.program → C.Allows t op → I (op.effect t.program))
    {hand : List ResolverId} {x : Process α} (goes : Goes C hand x s) (ok : C.Ok s)
    (now : I s.program) : ∃ t, t.program = (x.finish s.program).1 ∧ C.Ok t ∧ I t.program := by
  induction x generalizing s with
  | ended a => exact ⟨s, rfl, ok, now⟩
  | step rounds held op next ih =>
    obtain ⟨-, allowed, -, further⟩ := goes s ok (.refl s)
    obtain ⟨-, -, rest⟩ := further s.program.inUse fun i inUse => .inl inUse
    exact ih _ _ rest (Terms.ok_step ok allowed) (each ok now allowed)

end Process

/-! ## Runs -/

namespace Terms

/-- What all operations keep that are allowed, a run keeps whose steps are admitted. -/
theorem ok_after {I : Program → Prop}
    (each : ∀ {t op}, C.Ok t → I t.program → C.Allows t op → I (op.effect t.program))
    (ok : C.Ok s) (now : I s.program) (run : List Action) (admitted : ∀ a ∈ run, C.Admits a) :
    ∃ t, t.program = s.program.after run ∧ C.Ok t ∧ I t.program := by
  induction run generalizing s with
  | nil => exact ⟨s, rfl, ok, now⟩
  | cons a run ih =>
    obtain ⟨first, later⟩ := List.forall_mem_cons.1 admitted
    obtain ⟨t, finished, ok', now'⟩ := (Process.keeps_ofAction first).goes.finish each ok now
    rw [Process.finish_ofAction] at finished
    obtain ⟨u, rest, done⟩ := ih ok' now' later
    exact ⟨u, by rw [rest, finished, after_cons], done⟩

/-- What waits for the dispatchers. -/
def waiting (p : Program) : List (ResolverId × Publication) :=
  p.watches.flatMap fun watch => watch.published.map (watch.resolver, ·)

/-- What has to be known of a program for runs from there to keep to the terms. -/
theorem ok_of_recorded {p : Program} (recorded : p.Recorded) (refers : C.refers p)
    (tame : ∀ owner, C.owners owner → ∀ slot ∈ (p.registry owner).live, ∀ called,
      p.callbacks[slot.2]? = some called → C.Tame called.callback)
    (watched : ∀ {w watch}, C.watches w → p.watches[w]? = some watch →
      p.inUse watch.resolver = true → C.owners (.resolver watch.resolver))
    (current : ∀ {i r w}, C.owners (.resolver i) → p.resolvers[i]? = some r →
      r.watch = .watching w → C.watches w) : C.Ok ⟨p, waiting p⟩ where
  refers := refers
  known owner own slot member := by
    have exist := recorded.known_of_live member
    have found := List.getElem?_eq_getElem exist
    obtain ⟨before, after, marks, -⟩ := recorded.slots.1 (Registry.mem_live.1 member)
    have registered : .registered owner slot.1 slot.2 ∈ p.journal := by
      refine List.mem_reverse.1 ?_
      show _ ∈ p.trace
      rw [marks]
      exact List.mem_append_right _ (List.mem_cons_self ..)
    exact ⟨_, slot.1, found, tame owner own slot member _ found, registered⟩
  queued {w watch} found published member :=
    List.mem_flatMap.2 ⟨watch, List.mem_of_getElem? found, List.mem_map.2 ⟨published, member, rfl⟩⟩
  watched := watched
  current := current
  ids := recorded.ids

end Terms
end LayeredSettings
