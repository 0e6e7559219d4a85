import LayeredSettings.Proofs.Program.Matching

/-!
What callbacks and reloads do not depend on.

Neither of them reads a watch or what has occurred so far. So they do the same whatever watches
there are and whatever has occurred, and add the same to it.
-/

namespace LayeredSettings.Program

/-- A program in place of another one: among its watches, and after all that has occurred to it. -/
def around (base p : Program) : Program :=
  { p with watches := base.watches, history := p.history ++ base.history }

/-- A program without its watches and without what has occurred to it. -/
def bare (p : Program) : Program := { p with watches := [], history := [] }

variable (base : Program)

theorem publish_around (p : Program) (i : ResolverId) (d : Document) :
    (around base p).publish i d = around base (p.publish i d) := by
  unfold publish
  have hresolvers : (around base p).resolvers = p.resolvers := rfl
  rw [hresolvers]
  split <;> rfl

theorem reloadDocument_around (p : Program) (i : ResolverId) :
    (around base p).reloadDocument i =
      (around base (p.reloadDocument i).1, (p.reloadDocument i).2) := by
  unfold reloadDocument
  have hresolvers : (around base p).resolvers = p.resolvers := rfl
  have hfiles : (around base p).files = p.files := rfl
  rw [hresolvers, hfiles]
  split
  · rfl
  · split
    · rfl
    · split
      · rfl
      · simp only [publish_around]

theorem register_around (p : Program) (owner : Owner) (callback : Callback) :
    (around base p).register owner callback =
      (around base (p.register owner callback).1, (p.register owner callback).2) := by
  cases owner <;> rfl

theorem cancel_around (p : Program) (owner : Owner) (handle : Nat) :
    (around base p).cancel owner handle = around base (p.cancel owner handle) := by
  cases owner <;> rfl

theorem rebind_around (p : Program) (change : Rebinding) :
    (around base p).rebind change = around base (p.rebind change) := by
  have reached (settings : Access) : (around base p).reached settings = p.reached settings := by
    cases settings <;> rfl
  cases change with
  | clone settings copy =>
    simp only [rebind, reached]
    cases p.reached settings <;> rfl
  | drop name => rfl
  | install settings =>
    simp only [rebind, reached]
    cases p.reached settings <;> rfl
  | uninstall => rfl

theorem matching_around : Matching fun p q => q = around base p where
  settings related := related ▸ rfl
  registries related := related ▸ rfl
  handles related := related ▸ rfl
  version related _ := related ▸ rfl
  registry related owner := by cases owner <;> exact related ▸ rfl
  callbacks related := related ▸ rfl
  began related := related ▸ rfl
  note related _ := related ▸ rfl
  mark related _ := related ▸ rfl
  enter related _ _ := related ▸ rfl
  register related owner callback :=
    related ▸ congrArg Prod.fst (register_around base _ owner callback)
  cancel related owner handle := related ▸ cancel_around base _ owner handle
  rebind related change := related ▸ rebind_around base _ change
  reload related i := by
    rw [related, reloadDocument_around]
    exact ⟨rfl, rfl⟩

theorem reload_around (p : Program) (i : ResolverId) :
    (around base p).reload i = (around base (p.reload i).1, (p.reload i).2) := by
  obtain ⟨rest, answer⟩ := (matching_around base).reloaded rfl i
  exact Prod.ext rest answer

theorem bare_endTask (p : Program) (w : WatchId) : (p.endTask w).bare = p.bare := by
  unfold endTask
  split
  · split <;> rfl
  · rfl

theorem files_endTask (p : Program) (w : WatchId) : (p.endTask w).files = p.files := by
  have hbare := congrArg files (p.bare_endTask w)
  exact hbare

theorem resolvers_endTask (p : Program) (w : WatchId) : (p.endTask w).resolvers = p.resolvers := by
  have hbare := congrArg resolvers (p.bare_endTask w)
  exact hbare

/-- A reload depends on nothing but what is left of a program without watches and history. -/
theorem reload_eq_around_bare (p : Program) (i : ResolverId) :
    p.reload i = (p.around (p.bare.reload i).1, (p.bare.reload i).2) :=
  reload_around p p.bare i

end LayeredSettings.Program
