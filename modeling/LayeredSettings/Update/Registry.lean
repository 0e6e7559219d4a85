import LayeredSettings.Update.Script

/-!
Registries of callbacks.

A registry is a list of slots. A handle is the index of a slot; cancelling empties the slot and
moves no other one, so handles stay valid and are never given out twice.
-/

namespace LayeredSettings

/-- Identifies a callback by the order in which callbacks came about. -/
abbrev CallbackId := Nat

structure Registry where
  slots : List (Option CallbackId) := []
  deriving DecidableEq

namespace Registry

def size (r : Registry) : Nat := r.slots.length

/-- The new handle is the former size. -/
def register (r : Registry) (callback : CallbackId) : Registry := ⟨r.slots ++ [some callback]⟩

def cancel (r : Registry) (handle : Nat) : Registry := ⟨r.slots.set handle none⟩

/-- The callbacks that are not cancelled, with their handles. -/
def live (r : Registry) : List (Nat × CallbackId) :=
  r.slots.zipIdx.filterMap fun (slot, handle) => slot.map (handle, ·)

/-- What a registry looks like to someone who inspects it. -/
def description (r : Registry) : String :=
  "CallbackRegistry \x7b slots: " ++ toString r.size ++ " \x7d"

@[simp] theorem size_register (r : Registry) (callback : CallbackId) :
    (r.register callback).size = r.size + 1 := by simp [register, size]

@[simp] theorem size_cancel (r : Registry) (handle : Nat) : (r.cancel handle).size = r.size := by
  simp [cancel, size]

theorem mem_live {r : Registry} {handle : Nat} {callback : CallbackId} :
    (handle, callback) ∈ r.live ↔ r.slots[handle]? = some (some callback) := by
  simp only [live, List.mem_filterMap, Prod.exists, Option.map_eq_some_iff, Prod.mk.injEq]
  constructor
  · rintro ⟨slot, i, hmem, c, rfl, rfl, rfl⟩
    exact List.mem_zipIdx_iff_getElem?.1 hmem
  · intro h
    exact ⟨some callback, handle, List.mem_zipIdx_iff_getElem?.2 h, callback, rfl, rfl, rfl⟩

end Registry
end LayeredSettings
