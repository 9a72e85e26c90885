import KeyedRelations.Entity
import Mathlib.Logic.Function.Basic

/-!
# Names and natural keys

The natural key of a record is its name without the entity's prefix, and putting the prefix
back gives the name.
-/

namespace KeyedRelations.Entity

@[simp]
theorem naturalKey_recordName (e : Entity) (key : String) :
    e.naturalKey (e.recordName key) = key := by
  simp [naturalKey, recordName]

/-- Different keys have different names. -/
theorem recordName_injective (e : Entity) : Function.Injective e.recordName :=
  Function.LeftInverse.injective e.naturalKey_recordName

/-- Names behind the prefix are those of their natural keys. -/
theorem map_recordName_naturalKey {e : Entity} {names : List String}
    (h : ∀ name ∈ names, ∃ key, name = e.recordName key) :
    (names.map e.naturalKey).map e.recordName = names := by
  rw [List.map_map]
  refine (List.map_congr_left fun name hname => ?_).trans (List.map_id _)
  obtain ⟨key, rfl⟩ := h name hname
  simp

end KeyedRelations.Entity
