import AreaFlow.Library.Tables
import AreaFlow.Proof.Tokens

namespace AreaFlow.Auth
open Go

/-- This is a row after an upsert with a key and a name. -/
def renamedActor (externalKey displayName : GoString) (row : ActorRow) : ActorRow :=
  if row.externalKey = some externalKey then { row with displayName := displayName } else row

theorem renamedActor_id (externalKey displayName : GoString) (row : ActorRow) :
    (renamedActor externalKey displayName row).id = row.id := by
  unfold renamedActor
  split <;> rfl

section Upsert

variable {actors : List ActorRow} {kind : ActorKind} {displayName externalKey : GoString}

/-- An upsert renames the actor that has the key, or appends one that has it. -/
theorem upsertActor_cases (actors : List ActorRow) (kind : ActorKind) (displayName externalKey : GoString) :
    (∃ existing, actors.find? (fun row => row.externalKey == some externalKey) = some existing ∧
      upsertActor actors kind displayName externalKey =
        (actors.map (renamedActor externalKey displayName), existing.id)) ∨
    ((∀ row ∈ actors, row.externalKey ≠ some externalKey) ∧
      upsertActor actors kind displayName externalKey =
        (actors ++ [{ id := freshID (actors.map (·.id)), kind := kind, displayName := displayName,
                      externalKey := some externalKey }], freshID (actors.map (·.id)))) := by
  unfold upsertActor
  split
  · rename_i existing found
    exact Or.inl ⟨existing, found, rfl⟩
  · rename_i absent
    refine Or.inr ⟨fun row member same => ?_, rfl⟩
    have differs := List.find?_eq_none.mp absent row member
    exact differs (by simp [same])

end Upsert

end AreaFlow.Auth
