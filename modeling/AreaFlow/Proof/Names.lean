import AreaFlow.Proof.Actors

namespace AreaFlow.Auth
open Go

section Users

/-- An upserted user row has the identifier of its old row and the actor of the upsert or of its old row. -/
theorem upsertUser_cases (users : List UserRow) (actorID : ID) (email : Option GoString)
    (displayName externalKey : GoString) :
    (∃ existing, upsertUser users actorID email displayName externalKey =
      (users.map fun row =>
        if row.actorID = some actorID then
          { row with email := email, displayName := displayName, status := bytes "active" }
        else row, existing)) ∨
    upsertUser users actorID email displayName externalKey =
      (users ++ [{ id := freshID (users.map (·.id)), actorID := some actorID, email := email,
                   displayName := displayName, externalKey := some externalKey, status := bytes "active" }],
        freshID (users.map (·.id))) := by
  unfold upsertUser
  split
  · exact Or.inl ⟨_, rfl⟩
  · exact Or.inr rfl

/-- Every row after an upsert has the actor of the upsert or that of an old row. -/
theorem upsertUser_actor {users : List UserRow} {actorID : ID} {email : Option GoString}
    {displayName externalKey : GoString} {user : UserRow}
    (member : user ∈ (upsertUser users actorID email displayName externalKey).1) :
    user.actorID = some actorID ∨ ∃ old ∈ users, user.actorID = old.actorID := by
  rcases upsertUser_cases users actorID email displayName externalKey with ⟨existing, shape⟩ | shape
  · rw [shape] at member
    obtain ⟨old, present, rfl⟩ := List.mem_map.mp member
    refine Or.inr ⟨old, present, ?_⟩
    split <;> rfl
  · rw [shape] at member
    rcases List.mem_append.mp member with old | last
    · exact Or.inr ⟨user, old, rfl⟩
    · rw [List.mem_singleton.mp last]
      exact Or.inl rfl

end Users

end AreaFlow.Auth
