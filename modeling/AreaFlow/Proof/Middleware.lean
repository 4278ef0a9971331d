import AreaFlow.Construction.Api.AuthHandlers

namespace AreaFlow.Api
open Go Auth

/-- Finding out who sends a request touches nothing but the sessions. -/
theorem identify_frame (server : Server) (db : Identity) (now : Time) (r : Request) :
    ∃ sessions, (identify server db now r).2 = { db with sessions := sessions } := by
  unfold identify
  split
  · split
    · exact ⟨_, rfl⟩
    · split <;> exact ⟨_, rfl⟩
  · split
    · split
      · exact ⟨_, rfl⟩
      · split
        · exact ⟨_, rfl⟩
        · rename_i cookie _
          split
          · exact ⟨_, rfl⟩
          · rename_i principal db' authenticated
            have touched : ∃ sessions, db' = { db with sessions := sessions } := by
              unfold authenticateSession at authenticated
              simp only [Option.bind_eq_some_iff] at authenticated
              obtain ⟨_, _, row, _, user, _, accepted⟩ := authenticated
              split at accepted
              · cases accepted
                exact ⟨_, rfl⟩
              · cases accepted
            obtain ⟨sessions, rfl⟩ := touched
            split <;> exact ⟨_, rfl⟩
    · exact ⟨_, rfl⟩

/-- The middleware touches nothing but the sessions. -/
theorem authMiddleware_frame (server : Server) (db : Identity) (now : Time) (r : Request) :
    ∃ sessions, (authMiddleware server db now r).2 = { db with sessions := sessions } := by
  unfold authMiddleware
  split
  · exact ⟨_, rfl⟩
  · split
    · exact ⟨_, rfl⟩
    · have framed := identify_frame server db now r
      split <;> rename_i identified <;> rw [identified] at framed <;> exact framed

section Bearer

/-- This raw token has the form of a service token. -/
def bearerKey : GoString := List.replicate 24 48

def bearerRaw : GoString := bytes "af_" ++ bearerKey ++ bytes "_" ++ List.replicate 43 65

/-- This server knows tokens only and decodes every body to the given requests. -/
def bearerServer (token : Option TokenRequest) (binding : Option RoleBindingRequest) : Server where
  authConfig := .token
  tokenMaxTTL := maxTokenTTL
  codec := sampleCodec
  parseTime := fun _ => some 1
  decodeTokenRequest := fun _ => token
  decodeRoleBindingRequest := fun _ => binding

/-- This is the stored row of the raw token with a scope. -/
def bearerRow (projects capabilities : List GoString) : TokenRow where
  id := 1
  actorID := none
  tokenKey := bearerKey
  tokenHash := Json.digest bearerRaw
  projects := projects
  capabilities := capabilities
  status := .active
  expiresAt := none
  createdByActorID := none
  rotatedFromTokenID := none
  reason := []
  createdAt := 0
  revokedAt := none

/-- This is the principal that the raw token stands for. -/
def bearerPrincipal (projects capabilities : List GoString) : Principal where
  tokenID := 1
  tokenKey := bearerKey
  actor := bytes "token-user"
  authMode := .token
  projects := projects
  capabilities := capabilities
  scopeHash := Json.digest (sampleScope projects capabilities)

/-- This request carries the raw token. -/
def bearerRequest (method : Method) (url : URL) : Request where
  method := method
  url := url
  authorization := bytes "Bearer " ++ bearerRaw

end Bearer

end AreaFlow.Api
