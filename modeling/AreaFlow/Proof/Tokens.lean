import AreaFlow.Library.Run
import AreaFlow.Proof.Middleware

namespace AreaFlow.Auth
open Go

@[simp] theorem tokenActors_tokens (db : Identity) (options : CreateTokenOptions) :
    (tokenActors db options).1.tokens = db.tokens := by
  unfold tokenActors
  dsimp only
  split <;> rfl

/-- The actors of a new token do not depend on the sessions. -/
theorem tokenActors_sessions (db : Identity) (sessions : List SessionRow) (options : CreateTokenOptions) :
    tokenActors { db with sessions := sessions } options =
      ({ (tokenActors db options).1 with sessions := sessions }, (tokenActors db options).2) := by
  unfold tokenActors
  dsimp only
  split <;> rfl

theorem newTokenRow_sessions (codec : Codec) (db : Identity) (sessions : List SessionRow) (now : Time)
    (parts : TokenParts) (options : CreateTokenOptions) (expiresAt : Time) :
    newTokenRow codec { db with sessions := sessions } now parts options expiresAt =
      newTokenRow codec db now parts options expiresAt := by
  simp only [newTokenRow, tokenActors_sessions]

/-- A checked token asks for at least one project and one capability. -/
theorem checkToken_ok {ttl : Nat} {db : Identity} {now expiresAt : Time} {parts : TokenParts}
    {options : CreateTokenOptions} (ok : checkToken ttl db now parts options = .ok expiresAt) :
    normalize options.projects ≠ [] ∧ normalize options.capabilities ≠ [] := by
  unfold checkToken at ok
  split at ok
  · cases ok
  · split at ok
    · cases ok
    · rename_i named
      exact not_or.mp named

/-- A request on the tokens keeps them, revokes one of them, or stores a new one. -/
inductive TokenEffect (codec : Codec) (db : Identity) (now : Time) (parts : TokenParts)
    (created : CreateTokenOptions → Time → Prop) (after : Identity) : Prop where
  | kept (actors : after.actors = db.actors) (tokens : after.tokens = db.tokens)
  | revoked (actor tokenKey : GoString) (actors : after.actors = (ensureActor db actor).1.actors)
      (tokens : after.tokens = db.tokens.map (revokedToken now tokenKey))
  | minted (options : CreateTokenOptions) (expiresAt : Time) (checked : created options expiresAt)
      (actors : after.actors = (tokenActors db options).1.actors)
      (tokens : after.tokens = db.tokens ++ [newTokenRow codec db now parts options expiresAt])

/-- A created token is the checked row of its options, stored last. -/
theorem createToken_ok {codec : Codec} {ttl : Nat} {db db' : Identity} {now : Time} {parts : TokenParts}
    {options : CreateTokenOptions} {created : CreatedToken}
    (ok : createToken codec ttl db now parts options = .ok (db', created)) :
    ∃ expiresAt, checkToken ttl db now parts options = .ok expiresAt ∧
      db'.actors = (tokenActors db options).1.actors ∧
      db'.tokens = db.tokens ++ [newTokenRow codec db now parts options expiresAt] := by
  obtain ⟨expiresAt, checked, effect⟩ := map_ok_iff.mp ok
  obtain ⟨rfl, rfl⟩ := Prod.mk.inj effect
  exact ⟨expiresAt, checked, rfl, by simp⟩

theorem revokeToken_ok {db db' : Identity} {now : Time} {tokenKey actor reason : GoString}
    (ok : revokeToken db now tokenKey actor reason = .ok (db', ())) :
    db'.actors = (ensureActor db (trimSpace actor)).1.actors ∧
      db'.tokens = db.tokens.map (revokedToken now (trimSpace tokenKey)) := by
  obtain ⟨_, _, effect⟩ := map_ok_iff.mp ok
  obtain ⟨rfl, _⟩ := Prod.mk.inj effect
  exact ⟨rfl, rfl⟩

section Revoked

variable (now : Time) (tokenKey : GoString) (row : TokenRow)

@[simp] theorem revokedToken_id : (revokedToken now tokenKey row).id = row.id := by
  unfold revokedToken
  split <;> rfl

end Revoked

/-- A row that was not there before was minted. -/
theorem TokenEffect.minted_of_fresh {codec : Codec} {db after : Identity} {now : Time} {parts : TokenParts}
    {created : CreateTokenOptions → Time → Prop} (effect : TokenEffect codec db now parts created after)
    {row : TokenRow} (member : row ∈ after.tokens) (fresh : row.id ∉ db.tokens.map (·.id)) :
    ∃ options expiresAt, created options expiresAt ∧ row = newTokenRow codec db now parts options expiresAt := by
  cases effect with
  | kept _ tokens => exact absurd (List.mem_map_of_mem (tokens ▸ member)) fresh
  | revoked _ tokenKey _ tokens =>
      obtain ⟨old, present, rfl⟩ := List.mem_map.mp (tokens ▸ member)
      exact absurd (revokedToken_id now tokenKey old ▸ List.mem_map_of_mem present) fresh
  | minted options expiresAt checked _ tokens =>
      rcases List.mem_append.mp (tokens ▸ member) with old | last
      · exact absurd (List.mem_map_of_mem old) fresh
      · exact ⟨options, expiresAt, checked, List.mem_singleton.mp last⟩

end AreaFlow.Auth

namespace AreaFlow.Api
open Go Auth

/-- The principal posts a well-formed request for a token, and the checks of the creation pass. -/
structure Mints (server : Server) (db : Identity) (input : Input) (principal : Principal) (request : TokenRequest)
    (asked expiresAt : Time) : Prop where
  available : server.sessionAuthenticator = true
  routed : mux.dispatch ((apiVersionAlias input.request).method == .connect) (apiVersionAlias input.request).url =
    .route .tokens
  admitted : (authMiddleware server db input.now (apiVersionAlias input.request)).1 = .admitted principal
  posted : (apiVersionAlias input.request).method = .post
  decoded : server.decodeTokenRequest (apiVersionAlias input.request).body = some request
  parsed : server.parseTime request.expiresAt = some asked
  checked : checkToken server.tokenMaxTTL db input.now input.parts (tokenOptions principal request asked) =
    .ok expiresAt

/-- The token handler creates only the token of a checked request. -/
theorem tokensHandler_effect (server : Server) (principal : Principal) (db : Identity) (now : Time)
    (parts : TokenParts) (r : Request) :
    TokenEffect server.codec db now parts
      (fun options expiresAt => ∃ request asked, server.sessionAuthenticator = true ∧ r.method = .post ∧
        server.decodeTokenRequest r.body = some request ∧ server.parseTime request.expiresAt = some asked ∧
        options = tokenOptions principal request asked ∧
        checkToken server.tokenMaxTTL db now parts options = .ok expiresAt)
      (tokensHandler server principal db now parts r).1 := by
  unfold tokensHandler
  split
  · exact .kept rfl rfl
  · rename_i available
    split
    · exact .kept rfl rfl
    · rename_i posted
      split
      · exact .kept rfl rfl
      · rename_i request decoded
        split
        · exact .kept rfl rfl
        · rename_i asked parsed
          split
          · exact .kept rfl rfl
          · rename_i made
            obtain ⟨expiresAt, checked, actors, tokens⟩ := createToken_ok made
            exact .minted _ expiresAt
              ⟨request, asked, by simpa using available, posted, decoded, parsed, rfl, checked⟩ actors tokens
    · split
      · exact .kept rfl rfl
      · rename_i revoked
        obtain ⟨actors, tokens⟩ := revokeToken_ok revoked
        exact .revoked _ _ actors tokens
    · exact .kept rfl rfl

/-- The token handler creates the token of a checked request. -/
theorem tokensHandler_mints {server : Server} {principal : Principal} {db : Identity} {now asked expiresAt : Time}
    {parts : TokenParts} {r : Request} {request : TokenRequest} (available : server.sessionAuthenticator = true)
    (posted : r.method = .post) (decoded : server.decodeTokenRequest r.body = some request)
    (parsed : server.parseTime request.expiresAt = some asked)
    (checked : checkToken server.tokenMaxTTL db now parts (tokenOptions principal request asked) = .ok expiresAt) :
    (tokensHandler server principal db now parts r).1.tokens =
      db.tokens ++ [newTokenRow server.codec db now parts (tokenOptions principal request asked) expiresAt] := by
  simp [tokensHandler, available, posted, decoded, parsed, createToken, checked, Except.map]

/-- A served request creates only the token that its admitted principal asks for. -/
theorem serveTokens_effect (server : Server) (db : Identity) (input : Input) :
    TokenEffect server.codec db input.now input.parts
      (fun options expiresAt => ∃ principal request asked,
        Mints server db input principal request asked expiresAt ∧ options = tokenOptions principal request asked)
      (serveTokens server db input).1 := by
  obtain ⟨sessions, framed⟩ := authMiddleware_frame server db input.now (apiVersionAlias input.request)
  unfold serveTokens
  dsimp only
  split
  · rename_i routed
    split
    · rename_i principal db' passed
      rw [passed] at framed
      obtain rfl : db' = { db with sessions := sessions } := framed
      cases tokensHandler_effect server principal { db with sessions := sessions } input.now input.parts
        (apiVersionAlias input.request) with
      | kept actors tokens => exact .kept actors tokens
      | revoked actor tokenKey actors tokens => exact .revoked actor tokenKey actors tokens
      | minted options expiresAt checked actors tokens =>
          obtain ⟨request, asked, available, posted, decoded, parsed, rfl, checked⟩ := checked
          rw [newTokenRow_sessions] at tokens
          rw [tokenActors_sessions] at actors
          exact .minted _ expiresAt ⟨principal, request, asked,
            ⟨available, routed, by rw [passed], posted, decoded, parsed, checked⟩, rfl⟩ actors tokens
    · rename_i passed
      rw [passed] at framed
      exact .kept (congrArg (·.actors) framed) (congrArg (·.tokens) framed)
  · exact .kept rfl rfl

/-- A request that meets the conditions of a creation creates its token. -/
theorem serveTokens_mints {server : Server} {db : Identity} {input : Input} {principal : Principal}
    {request : TokenRequest} {asked expiresAt : Time} (mints : Mints server db input principal request asked expiresAt) :
    (serveTokens server db input).1.tokens = db.tokens ++
      [newTokenRow server.codec db input.now input.parts (tokenOptions principal request asked) expiresAt] := by
  obtain ⟨sessions, framed⟩ := authMiddleware_frame server db input.now (apiVersionAlias input.request)
  have passed : authMiddleware server db input.now (apiVersionAlias input.request) =
      (.admitted principal, { db with sessions := sessions }) := Prod.ext mints.admitted framed
  have checked : checkToken server.tokenMaxTTL { db with sessions := sessions } input.now input.parts
      (tokenOptions principal request asked) = .ok expiresAt := mints.checked
  unfold serveTokens
  simp only [mints.routed, passed, tokensHandler_mints mints.available mints.posted mints.decoded mints.parsed checked,
    newTokenRow_sessions]

/-- A token row, used as a principal, passes the tests for a project and a capability. -/
def tokenAllows (row : TokenRow) (projectKey capability : GoString) : Prop :=
  let bearer : Principal := { projects := row.projects, capabilities := row.capabilities }
  bearer.allowsProject projectKey = true ∧ bearer.allowsCapability capability = true

/-- The scope of a token lies inside the authority of a principal. -/
def ScopeContained (row : TokenRow) (principal : Principal) : Prop :=
  ∀ projectKey capability, tokenAllows row projectKey capability →
    principal.allowsProject projectKey = true ∧ principal.allowsCapability capability = true

/-- The principal may use every listed project and has every listed capability. -/
def RequestWithin (projects capabilities : List GoString) (principal : Principal) : Prop :=
  (∀ projectKey ∈ projects, principal.allowsProject projectKey = true) ∧
    ∀ capability ∈ capabilities, principal.allowsCapability capability = true

/-- A scope that lists something lies inside an authority exactly when everything listed does. -/
theorem scopeContained_iff {row : TokenRow} {principal : Principal} (projects : row.projects ≠ [])
    (capabilities : row.capabilities ≠ []) :
    ScopeContained row principal ↔ RequestWithin row.projects row.capabilities principal := by
  obtain ⟨someProject, projectMember⟩ := List.exists_mem_of_ne_nil _ projects
  obtain ⟨someCapability, capabilityMember⟩ := List.exists_mem_of_ne_nil _ capabilities
  constructor
  · intro contained
    constructor
    · intro projectKey member
      exact (contained projectKey someCapability
        ⟨Principal.allowsProject_iff.mpr (Or.inr member), Principal.allowsCapability_iff.mpr (Or.inr capabilityMember)⟩).1
    · intro capability member
      exact (contained someProject capability
        ⟨Principal.allowsProject_iff.mpr (Or.inr projectMember), Principal.allowsCapability_iff.mpr (Or.inr member)⟩).2
  · rintro ⟨within, able⟩ projectKey capability ⟨project, power⟩
    constructor
    · rcases Principal.allowsProject_iff.mp project with star | member
      · exact Principal.allowsProject_iff.mpr
          (Or.inl ((Principal.allowsProject_iff.mp (within _ star)).elim id id))
      · exact within _ member
    · rcases Principal.allowsCapability_iff.mp power with star | member
      · exact Principal.allowsCapability_iff.mpr
          (Or.inl ((Principal.allowsCapability_iff.mp (able _ star)).elim id id))
      · exact able _ member

/-- The admitted principal of a request creates a token row with it. -/
def CreatesToken (server : Server) (db : Identity) (input : Input) (principal : Principal) (row : TokenRow) : Prop :=
  (authMiddleware server db input.now (apiVersionAlias input.request)).1 = .admitted principal ∧
    row ∈ (serveTokens server db input).1.tokens ∧ row.id ∉ db.tokens.map (·.id)

theorem createsToken_iff {server : Server} {db : Identity} {input : Input} {principal : Principal} {row : TokenRow} :
    CreatesToken server db input principal row ↔
      ∃ request asked expiresAt, Mints server db input principal request asked expiresAt ∧
        row = newTokenRow server.codec db input.now input.parts (tokenOptions principal request asked) expiresAt := by
  constructor
  · rintro ⟨admitted, member, fresh⟩
    obtain ⟨options, expiresAt, ⟨creator, request, asked, mints, rfl⟩, rfl⟩ :=
      (serveTokens_effect server db input).minted_of_fresh member fresh
    obtain rfl : principal = creator := by simpa using admitted.symm.trans mints.admitted
    exact ⟨request, asked, expiresAt, mints, rfl⟩
  · rintro ⟨request, asked, expiresAt, mints, rfl⟩
    refine ⟨mints.admitted, ?_, freshID_not_mem _⟩
    rw [serveTokens_mints mints]
    exact List.mem_append_right _ (List.mem_singleton_self _)

/-- Every token that this request creates has a scope inside the authority of its creator. -/
def MintContained (server : Server) (db : Identity) (input : Input) : Prop :=
  ∀ principal row, CreatesToken server db input principal row → ScopeContained row principal

/-- A request whose token creation passes asks only for projects and capabilities that its principal has. -/
def MintWithin (server : Server) (db : Identity) (input : Input) : Prop :=
  ∀ principal request asked expiresAt, Mints server db input principal request asked expiresAt →
    RequestWithin (normalize request.projects) (normalize request.capabilities) principal

theorem mintContained_iff (server : Server) (db : Identity) (input : Input) :
    MintContained server db input ↔ MintWithin server db input := by
  constructor
  · intro contained principal request asked expiresAt mints
    obtain ⟨someProject, someCapability⟩ := checkToken_ok mints.checked
    have scope := contained principal _ (createsToken_iff.mpr ⟨request, asked, expiresAt, mints, rfl⟩)
    exact (scopeContained_iff someProject someCapability).mp scope
  · intro within principal row creates
    obtain ⟨request, asked, expiresAt, mints, rfl⟩ := createsToken_iff.mp creates
    obtain ⟨someProject, someCapability⟩ := checkToken_ok mints.checked
    exact (scopeContained_iff someProject someCapability).mpr (within principal request asked expiresAt mints)

/-- In every run of token requests all created tokens stay inside the authority of their creators exactly
when every request that creates a token asks only for what its principal has. -/
theorem noEscalation_iff (server : Server) (db : Identity) (inputs : List Input) :
    Run.Along (serveTokens server) (MintContained server) db inputs ↔
      Run.Along (serveTokens server) (MintWithin server) db inputs :=
  Run.Along.congr (mintContained_iff server) db inputs

/-- This body asks for every capability on every project. -/
def everythingRequest : TokenRequest where
  actor := bytes "m"
  reason := bytes "m"
  projects := [bytes "*"]
  capabilities := [bytes "*"]
  expiresAt := []
  rotatedFrom := 0

/-- A token for the tokens of the project `a` posts that body with the project in the query. -/
def everythingInput : Input where
  now := 0
  parts := { key := List.replicate 24 49, secret := List.replicate 43 65 }
  request := bearerRequest .post
    { path := bytes "/api/auth/tokens", rawPath := [], query := [(bytes "project_key", bytes "a")]
      rooted := Or.inr (by decide), rawRooted := rooted_nil }

def tokenManagerTables : Identity where
  tokens := [bearerRow [bytes "a"] [bytes "auth.token.manage"]]

/-- A token that manages the tokens of one project creates a token for everything. -/
theorem tokenManager_escalates :
    ¬ Run.Along (serveTokens (bearerServer (some everythingRequest) none))
      (MintContained (bearerServer (some everythingRequest) none)) tokenManagerTables [everythingInput] := by
  have mints : Mints (bearerServer (some everythingRequest) none) tokenManagerTables everythingInput
      (bearerPrincipal [bytes "a"] [bytes "auth.token.manage"]) everythingRequest 1 1 :=
    ⟨rfl, by decide, by decide +kernel, rfl, rfl, rfl, by decide⟩
  rintro ⟨contained, -⟩
  have within := (mintContained_iff _ _ _).mp contained _ _ _ _ mints
  exact absurd (within.1 (bytes "*") (by decide)) (by decide)

end AreaFlow.Api
