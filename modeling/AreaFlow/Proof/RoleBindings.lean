import AreaFlow.Library.Run
import AreaFlow.Proof.Middleware
import AreaFlow.Proof.Routing

namespace AreaFlow.Auth
open Go

/-- A checked grant goes everywhere only for a blank key, and otherwise to the project of the trimmed key. -/
theorem checkGrant_ok {db : Identity} {options : GrantRoleOptions} {target : GrantTarget}
    (ok : checkGrant db options = .ok target) :
    (target = .everywhere ∧ trimSpace options.projectKey = []) ∨
      ∃ project role narrow, target = .project project role narrow ∧ trimSpace options.projectKey ≠ [] ∧
        roleProject db (trimSpace options.projectKey) = some project := by
  unfold checkGrant at ok
  split at ok
  · cases ok
  · split at ok
    · cases ok
    · split at ok
      · cases ok
      · split at ok
        · split at ok
          · cases ok
          · rename_i blank
            split at ok
            · exact Or.inl ⟨(Except.ok.inj ok).symm, not_not.mp blank⟩
            · cases ok
        · split at ok
          · cases ok
          · rename_i keyed
            split at ok
            · cases ok
            · rename_i project found
              split at ok
              · exact Or.inr ⟨project, _, _, (Except.ok.inj ok).symm, keyed, found⟩
              · cases ok

/-- The project of a grant is stored, has the key and is not archived. -/
theorem roleProject_some {db : Identity} {projectKey : GoString} {project : ProjectRow}
    (found : roleProject db projectKey = some project) :
    project ∈ db.projects ∧ project.projectKey = projectKey ∧ project.archived = false := by
  have fits := List.find?_some found
  simp only [Bool.and_eq_true, beq_iff_eq, Bool.not_eq_true'] at fits
  exact ⟨List.mem_of_find?_eq_some found, fits.1, fits.2⟩

/-- A granted role is the checked row of its options, stored last. -/
theorem grantRole_ok {db db' : Identity} {options : GrantRoleOptions} {row : BindingRow}
    (ok : grantRole db options = .ok (db', row)) :
    ∃ target, checkGrant db options = .ok target ∧
      db'.bindings = db.bindings ++ [newBindingRow db options target] := by
  obtain ⟨target, checked, effect⟩ := map_ok_iff.mp ok
  obtain ⟨rfl, rfl⟩ := Prod.mk.inj effect
  exact ⟨target, checked, rfl⟩

theorem revokeRole_ok {db db' : Identity} {bindingID : ID} {actor reason : GoString}
    (ok : revokeRole db bindingID actor reason = .ok (db', ())) :
    db'.bindings = db.bindings.map (revokedBinding bindingID) := by
  obtain ⟨_, _, effect⟩ := map_ok_iff.mp ok
  obtain ⟨rfl, _⟩ := Prod.mk.inj effect
  rfl

section Revoked

variable (bindingID : ID) (row : BindingRow)

@[simp] theorem revokedBinding_id : (revokedBinding bindingID row).id = row.id := by
  unfold revokedBinding
  split <;> rfl

@[simp] theorem revokedBinding_holder : (revokedBinding bindingID row).holder = row.holder := by
  unfold revokedBinding
  split <;> rfl

@[simp] theorem revokedBinding_role : (revokedBinding bindingID row).role = row.role := by
  unfold revokedBinding
  split <;> rfl

/-- A revocation brings no binding to life. -/
theorem liveBinding_of_revoked {now : Time} (live : liveBinding now (revokedBinding bindingID row) = true) :
    liveBinding now row = true := by
  unfold revokedBinding at live
  split at live
  · simp [liveBinding] at live
  · exact live

end Revoked

end AreaFlow.Auth

namespace AreaFlow.Api
open Go Auth

/-- The principal posts a well-formed role grant, and the checks of the grant pass. -/
structure Grants (server : Server) (db : Identity) (input : Input) (principal : Principal) (projectKey : GoString)
    (request : RoleBindingRequest) (expiresAt : Option Time) (target : GrantTarget) : Prop where
  available : server.sessionAuthenticator = true
  routed : routeProject (apiVersionAlias input.request) = some (.roleBindings projectKey)
  admitted : (authMiddleware server db input.now (apiVersionAlias input.request)).1 = .admitted principal
  posted : (apiVersionAlias input.request).method = .post
  decoded : server.decodeRoleBindingRequest (apiVersionAlias input.request).body = some request
  parsed : optionalExpiry server request.expiresAt = some expiresAt
  checked : checkGrant db (grantOptions principal projectKey request expiresAt) = .ok target

/-- A request leaves the bindings, revokes one of them, or stores a new one. -/
inductive BindingEffect (before after : List BindingRow) (created : BindingRow → Prop) : Prop where
  | kept (same : after = before)
  | revoked (bindingID : ID) (marked : after = before.map (revokedBinding bindingID))
  | granted (row : BindingRow) (checked : created row) (stored : after = before ++ [row])

theorem BindingEffect.mono {before after : List BindingRow} {first second : BindingRow → Prop}
    (effect : BindingEffect before after first) (wider : ∀ row, first row → second row) :
    BindingEffect before after second := by
  cases effect with
  | kept same => exact .kept same
  | revoked bindingID marked => exact .revoked bindingID marked
  | granted row checked stored => exact .granted row (wider row checked) stored

/-- A row that was not there before was granted. -/
theorem BindingEffect.granted_of_fresh {before after : List BindingRow} {created : BindingRow → Prop}
    (effect : BindingEffect before after created) {row : BindingRow} (member : row ∈ after)
    (fresh : row.id ∉ before.map (·.id)) : created row := by
  cases effect with
  | kept same => exact absurd (List.mem_map_of_mem (same ▸ member)) fresh
  | revoked bindingID marked =>
      subst marked
      obtain ⟨old, present, rfl⟩ := List.mem_map.mp member
      exact absurd (revokedBinding_id bindingID old ▸ List.mem_map_of_mem present) fresh
  | granted new checked stored =>
      subst stored
      rcases List.mem_append.mp member with old | last
      · exact absurd (List.mem_map_of_mem old) fresh
      · exact List.mem_singleton.mp last ▸ checked

/-- The role binding handler grants only a checked request. -/
theorem roleBindingsHandler_bindings (server : Server) (principal : Principal) (db : Identity)
    (projectKey : GoString) (r : Request) :
    BindingEffect db.bindings (roleBindingsHandler server principal db projectKey r).1.bindings fun row =>
      ∃ request expiresAt target, server.sessionAuthenticator = true ∧ r.method = .post ∧
        server.decodeRoleBindingRequest r.body = some request ∧
        optionalExpiry server request.expiresAt = some expiresAt ∧
        checkGrant db (grantOptions principal projectKey request expiresAt) = .ok target ∧
        row = newBindingRow db (grantOptions principal projectKey request expiresAt) target := by
  unfold roleBindingsHandler
  split
  · exact .kept rfl
  · rename_i available
    split
    · exact .kept rfl
    · rename_i posted
      split
      · exact .kept rfl
      · rename_i request decoded
        split
        · exact .kept rfl
        · rename_i expiresAt parsed
          split
          · exact .kept rfl
          · rename_i granted
            obtain ⟨target, checked, stored⟩ := grantRole_ok granted
            exact .granted _ ⟨request, expiresAt, target, by simpa using available, posted, decoded, parsed,
              checked, rfl⟩ stored
    · split
      · exact .kept rfl
      · split
        · exact .kept rfl
        · split
          · exact .kept rfl
          · rename_i revoked
            exact .revoked _ (revokeRole_ok revoked)
    · exact .kept rfl

/-- A served request grants only what its admitted principal asks for. -/
theorem serveRoleBindings_bindings (server : Server) (db : Identity) (input : Input) :
    BindingEffect db.bindings (serveRoleBindings server db input).1.bindings fun row =>
      ∃ principal projectKey request expiresAt target,
        Grants server db input principal projectKey request expiresAt target ∧
        row = newBindingRow db (grantOptions principal projectKey request expiresAt) target := by
  obtain ⟨sessions, framed⟩ := authMiddleware_frame server db input.now (apiVersionAlias input.request)
  unfold serveRoleBindings
  dsimp only
  split
  · rename_i projectKey routed
    split
    · rename_i principal db' passed
      rw [passed] at framed
      obtain rfl : db' = { db with sessions := sessions } := framed
      refine (roleBindingsHandler_bindings server principal { db with sessions := sessions } projectKey
        (apiVersionAlias input.request)).mono ?_
      rintro row ⟨request, expiresAt, target, available, posted, decoded, parsed, checked, rfl⟩
      exact ⟨principal, projectKey, request, expiresAt, target,
        ⟨available, routed, by rw [passed], posted, decoded, parsed, checked⟩, rfl⟩
    · rename_i passed
      rw [passed] at framed
      exact .kept (congrArg (·.bindings) framed)
  · exact .kept rfl

/-- A request that meets the conditions of a grant stores its binding. -/
theorem serveRoleBindings_grants {server : Server} {db : Identity} {input : Input} {principal : Principal}
    {projectKey : GoString} {request : RoleBindingRequest} {expiresAt : Option Time} {target : GrantTarget}
    (grants : Grants server db input principal projectKey request expiresAt target) :
    (serveRoleBindings server db input).1.bindings =
      db.bindings ++ [newBindingRow db (grantOptions principal projectKey request expiresAt) target] := by
  obtain ⟨sessions, framed⟩ := authMiddleware_frame server db input.now (apiVersionAlias input.request)
  have passed : authMiddleware server db input.now (apiVersionAlias input.request) =
      (.admitted principal, { db with sessions := sessions }) := Prod.ext grants.admitted framed
  have checked : checkGrant { db with sessions := sessions } (grantOptions principal projectKey request expiresAt) =
      .ok target := grants.checked
  unfold serveRoleBindings
  simp only [grants.routed, passed, roleBindingsHandler, grants.available, grants.posted, grants.decoded,
    grants.parsed, grantRole, checked, Except.map]
  rfl

/-- A request creates a role binding. -/
def CreatesBinding (server : Server) (db : Identity) (input : Input) (row : BindingRow) : Prop :=
  row ∈ (serveRoleBindings server db input).1.bindings ∧ row.id ∉ db.bindings.map (·.id)

theorem createsBinding_iff {server : Server} {db : Identity} {input : Input} {row : BindingRow} :
    CreatesBinding server db input row ↔
      ∃ principal projectKey request expiresAt target,
        Grants server db input principal projectKey request expiresAt target ∧
        row = newBindingRow db (grantOptions principal projectKey request expiresAt) target := by
  constructor
  · rintro ⟨member, fresh⟩
    exact (serveRoleBindings_bindings server db input).granted_of_fresh member fresh
  · rintro ⟨principal, projectKey, request, expiresAt, target, grants, rfl⟩
    refine ⟨?_, freshID_not_mem _⟩
    rw [serveRoleBindings_grants grants]
    exact List.mem_append_right _ (List.mem_singleton_self _)

/-- Every binding that this request creates belongs to a live project whose key is the checked one, and is not
a platform role. -/
def GrantInside (server : Server) (db : Identity) (input : Input) : Prop :=
  ∀ row, CreatesBinding server db input row →
    row.role ≠ .platformAdmin ∧ ∃ project ∈ db.projects, project.archived = false ∧
      project.projectKey = requestProjectKey (apiVersionAlias input.request) ∧ row.projectID = some project.id

/-- A request whose role grant passes has a checked project key that is not empty and has no white space
around it. -/
def GrantKeyTrimmed (server : Server) (db : Identity) (input : Input) : Prop :=
  ∀ principal projectKey request expiresAt target,
    Grants server db input principal projectKey request expiresAt target →
      requestProjectKey (apiVersionAlias input.request) ≠ [] ∧
        trimSpace (requestProjectKey (apiVersionAlias input.request)) =
          requestProjectKey (apiVersionAlias input.request)

theorem grantInside_of_trimmed {server : Server} {db : Identity} {input : Input}
    (trimmed : GrantKeyTrimmed server db input) : GrantInside server db input := by
  intro row creates
  obtain ⟨principal, projectKey, request, expiresAt, target, grants, rfl⟩ := createsBinding_iff.mp creates
  obtain ⟨nonempty, same⟩ := trimmed principal projectKey request expiresAt target grants
  have checkedKey : requestProjectKey (apiVersionAlias input.request) = projectKey :=
    (requestProjectKey_routed grants.routed rfl).resolve_right nonempty
  rw [checkedKey] at nonempty same
  rcases checkGrant_ok grants.checked with ⟨_, blank⟩ | ⟨project, role, narrow, rfl, _, found⟩
  · exact absurd (same.symm.trans blank) nonempty
  · obtain ⟨member, key, live⟩ := roleProject_some found
    exact ⟨narrow, project, member, live, by rw [key, checkedKey]; exact same, rfl⟩

theorem trimmed_of_grantInside {server : Server} {db : Identity} {input : Input}
    (inside : GrantInside server db input) : GrantKeyTrimmed server db input := by
  intro principal projectKey request expiresAt target grants
  obtain ⟨narrow, project, member, _, key, belongs⟩ :=
    inside _ (createsBinding_iff.mpr ⟨principal, projectKey, request, expiresAt, target, grants, rfl⟩)
  have nonempty : requestProjectKey (apiVersionAlias input.request) ≠ [] := key ▸ project.keyed
  have checkedKey : requestProjectKey (apiVersionAlias input.request) = projectKey :=
    (requestProjectKey_routed grants.routed rfl).resolve_right nonempty
  refine ⟨nonempty, ?_⟩
  rcases checkGrant_ok grants.checked with ⟨rfl, _⟩ | ⟨granted, role, _, rfl, _, found⟩
  · exact absurd rfl narrow
  · obtain ⟨present, grantedKey, _⟩ := roleProject_some found
    have sameProject : granted = project := db.project_unique present member (Option.some.inj belongs)
    rw [checkedKey, ← show granted.projectKey = trimSpace projectKey from grantedKey, sameProject, key, checkedKey]

theorem grantInside_iff (server : Server) (db : Identity) (input : Input) :
    GrantInside server db input ↔ GrantKeyTrimmed server db input :=
  ⟨trimmed_of_grantInside, grantInside_of_trimmed⟩

/-- Whoever holds the platform role now held it at the start, by the same binding. -/
def PlatformHeldBefore (initial : List BindingRow) (db : Identity) : Prop :=
  ∀ row ∈ db.bindings, row.role = .platformAdmin →
    ∃ old ∈ initial, old.id = row.id ∧ old.holder = row.holder ∧ old.role = .platformAdmin ∧
      ∀ now, liveBinding now row = true → liveBinding now old = true

theorem platformHeldBefore_step {server : Server} {initial : List BindingRow} {db : Identity} {input : Input}
    (held : PlatformHeldBefore initial db) (trimmed : GrantKeyTrimmed server db input) :
    PlatformHeldBefore initial (serveRoleBindings server db input).1 := by
  intro row member platform
  cases serveRoleBindings_bindings server db input with
  | kept same => exact held row (same ▸ member) platform
  | revoked bindingID marked =>
      obtain ⟨before, present, rfl⟩ := List.mem_map.mp (marked ▸ member)
      obtain ⟨old, stored, sameID, sameHolder, role, live⟩ :=
        held before present (by simpa using platform)
      exact ⟨old, stored, by simpa using sameID, by simpa using sameHolder, role,
        fun now alive => live now (liveBinding_of_revoked bindingID before alive)⟩
  | granted new checked stored =>
      rcases List.mem_append.mp (stored ▸ member) with old | last
      · exact held row old platform
      · obtain rfl := List.mem_singleton.mp last
        exact absurd platform (grantInside_of_trimmed trimmed row (createsBinding_iff.mpr checked)).1

/-- In every run of role binding requests all grants stay inside the checked project exactly when the checked
key of every grant is not empty and trimmed, and then nobody gains the platform role. -/
theorem roleGrants_inside_iff (server : Server) (db : Identity) (inputs : List Input) :
    (Run.Along (serveRoleBindings server) (GrantInside server) db inputs ↔
      Run.Along (serveRoleBindings server) (GrantKeyTrimmed server) db inputs) ∧
    (Run.Along (serveRoleBindings server) (GrantKeyTrimmed server) db inputs →
      PlatformHeldBefore db.bindings (Run.final (serveRoleBindings server) db inputs)) := by
  refine ⟨Run.Along.congr (grantInside_iff server) db inputs, fun trimmed => ?_⟩
  have initial : PlatformHeldBefore db.bindings db :=
    fun row member platform => ⟨row, member, rfl, rfl, platform, fun _ alive => alive⟩
  exact Run.Along.invariant (fun _ _ held allowed => platformHeldBefore_step held allowed) initial trimmed

/-- This body asks for the platform role of a user. -/
def platformRequest : RoleBindingRequest where
  userID := 1
  teamID := 0
  role := bytes "platform_admin"
  reason := bytes "m"
  expiresAt := []

/-- A token for role bindings posts that body below a project key of one blank. -/
def platformInput : Input where
  now := 0
  parts := { key := List.replicate 24 49, secret := List.replicate 43 65 }
  request := bearerRequest .post
    { path := bytes "/api/projects/ /role-bindings", rawPath := [], query := []
      rooted := Or.inr (by decide), rawRooted := rooted_nil }

def roleManagerTables : Identity where
  users := [{ id := 1, actorID := none, email := none, displayName := [], externalKey := none }]
  tokens := [bearerRow [bytes "*"] [bytes "auth.role.manage"]]

/-- A token that only manages roles gives a user the platform role. -/
theorem roleManager_grants_platform :
    (∀ row ∈ roleManagerTables.bindings, row.role ≠ .platformAdmin) ∧
      (∃ row ∈ (serveRoleBindings (bearerServer none (some platformRequest)) roleManagerTables platformInput).1.bindings,
        row.holder = .user 1 ∧ row.role = .platformAdmin ∧ liveBinding 0 row = true) ∧
      ¬ GrantInside (bearerServer none (some platformRequest)) roleManagerTables platformInput := by
  have grants : Grants (bearerServer none (some platformRequest)) roleManagerTables platformInput
      (bearerPrincipal [bytes "*"] [bytes "auth.role.manage"]) (bytes " ") platformRequest none .everywhere :=
    ⟨rfl, by decide +kernel, by decide +kernel, rfl, rfl, rfl, by rfl⟩
  refine ⟨by decide, ?_, ?_⟩
  · rw [serveRoleBindings_grants grants]
    exact ⟨_, List.mem_append_right _ (List.mem_singleton_self _), rfl, rfl, rfl⟩
  · intro inside
    exact (inside _ (createsBinding_iff.mpr ⟨_, _, _, _, _, grants, rfl⟩)).1 rfl

end AreaFlow.Api
