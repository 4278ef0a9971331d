import AreaFlow.Construction.Schema

namespace AreaFlow.Auth
open Go

/-- A failed operation leaves the tables unchanged and returns its message. -/
abbrev Outcome (A : Type) := Except GoString (Identity × A)

/-- This record is a user as the store returns it. -/
structure UserRecord where
  id : ID
  actorID : ID
  actor : GoString
  email : GoString
  displayName : GoString
  deriving DecidableEq

/-- This is the condition that both role queries put on a binding. -/
def liveBinding (now : Time) (b : BindingRow) : Bool :=
  b.status == .active && (match b.expiresAt with | none => true | some deadline => decide (now < deadline))

/-- These are the role rows of the bindings that name the user. -/
def directRoleRows (db : Identity) (now : Time) (userID : ID) : List (Role × GoString) :=
  (db.bindings.filter fun b => b.holder == .user userID && liveBinding now b).map
    fun b => (b.role, db.projectKeyOf b.projectID)

/-- These are the role rows of the bindings of the teams in which the user is an active member. -/
def teamRoleRows (db : Identity) (now : Time) (userID : ID) : List (Role × GoString) :=
  (db.memberships.filter fun m => m.userID == userID && m.status == .active).flatMap fun m =>
    (db.bindings.filter fun b => b.holder == .team m.teamID && liveBinding now b).map
      fun b => (b.role, db.projectKeyOf b.projectID)

/-- This is the union of both role queries. -/
def userRoleRows (db : Identity) (now : Time) (userID : ID) : List (Role × GoString) :=
  (directRoleRows db now userID ++ teamRoleRows db now userID).dedup

/-- One scanned row extends the set of roles and the set of projects. -/
def scanRoleRow (sets : List GoString × List GoString) (row : Role × GoString) : List GoString × List GoString :=
  let roles := insertKey sets.1 row.1.name
  if row.1 = .platformAdmin then (roles, insertKey sets.2 (bytes "*"))
  else if row.2 ≠ [] then (roles, insertKey sets.2 row.2)
  else (roles, sets.2)

/-- This function loads the roles, projects and capabilities of a user. -/
def principalForUser (db : Identity) (now : Time) (user : UserRecord) : Principal :=
  let sets := (userRoleRows db now user.id).foldl scanRoleRow ([], [])
  let roles := sortStrings sets.1
  { userID := user.id, actorID := user.actorID, actor := user.actor, authMode := .oidc, roles := roles,
    projects := sortStrings sets.2, capabilities := capabilitiesForRoles roles }

/-- This is the upsert of an actor by its external key: a new row, or a refreshed display name. -/
def upsertActor (actors : List ActorRow) (kind : ActorKind) (displayName externalKey : GoString) :
    List ActorRow × ID :=
  match actors.find? fun row => row.externalKey == some externalKey with
  | some existing =>
      (actors.map fun row =>
        if row.externalKey = some externalKey then { row with displayName := displayName } else row, existing.id)
  | none =>
      let id := freshID (actors.map (·.id))
      (actors ++ [{ id := id, kind := kind, displayName := displayName, externalKey := some externalKey }], id)

/-- This function ensures the actor of a name and returns its identifier. -/
def ensureActor (db : Identity) (actor : GoString) : Identity × ID :=
  let upserted := upsertActor db.actors .user actor (bytes "auth:" ++ actor)
  ({ db with actors := upserted.1 }, upserted.2)

/-- This function is `fmt.Sprint` of an identifier. -/
def sprintID (id : ID) : GoString := bytes (toString id)

structure GrantRoleOptions where
  projectKey : GoString
  userID : ID
  teamID : ID
  role : GoString
  actor : GoString
  reason : GoString
  expiresAt : Option Time
  deriving DecidableEq

/-- This is the query for the project of a role grant. -/
def roleProject (db : Identity) (projectKey : GoString) : Option ProjectRow :=
  db.projects.find? fun project => project.projectKey == projectKey && !project.archived

/-- The holder exists, and no active binding has the same project, holder and role. -/
def insertableBinding (db : Identity) (projectID : Option ID) (holder : Holder) (role : Role) : Bool :=
  (match holder with
    | .user id => db.users.any fun user => user.id == id
    | .team id => db.teams.any fun team => team.id == id) &&
  !(db.bindings.any fun b => b.projectID == projectID && b.holder == holder && b.role == role && b.status == .active)

/-- This is where a grant goes: globally for the platform role, or to one project for every other role. -/
inductive GrantTarget where
  | everywhere
  | project (project : ProjectRow) (role : Role) (narrow : role ≠ .platformAdmin)

namespace GrantTarget

def projectID : GrantTarget → Option ID
  | everywhere => none
  | project row _ _ => some row.id

def role : GrantTarget → Role
  | everywhere => .platformAdmin
  | project _ role _ => role

theorem projectID_none_iff (target : GrantTarget) : target.projectID = none ↔ target.role = .platformAdmin := by
  cases target with
  | everywhere => simp [projectID, role]
  | project row role narrow => simpa [projectID, GrantTarget.role] using narrow

end GrantTarget

/-- The holder of a grant is the team when no user is named. -/
def GrantRoleOptions.holder (options : GrantRoleOptions) : Holder :=
  if options.userID = 0 then .team options.teamID else .user options.userID

/-- These are the checks of a role grant in their order; an empty project key selects the global branch. -/
def checkGrant (db : Identity) (options : GrantRoleOptions) : Except GoString GrantTarget :=
  match Role.ofName (trimSpace options.role) with
  | none => .error (bytes "valid role, actor and reason are required")
  | some role =>
      if trimSpace options.actor = [] ∨ trimSpace options.reason = [] then
        .error (bytes "valid role, actor and reason are required")
      else if (options.userID = 0 ↔ options.teamID = 0) then .error (bytes "exactly one user or team is required")
      else if narrow : role = .platformAdmin then
        if trimSpace options.projectKey ≠ [] then .error (bytes "platform_admin cannot be project scoped")
        else if insertableBinding db none options.holder .platformAdmin then .ok .everywhere
        else .error (bytes "insert role binding")
      else if trimSpace options.projectKey = [] then .error (bytes "project role requires project key")
      else
        match roleProject db (trimSpace options.projectKey) with
        | none => .error (bytes "load role project")
        | some project =>
            if insertableBinding db (some project.id) options.holder role then .ok (.project project role narrow)
            else .error (bytes "insert role binding")

/-- This is the stored row of a new binding. -/
def newBindingRow (db : Identity) (options : GrantRoleOptions) (target : GrantTarget) : BindingRow where
  id := freshID (db.bindings.map (·.id))
  projectID := target.projectID
  holder := options.holder
  role := target.role
  status := .active
  reason := trimSpace options.reason
  assignedByActorID := (ensureActor db (trimSpace options.actor)).2
  expiresAt := options.expiresAt
  globalOnly := target.projectID_none_iff

/-- This is the audit row of a new binding. -/
def newBindingAudit (row : BindingRow) : AuditRow where
  projectID := row.projectID
  actorID := some row.assignedByActorID
  action := bytes "auth.role.grant"
  capability := bytes "auth.role.manage"
  resourceType := bytes "project_role_binding"
  resource := sprintID row.id
  decision := bytes "allowed"
  reason := row.reason
  metadata :=
    [(bytes "binding_id", .number row.id), (bytes "role", .text row.role.name),
      (bytes "user_id", .number (match row.holder with | .user id => id | .team _ => 0)),
      (bytes "team_id", .number (match row.holder with | .user _ => 0 | .team id => id))]

/-- This function grants a role. -/
def grantRole (db : Identity) (options : GrantRoleOptions) : Outcome BindingRow :=
  (checkGrant db options).map fun target =>
    let row := newBindingRow db options target
    let db' := (ensureActor db (trimSpace options.actor)).1
    ({ db' with bindings := db'.bindings ++ [row], audits := appendAudit db'.audits (newBindingAudit row) }, row)

/-- This is the row of an active binding after its revocation. -/
def revokedBinding (bindingID : ID) (row : BindingRow) : BindingRow :=
  if row.id = bindingID ∧ row.status = .active then { row with status := .revoked } else row

/-- These are the checks of a revocation; the result is the active binding with this identifier. -/
def checkRevoke (db : Identity) (bindingID : ID) (actor reason : GoString) : Except GoString BindingRow :=
  if bindingID = 0 ∨ actor = [] ∨ reason = [] then .error (bytes "binding id, actor and reason are required")
  else
    match db.bindings.find? fun b => b.id == bindingID && b.status == .active with
    | none => .error (bytes "revoke role binding")
    | some binding => .ok binding

/-- This function revokes an active binding by its global identifier. -/
def revokeRole (db : Identity) (bindingID : ID) (actor reason : GoString) : Outcome Unit :=
  (checkRevoke db bindingID (trimSpace actor) (trimSpace reason)).map fun binding =>
    let owned := ensureActor db (trimSpace actor)
    ({ owned.1 with
      bindings := owned.1.bindings.map (revokedBinding bindingID)
      audits := appendAudit owned.1.audits {
        projectID := binding.projectID, actorID := some owned.2, action := bytes "auth.role.revoke",
        capability := bytes "auth.role.manage", resourceType := bytes "project_role_binding",
        resource := sprintID bindingID, decision := bytes "allowed", reason := trimSpace reason,
        metadata := [] } }, ())

/-- This function lists the bindings of a project, or the global ones for an empty key, newest first. -/
def listRoleBindings (db : Identity) (projectKey : GoString) : List BindingRow :=
  let key := trimSpace projectKey
  (db.bindings.filter fun b =>
    (key == [] && b.projectID == none) || (b.projectID.isSome && db.projectKeyOf b.projectID == key)).reverse

end AreaFlow.Auth
