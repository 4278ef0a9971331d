import AreaFlow.Construction.Auth.Principal

namespace AreaFlow
open Go

/-- Times and durations count nanoseconds. A time is never the zero time of Go. -/
abbrev Time := Nat

/-- Row identifiers are numbers; zero stands for an absent reference in a request. -/
abbrev ID := Int

/-- These are the values that the metadata columns hold. -/
inductive MetaValue where
  | text (value : GoString)
  | number (value : Int)
  | numbers (values : List Int)
  | flag (value : Bool)
  | texts (values : List GoString)
  | time (value : Option Time)
  | json (encoded : GoString)
  deriving DecidableEq

/-- A metadata column is a list of named values. -/
abbrev Metadata := List (GoString × MetaValue)

/-- An actor is created by a user action, a login or a worker registration. -/
inductive ActorKind where
  | user
  | oidcUser
  | worker
  deriving DecidableEq

structure ActorRow where
  id : ID
  kind : ActorKind
  displayName : GoString
  externalKey : Option GoString
  deriving DecidableEq

/-- A stored project has a non-empty key, because its configuration was validated. -/
structure ProjectRow where
  id : ID
  projectKey : GoString
  archived : Bool
  keyed : projectKey ≠ []
  kind : GoString := []
  rootPath : GoString := []
  workflowProfile : GoString := []
  deriving DecidableEq

theorem bytes_a_ne_nil : bytes "a" ≠ [] := by decide

/-- This is an active project with a one-letter key. -/
def smallProject : ProjectRow := { id := 1, projectKey := bytes "a", archived := false, keyed := bytes_a_ne_nil }

theorem nodup_smallProjects : ([smallProject].map (·.id)).Nodup := by
  decide

structure UserRow where
  id : ID
  actorID : Option ID
  email : Option GoString
  displayName : GoString
  externalKey : Option GoString
  status : GoString := bytes "active"
  deriving DecidableEq

structure TeamRow where
  id : ID
  deriving DecidableEq

/-- These are the states of rows that can be switched off. -/
inductive RowStatus where
  | active
  | revoked
  | expired
  | disabled
  deriving DecidableEq

structure MembershipRow where
  teamID : ID
  userID : ID
  status : RowStatus
  deriving DecidableEq

structure IdentityRow where
  userID : ID
  issuer : GoString
  subject : GoString
  emailSnapshot : Option GoString
  status : RowStatus
  deriving DecidableEq

/-- A role is held by exactly one user or one team. -/
inductive Holder where
  | user (id : ID)
  | team (id : ID)
  deriving DecidableEq

/-- A role binding is global exactly when its role is the platform role. -/
structure BindingRow where
  id : ID
  projectID : Option ID
  holder : Holder
  role : Auth.Role
  status : RowStatus
  reason : GoString
  assignedByActorID : ID
  expiresAt : Option Time
  globalOnly : projectID = none ↔ role = .platformAdmin
  deriving DecidableEq

structure TokenRow where
  id : ID
  actorID : Option ID
  tokenKey : GoString
  tokenHash : GoString
  projects : List GoString
  capabilities : List GoString
  status : RowStatus
  expiresAt : Option Time
  createdByActorID : Option ID
  rotatedFromTokenID : Option ID
  reason : GoString
  createdAt : Time
  revokedAt : Option Time
  deriving DecidableEq

structure SessionRow where
  id : ID
  userID : ID
  actorID : Option ID
  sessionKey : GoString
  sessionHash : GoString
  csrfHash : GoString
  issuer : GoString
  idleTTLSeconds : Nat
  idleExpiresAt : Time
  absoluteExpiresAt : Time
  status : RowStatus
  deriving DecidableEq

structure AuditRow where
  id : ID := 0
  projectID : Option ID
  actorID : Option ID
  action : GoString
  capability : GoString
  resourceType : GoString
  resource : GoString
  decision : GoString
  reason : GoString
  metadata : Metadata
  deriving DecidableEq

/-- This is the insert of an audit row; the table gives it the next identifier. -/
def appendAudit (audits : List AuditRow) (row : AuditRow) : List AuditRow :=
  audits ++ [{ row with id := freshID (audits.map (·.id)) }]

/-- These tables hold identities, grants, credentials and the audit log; projects have a primary key. -/
structure Identity where
  actors : List ActorRow := []
  projects : List ProjectRow := []
  users : List UserRow := []
  teams : List TeamRow := []
  memberships : List MembershipRow := []
  identities : List IdentityRow := []
  bindings : List BindingRow := []
  tokens : List TokenRow := []
  sessions : List SessionRow := []
  audits : List AuditRow := []
  projectIDs : (projects.map (·.id)).Nodup := by first | exact List.nodup_nil | decide
  deriving DecidableEq

namespace Identity

/-- Stored projects with the same identifier are the same. -/
theorem project_unique (db : Identity) {first second : ProjectRow} (present : first ∈ db.projects)
    (stored : second ∈ db.projects) (same : first.id = second.id) : first = second :=
  List.inj_on_of_nodup_map db.projectIDs present stored same

/-- This is the left join from an optional project reference to its row. -/
def projectOf (db : Identity) (projectID : Option ID) : Option ProjectRow :=
  projectID.bind fun id => db.projects.find? fun project => project.id == id

/-- This is the key of a referenced project, empty when there is none. -/
def projectKeyOf (db : Identity) (projectID : Option ID) : GoString :=
  ((db.projectOf projectID).map (·.projectKey)).getD []

/-- This is the left join from an optional actor reference to its display name. -/
def actorName (db : Identity) (actorID : Option ID) : Option GoString :=
  actorID.bind fun id => (db.actors.find? fun actor => actor.id == id).map (·.displayName)

end Identity

end AreaFlow
