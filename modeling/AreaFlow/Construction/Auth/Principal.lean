import AreaFlow.Library.Sets

namespace AreaFlow.Auth
open Go

/-- These are the roles that the role column accepts. -/
inductive Role where
  | platformAdmin
  | projectAdmin
  | operator
  | approver
  | auditor
  | viewer
  deriving DecidableEq

namespace Role

/-- These are all roles. -/
def all : List Role := [platformAdmin, projectAdmin, operator, approver, auditor, viewer]

/-- This is the stored name of a role. -/
def name : Role → GoString
  | platformAdmin => bytes "platform_admin"
  | projectAdmin => bytes "project_admin"
  | operator => bytes "operator"
  | approver => bytes "approver"
  | auditor => bytes "auditor"
  | viewer => bytes "viewer"

/-- This function reads a stored name. -/
def ofName (name : GoString) : Option Role := all.find? fun role => role.name == name

/-- These are the entries of the table of role capabilities. -/
def capabilities : Role → List GoString
  | platformAdmin => [bytes "*"]
  | projectAdmin =>
      [bytes "read", bytes "admin", bytes "project.manage", bytes "auth.role.manage", bytes "auth.token.manage",
        bytes "workflow.approval.record", bytes "run.control", bytes "worker.control"]
  | operator => [bytes "read", bytes "run.control", bytes "worker.control"]
  | approver => [bytes "read", bytes "workflow.approval.record"]
  | auditor => [bytes "read", bytes "audit.read"]
  | viewer => [bytes "read"]

@[simp] theorem ofName_name (role : Role) : ofName role.name = some role := by
  cases role <;> decide

theorem name_injective {first second : Role} (same : first.name = second.name) : first = second := by
  have read := ofName_name first
  rw [same, ofName_name] at read
  exact (Option.some.inj read).symm

/-- Only the platform role carries the wildcard capability. -/
theorem star_mem_capabilities {role : Role} : bytes "*" ∈ role.capabilities ↔ role = platformAdmin := by
  cases role <;> decide

end Role

/-- This is the lookup in the table of role capabilities; an unknown role has none. -/
def roleCapabilities (role : GoString) : List GoString := ((Role.ofName role).map Role.capabilities).getD []

/-- This function collects the capabilities of all roles in sorted order. -/
def capabilitiesForRoles (roles : List GoString) : List GoString :=
  sortStrings (roles.foldl (fun set role => (roleCapabilities role).foldl insertKey set) [])

/-- The authentication mode is empty for the local user. -/
inductive AuthMode where
  | none
  | token
  | oidc
  deriving DecidableEq

/-- This record is the authenticated caller of a request. -/
structure Principal where
  tokenID : Int := 0
  tokenKey : GoString := []
  userID : Int := 0
  sessionID : Int := 0
  actorID : Int := 0
  actor : GoString := []
  authMode : AuthMode := .none
  roles : List GoString := []
  projects : List GoString := []
  capabilities : List GoString := []
  scopeHash : GoString := []
  csrfHash : GoString := []
  deriving DecidableEq

namespace Principal

/-- A principal may use a project that it lists, or every project with the wildcard. -/
def allowsProject (p : Principal) (projectKey : GoString) : Bool :=
  p.projects.contains (bytes "*") || p.projects.contains projectKey

/-- A principal has a capability that it lists, or every capability with the wildcard. -/
def allowsCapability (p : Principal) (capability : GoString) : Bool :=
  p.capabilities.contains (bytes "*") || p.capabilities.contains capability

theorem allowsProject_iff {p : Principal} {projectKey : GoString} :
    p.allowsProject projectKey = true ↔ bytes "*" ∈ p.projects ∨ projectKey ∈ p.projects := by
  simp [allowsProject]

theorem allowsCapability_iff {p : Principal} {capability : GoString} :
    p.allowsCapability capability = true ↔ bytes "*" ∈ p.capabilities ∨ capability ∈ p.capabilities := by
  simp [allowsCapability]

end Principal

theorem mem_capabilitiesForRoles {roles : List GoString} {capability : GoString} :
    capability ∈ capabilitiesForRoles roles ↔ ∃ role ∈ roles, capability ∈ roleCapabilities role := by
  have collected (set : List GoString) :
      capability ∈ roles.foldl (fun set role => (roleCapabilities role).foldl insertKey set) set ↔
        capability ∈ set ∨ ∃ role ∈ roles, capability ∈ roleCapabilities role := by
    induction roles generalizing set with
    | nil => simp
    | cons role rest ih =>
        rw [List.foldl_cons, ih, mem_foldl_insertKey (fun capability => capability)]
        simp [or_assoc]
  rw [capabilitiesForRoles, mem_sortStrings, collected]
  simp

@[simp] theorem roleCapabilities_name (role : Role) : roleCapabilities role.name = role.capabilities := by
  simp [roleCapabilities]

end AreaFlow.Auth
