import AreaFlow.Construction.Project.Permissions

namespace AreaFlow.Project
open Go

inductive CheckStatus where
  | pass
  | warn
  | fail
  deriving DecidableEq

/-- A worse status replaces the status of the doctor. -/
def CheckStatus.rank : CheckStatus → Nat
  | fail => 3
  | warn => 2
  | pass => 1

structure PermissionPolicyCheck where
  key : GoString
  category : GoString
  status : CheckStatus
  message : GoString
  metadata : Metadata := []
  deriving DecidableEq

/-- This record is the stored snapshot of a configuration as the doctor reads it. -/
structure ProjectConfigRecord where
  configPath : GoString
  configHash : GoString
  loadedAt : Time
  capabilities : List (GoString × Bool)
  writePaths : List GoString
  forbiddenPaths : List GoString
  allowedCommands : List GoString
  forbiddenCommands : List GoString
  statusExportPath : GoString
  requiredCapabilities : List GoString
  engineSecretRefs : List GoString
  deriving DecidableEq

structure PermissionPolicyDoctor where
  status : CheckStatus
  checks : List PermissionPolicyCheck
  deriving DecidableEq

/-- A string list of a snapshot is read with blanks trimmed and empty values dropped. -/
def stringSliceFromConfigPart (values : List GoString) : List GoString :=
  (values.map trimSpace).filter (· ≠ [])

def stringSliceContains (values : List GoString) (want : GoString) : Bool :=
  values.any fun value => trimSpace value == trimSpace want

/-- A row is found when its trimmed parts are the trimmed parts asked for; text columns hold no zero
byte, so the joined key determines its parts. -/
def hasPermission (rows : List PermissionRow) (effect : Effect) (capability : GoString)
    (resourceType : ResourceType) (pattern : GoString) : Bool :=
  rows.any fun row => row.effect == effect && trimSpace row.capability == trimSpace capability &&
    row.resourceType == resourceType && trimSpace row.pattern == trimSpace pattern

def pathMatchesAny (path : GoString) (patterns : List GoString) : Bool := patterns.any (globMatch · path)

def capabilityOn (capabilities : List (GoString × Bool)) (name : GoString) : Bool :=
  ((capabilities.find? fun entry => entry.1 == name).map (·.2)).getD false

def checkProjectConfigPresent (hasConfig : Bool) (config : ProjectConfigRecord) : PermissionPolicyCheck :=
  if !hasConfig then ⟨bytes "project_config", bytes "config", .fail, bytes "active project config is missing", []⟩
  else ⟨bytes "project_config", bytes "config", .pass, bytes "active project config is available",
    [(bytes "config_path", .text config.configPath), (bytes "config_hash", .text config.configHash),
      (bytes "loaded_at", .time (some config.loadedAt))]⟩

def riskyCapabilities : List GoString :=
  [bytes "write_workflow", bytes "write_generated", bytes "write_code", bytes "run_commands", bytes "manage_git",
    bytes "network", bytes "use_secrets", bytes "execute_agents"]

def checkDefaultReadOnly (capabilities : List (GoString × Bool)) : PermissionPolicyCheck :=
  let enabled := riskyCapabilities.filter (capabilityOn capabilities)
  if enabled ≠ [] then ⟨bytes "default_read_only", bytes "capability", .warn,
    bytes "high-risk capabilities are enabled", [(bytes "enabled", .texts enabled)]⟩
  else ⟨bytes "default_read_only", bytes "capability", .pass,
    bytes "high-risk capabilities are disabled by default", []⟩

def checkStatusExportPolicy (statusExportPath : GoString) (writePaths forbiddenPaths : List GoString)
    (rows : List PermissionRow) : PermissionPolicyCheck :=
  let path := if trimSpace statusExportPath = [] then bytes ".areaflow/status.json" else trimSpace statusExportPath
  let allowed := stringSliceContains writePaths path &&
    hasPermission rows .allow (bytes "write_status") .path path &&
    hasPermission rows .allow (bytes "write_status") .capability (bytes "write_status")
  let denied := pathMatchesAny path forbiddenPaths
  if allowed && !denied then ⟨bytes "status_export_write", bytes "path", .pass,
    bytes "status export path is explicitly allowed and not denied", [(bytes "path", .text path)]⟩
  else ⟨bytes "status_export_write", bytes "path", .fail, bytes "status export path is not safely allowed",
    [(bytes "path", .text path), (bytes "in_write_paths", .flag (stringSliceContains writePaths path)),
      (bytes "denied", .flag denied)]⟩

/-- These patterns must be denied in every project. -/
def requiredDenies : List GoString :=
  [bytes "workflow/versions/*/execution/**", bytes "workflow/versions/*/execution/_shared/progress.json",
    bytes ".areamatrix/**", bytes "**/*.sqlite", bytes "**/*.db"]

def checkDangerousWriteDenied (rows : List PermissionRow) (forbiddenPaths : List GoString) :
    PermissionPolicyCheck :=
  let missing := requiredDenies.filter fun pattern =>
    !stringSliceContains forbiddenPaths pattern && !hasPermission rows .deny (bytes "*") .path pattern
  if missing = [] then ⟨bytes "dangerous_write_denies", bytes "path", .pass,
    bytes "dangerous workflow, app metadata and database paths are denied", [(bytes "required", .texts requiredDenies)]⟩
  else ⟨bytes "dangerous_write_denies", bytes "path", .fail, bytes "required dangerous path denies are missing",
    [(bytes "missing", .texts missing)]⟩

def requiredForbiddenCommands : List GoString :=
  [bytes "./task-loop run", bytes "git reset --hard", bytes "git checkout --", bytes "rm -rf"]

def checkCommandPolicy (capabilities : List (GoString × Bool)) (allowedCommands forbiddenCommands : List GoString)
    (rows : List PermissionRow) : PermissionPolicyCheck :=
  let missing := requiredForbiddenCommands.filter fun command =>
    !stringSliceContains forbiddenCommands command && !hasPermission rows .deny (bytes "run_commands") .command command
  let runAllowed := capabilityOn capabilities (bytes "run_commands") ||
    hasPermission rows .allow (bytes "run_commands") .capability (bytes "run_commands")
  let listed := [(bytes "allowed_commands", MetaValue.texts allowedCommands),
    (bytes "forbidden_commands", .texts forbiddenCommands)]
  if missing = [] ∧ runAllowed = false then ⟨bytes "command_policy", bytes "command", .pass,
    bytes "dangerous commands are denied and run_commands is disabled", listed ++ [(bytes "run_commands", .flag runAllowed)]⟩
  else
    let details := listed ++ [(bytes "missing_forbidden", .texts missing), (bytes "run_commands", .flag runAllowed)]
    if missing ≠ [] then ⟨bytes "command_policy", bytes "command", .fail,
      bytes "required forbidden commands are missing", details⟩
    else ⟨bytes "command_policy", bytes "command", .warn, bytes "command policy needs review", details⟩

def checkSecretPolicy (capabilities : List (GoString × Bool)) (refs : List GoString) : PermissionPolicyCheck :=
  let useSecrets := capabilityOn capabilities (bytes "use_secrets")
  if !useSecrets then ⟨bytes "secret_policy", bytes "secret", .pass,
    bytes "secret usage capability is disabled; secret refs remain unresolved",
    [(bytes "secret_refs", .texts refs), (bytes "active_refs", .texts (refs.filter fun ref => ref ≠ [] ∧ ref ≠ bytes "none")),
      (bytes "use_secrets", .flag useSecrets), (bytes "secrets_resolve", .flag false)]⟩
  else ⟨bytes "secret_policy", bytes "secret", .warn,
    bytes "secret usage is enabled and needs secret store/audit readiness",
    [(bytes "secret_refs", .texts refs), (bytes "use_secrets", .flag useSecrets)]⟩

/-- A check that only looks at one capability passes while that capability is off. -/
def checkCapabilityOff (capabilities : List (GoString × Bool)) (capability key category off on : GoString) :
    PermissionPolicyCheck :=
  if !capabilityOn capabilities capability then ⟨key, category, .pass, off, []⟩ else ⟨key, category, .warn, on, []⟩

def checkNetworkPolicy (capabilities : List (GoString × Bool)) : PermissionPolicyCheck :=
  checkCapabilityOff capabilities (bytes "network") (bytes "network_policy") (bytes "network")
    (bytes "network capability is disabled") (bytes "network capability is enabled and needs allowlist/audit readiness")

def checkGitPolicy (capabilities : List (GoString × Bool)) : PermissionPolicyCheck :=
  checkCapabilityOff capabilities (bytes "manage_git") (bytes "git_policy") (bytes "git")
    (bytes "git management capability is disabled")
    (bytes "git management capability is enabled and needs allowlist/audit readiness")

def checkWorkerCapabilityPolicy (capabilities : List (GoString × Bool)) (required : List GoString) :
    PermissionPolicyCheck :=
  let missing := [bytes "read_project", bytes "write_artifacts"].filter fun capability =>
    !stringSliceContains required capability
  let manageWorkers := (bytes "manage_workers", MetaValue.flag (capabilityOn capabilities (bytes "manage_workers")))
  if missing = [] then ⟨bytes "worker_capability_policy", bytes "worker", .pass,
    bytes "worker scheduling declares required capabilities",
    [(bytes "required_capabilities", .texts required), manageWorkers]⟩
  else ⟨bytes "worker_capability_policy", bytes "worker", .warn,
    bytes "worker scheduling is missing expected capabilities",
    [(bytes "required_capabilities", .texts required), (bytes "missing", .texts missing), manageWorkers]⟩

def checkPermissionAuditReadiness : PermissionPolicyCheck :=
  ⟨bytes "permission_audit_readiness", bytes "audit", .pass,
    bytes "permission policy doctor is read-only; mutating permission changes must emit audit_events",
    [(bytes "permission_change_action", .text (bytes "permission.change")), (bytes "doctor_writes_audit", .flag false)]⟩

/-- One check is appended and may worsen the status of the doctor. -/
def PermissionPolicyDoctor.add (doctor : PermissionPolicyDoctor) (check : PermissionPolicyCheck) :
    PermissionPolicyDoctor :=
  { status := if doctor.status.rank < check.status.rank then check.status else doctor.status
    checks := doctor.checks ++ [check] }

/-- This function runs all checks on a stored configuration and the permission rows of its project. -/
def buildPermissionPolicyDoctor (config : ProjectConfigRecord) (hasConfig : Bool) (rows : List PermissionRow) :
    PermissionPolicyDoctor :=
  let writePaths := stringSliceFromConfigPart config.writePaths
  let forbiddenPaths := stringSliceFromConfigPart config.forbiddenPaths
  let allowedCommands := stringSliceFromConfigPart config.allowedCommands
  let forbiddenCommands := stringSliceFromConfigPart config.forbiddenCommands
  [checkProjectConfigPresent hasConfig config,
    checkDefaultReadOnly config.capabilities,
    checkStatusExportPolicy config.statusExportPath writePaths forbiddenPaths rows,
    checkDangerousWriteDenied rows forbiddenPaths,
    checkCommandPolicy config.capabilities allowedCommands forbiddenCommands rows,
    checkSecretPolicy config.capabilities (stringSliceFromConfigPart config.engineSecretRefs),
    checkNetworkPolicy config.capabilities,
    checkWorkerCapabilityPolicy config.capabilities (stringSliceFromConfigPart config.requiredCapabilities),
    checkGitPolicy config.capabilities,
    checkPermissionAuditReadiness].foldl PermissionPolicyDoctor.add ⟨.pass, []⟩

/-- This is the snapshot that the upsert of a configuration stores. -/
def configRecord (configPath configHash : GoString) (loadedAt : Time) (cfg : Config) : ProjectConfigRecord where
  configPath := configPath
  configHash := configHash
  loadedAt := loadedAt
  capabilities := cfg.permissions.capabilities
  writePaths := cfg.permissions.writePaths
  forbiddenPaths := cfg.permissions.forbiddenPath
  allowedCommands := cfg.commandsAllowed
  forbiddenCommands := cfg.commandsForbidden
  statusExportPath := cfg.statusExportPath
  requiredCapabilities := cfg.requiredCapabilities
  engineSecretRefs := cfg.engineSecretRefs

end AreaFlow.Project
