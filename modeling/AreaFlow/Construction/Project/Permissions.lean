import AreaFlow.Library.GoPath
import AreaFlow.Construction.Schema

namespace AreaFlow.Project
open Go

inductive Effect where
  | allow
  | deny
  deriving DecidableEq

inductive ResourceType where
  | capability
  | path
  | command
  deriving DecidableEq

structure PermissionRow where
  projectID : ID
  capability : GoString
  effect : Effect
  resourceType : ResourceType
  pattern : GoString
  deriving DecidableEq

/-- This record is the permission part of a project configuration; the order of the capabilities is
the order in which a loop over the map happens to visit them. -/
structure Permissions where
  capabilities : List (GoString × Bool)
  readPaths : List GoString
  writePaths : List GoString
  forbiddenPath : List GoString
  distinct : (capabilities.map (·.1)).Nodup
  deriving DecidableEq

/-- These are the parts of a project configuration that the permission functions read. -/
structure Config where
  permissions : Permissions
  commandsAllowed : List GoString
  commandsForbidden : List GoString
  statusExportPath : GoString
  requiredCapabilities : List GoString
  engineSecretRefs : List GoString
  deriving DecidableEq

/-- These are the fields of the project section that a configuration must have. -/
structure ProjectConfig where
  id : GoString
  name : GoString
  root : GoString
  adapter : GoString
  workflowProfile : GoString
  deriving DecidableEq

/-- These are the parts of a project configuration that its validation reads. -/
structure RequiredConfig where
  version : Int
  project : ProjectConfig
  deriving DecidableEq

/-- A configuration is accepted if it has the known version and no required field is empty. -/
def RequiredConfig.validate (config : RequiredConfig) : Except GoString Unit :=
  if config.version ≠ 1 then .error (bytes "unsupported config version " ++ bytes (toString config.version))
  else if config.project.id = [] then .error (bytes "project.id is required")
  else if config.project.name = [] then .error (bytes "project.name is required")
  else if config.project.root = [] then .error (bytes "project.root is required")
  else if config.project.adapter = [] then .error (bytes "project.adapter is required")
  else if config.project.workflowProfile = [] then .error (bytes "project.workflow_profile is required")
  else .ok ()

/-- A capability that the configuration does not name is off. -/
def Permissions.capability (permissions : Permissions) (name : GoString) : Bool :=
  ((permissions.capabilities.find? fun entry => entry.1 == name).map (·.2)).getD false

/-- This function cleans a project path; an absolute or escaping path becomes empty. -/
def normalizeProjectRelativePath (path : GoString) : GoString :=
  let path := trimSpace path
  if path = [] then []
  else
    let clean := pathClean path
    if clean = bytes "." ∨ clean.head? = some slash ∨ hasPrefix clean (bytes "../") = true ∨ clean = bytes ".." then []
    else clean

/-- These are the directories under which generated files may be written. -/
def managedGeneratedWritePrefixes : List GoString :=
  [bytes ".areaflow/generated/", bytes ".areamatrix/generated/"]

/-- A managed path lies strictly below one of the generated directories. -/
def isManagedGeneratedPath (targetPath : GoString) : Bool :=
  managedGeneratedWritePrefixes.any fun stem =>
    hasPrefix (normalizeProjectRelativePath targetPath) stem &&
      decide (stem.length < (normalizeProjectRelativePath targetPath).length)

def shouldAllowGeneratedWritePath (cfg : Config) (path : GoString) : Bool :=
  cfg.permissions.capability (bytes "write_generated") && isManagedGeneratedPath path

/-- These are the rows that one configuration inserts, in order. -/
def insertPermissions (projectID : ID) (cfg : Config) : List PermissionRow :=
  cfg.permissions.capabilities.map (fun entry =>
      ⟨projectID, entry.1, if entry.2 then .allow else .deny, .capability, entry.1⟩) ++
    cfg.permissions.readPaths.map (fun path => ⟨projectID, bytes "read_project", .allow, .path, path⟩) ++
    cfg.permissions.writePaths.flatMap (fun path =>
      ⟨projectID, bytes "write_status", .allow, .path, path⟩ ::
        if shouldAllowGeneratedWritePath cfg path then [⟨projectID, bytes "write_generated", .allow, .path, path⟩]
        else []) ++
    cfg.permissions.forbiddenPath.map (fun path => ⟨projectID, bytes "*", .deny, .path, path⟩) ++
    cfg.commandsAllowed.map (fun command => ⟨projectID, bytes "run_commands", .allow, .command, command⟩) ++
    cfg.commandsForbidden.map (fun command => ⟨projectID, bytes "run_commands", .deny, .command, command⟩)

/-- The upsert of a project replaces its rows by those of the configuration. -/
def replacePermissions (table : List PermissionRow) (projectID : ID) (cfg : Config) : List PermissionRow :=
  table.filter (fun row => row.projectID != projectID) ++ insertPermissions projectID cfg

/-- This function is the matcher of the permission checks: equality, the single star, and a trailing
double star below a directory. -/
def globMatch (pattern path : GoString) : Bool :=
  if pattern = path ∨ pattern = bytes "*" then true
  else if 3 ≤ pattern.length ∧ pattern.drop (pattern.length - 3) = bytes "/**" then
    let stem := pattern.take (pattern.length - 3)
    path == stem || (decide (stem.length < path.length) && path.take (stem.length + 1) == stem ++ [slash])
  else false

/-- A matching path denial stops the scan. -/
def deniesPath (path : GoString) (row : PermissionRow) : Bool :=
  row.effect == .deny && row.resourceType == .path && globMatch row.pattern path

def allowsCapability (capability : GoString) (row : PermissionRow) : Bool :=
  row.resourceType == .capability && row.capability == capability && row.effect == .allow

def allowsPath (capability path : GoString) (row : PermissionRow) : Bool :=
  row.resourceType == .path && row.capability == capability && row.effect == .allow && globMatch row.pattern path

/-- This is the loop over the permission rows with its two flags. -/
def scanPermissions (capability path : GoString) : Bool → Bool → List PermissionRow → Bool × GoString
  | capabilityAllowed, pathAllowed, [] =>
      if !capabilityAllowed then (false, bytes "capability not allowed")
      else if !pathAllowed then (false, bytes "path not allowed")
      else (true, bytes "allowed")
  | capabilityAllowed, pathAllowed, row :: rest =>
      if deniesPath path row then (false, bytes "path denied by forbidden path")
      else
        scanPermissions capability path (capabilityAllowed || allowsCapability capability row)
          (pathAllowed || allowsPath capability path row) rest

/-- This is the check that the three permission functions share. -/
def decidePath (table : List PermissionRow) (projectID : ID) (capability path : GoString) : Bool × GoString :=
  scanPermissions capability path false false
    (table.filter fun row => row.projectID == projectID && row.resourceType != .command)

def canWritePath : List PermissionRow → ID → GoString → GoString → Bool × GoString := decidePath

def canProjectPathInTx : List PermissionRow → ID → GoString → GoString → Bool × GoString := decidePath

def canWritePathTx : List PermissionRow → ID → GoString → GoString → Bool × GoString := decidePath

end AreaFlow.Project
