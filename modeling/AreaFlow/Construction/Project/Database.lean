import AreaFlow.Library.Strconv
import AreaFlow.Construction.Project.Runs
import AreaFlow.Construction.Project.Permissions

namespace AreaFlow.Project
open Go

/-- This is the assignment of a key in a metadata map. -/
def setKey (metadata : Metadata) (key : GoString) (value : MetaValue) : Metadata :=
  if metadata.any fun entry => entry.1 == key then
    metadata.map fun entry => if entry.1 = key then (key, value) else entry
  else metadata ++ [(key, value)]

/-- This is the assignment of all keys of a second map. -/
def setKeys (metadata extra : Metadata) : Metadata := extra.foldl (fun all entry => setKey all entry.1 entry.2) metadata

/-- This is a metadata map that is written down in parts. -/
def fields (parts : List Metadata) : Metadata := parts.flatten

/-- This is the lookup of a key in a metadata map. -/
def metadataGet (metadata : Metadata) (key : GoString) : Option MetaValue :=
  (metadata.find? fun entry => entry.1 == key).map (·.2)

/-- A version is authored in the product or imported from a managed project. -/
inductive ImportMode where
  | authored
  | imported (mode : GoString)
  deriving DecidableEq

/-- This is the workflow profile that a version was created with. -/
structure ProfileBinding where
  profileID : GoString
  profileVersion : Int
  profileHash : GoString
  profilePath : GoString
  deriving DecidableEq

/-- The status summary of a version holds its profile binding, if there is one, and whether its cutover was applied. -/
structure VersionRow where
  id : ID
  projectID : ID
  displayLabel : GoString
  importMode : ImportMode
  profileBinding : Option ProfileBinding := none
  lifecycleStatus : GoString := bytes "draft"
  cutoverApplied : Bool := false
  deriving DecidableEq

structure ItemRow where
  id : ID
  projectID : ID
  versionID : ID
  stage : GoString
  itemType : GoString
  externalKey : GoString
  title : GoString
  status : GoString
  sourcePath : GoString := []
  sourceHash : GoString := []
  metadata : Metadata
  createdAt : Time
  deriving DecidableEq

/-- A link tells that an item derives from another one. -/
structure LinkRow where
  id : ID
  projectID : ID
  versionID : ID
  fromItemID : ID
  toItemID : ID
  relationType : GoString
  metadata : Metadata
  deriving DecidableEq

structure GateRow where
  id : ID
  projectID : ID
  versionID : ID
  gateName : GoString
  status : GoString
  checkedAt : Time
  itemID : Option ID := none
  scopeType : GoString := []
  scopeID : GoString := []
  inputs : Metadata := []
  sourceHashes : Metadata := []
  failures : List GoString := []
  warnings : List GoString := []
  metadata : Metadata := []
  deriving DecidableEq

/-- A transition preview is ready, or blocked for stated reasons. -/
inductive PreviewStatus where
  | ready
  | blocked
  deriving DecidableEq

def PreviewStatus.name : PreviewStatus → GoString
  | ready => bytes "ready"
  | blocked => bytes "blocked"

structure PreviewRow where
  id : ID
  projectID : ID
  versionID : ID
  fromStage : GoString
  toStage : GoString
  status : PreviewStatus
  requiredGateName : GoString
  gateResultID : ID
  blockers : List GoString
  warnings : List GoString
  metadata : Metadata
  createdAt : Time
  deriving DecidableEq

/-- These are the decisions that an approval accepts. -/
inductive Decision where
  | approved
  | rejected
  deriving DecidableEq

def Decision.name : Decision → GoString
  | approved => bytes "approved"
  | rejected => bytes "rejected"

def Decision.ofName (name : GoString) : Option Decision :=
  [Decision.approved, .rejected].find? fun decision => decision.name == name

structure ApprovalRow where
  id : ID
  projectID : ID
  versionID : ID
  transitionPreviewID : ID
  approvalKind : GoString
  decision : Decision
  scopeType : GoString
  scopeID : GoString
  actor : GoString
  reason : GoString
  riskLevel : GoString
  metadata : Metadata
  createdAt : Time
  deriving DecidableEq

structure CommandRow where
  projectID : ID
  commandType : GoString
  idempotencyKey : GoString
  requestHash : GoString
  response : Metadata
  completed : Bool := false
  deriving DecidableEq

structure EventRow where
  id : ID := 0
  projectID : Option ID
  runID : Option ID
  versionID : Option ID
  eventType : GoString
  severity : GoString
  message : GoString
  metadata : Metadata
  deriving DecidableEq

/-- This is the insert of an event row; the table gives it the next identifier. -/
def appendEvent (events : List EventRow) (row : EventRow) : List EventRow :=
  events ++ [{ row with id := freshID (events.map (·.id)) }]

/-- These tables hold the identities and the state of all projects. -/
structure Database where
  identity : Identity := {}
  versions : List VersionRow := []
  items : List ItemRow := []
  links : List LinkRow := []
  gates : List GateRow := []
  previews : List PreviewRow := []
  approvals : List ApprovalRow := []
  commands : List CommandRow := []
  events : List EventRow := []
  permissions : List PermissionRow := []
  runs : Table RunRow (·.id) := {}
  tasks : Table TaskRow (·.id) := {}
  attempts : Table AttemptRow (·.id) := {}
  workers : Table WorkerRow (·.id) := {}
  heartbeats : Table HeartbeatRow (·.id) := {}
  leases : Table LeaseRow (·.id) := {}
  artifacts : Table ArtifactRow (·.id) := {}
  deriving DecidableEq

/-- This is the lookup of a project by its key; archived projects are found too. -/
def Database.getByKey (db : Database) (projectKey : GoString) : Option ProjectRow :=
  db.identity.projects.find? fun project => project.projectKey == projectKey

/-- This is the row of a command with a key. -/
def Database.command (db : Database) (projectID : ID) (commandType idempotencyKey : GoString) : Option CommandRow :=
  db.commands.find? fun row =>
    row.projectID == projectID && row.commandType == commandType && row.idempotencyKey == idempotencyKey

/-- Newer rows come first, by time and then by identifier. -/
def newerFirst {Row : Type} (key : Row → Time × ID) (first second : Row) : Bool :=
  decide ((key second).1 < (key first).1 ∨ (key second).1 = (key first).1 ∧ (key second).2 ≤ (key first).2)

/-- This is the newest row. -/
def newest {Row : Type} (key : Row → Time × ID) (rows : List Row) : Option Row := firstBy (newerFirst key) rows

/-- These are the newest rows, up to a limit. -/
def newestRows {Row : Type} (key : Row → Time × ID) (limit : Nat) (rows : List Row) : List Row :=
  (rows.insertionSort fun first second => newerFirst key first second).take limit

/-- A reserved command is new, or it repeats a completed one with the same request. -/
inductive Reservation where
  | created (commands : List CommandRow)
  | repeated
  | conflict

/-- This function reserves the idempotency key of a command. -/
def reserveCommandRequest (commands : List CommandRow) (projectID : ID) (commandType idempotencyKey requestHash : GoString) :
    Reservation :=
  match commands.find? fun row =>
    row.projectID == projectID && row.commandType == commandType && row.idempotencyKey == idempotencyKey with
  | none =>
      .created (commands ++ [{ projectID := projectID, commandType := commandType, idempotencyKey := idempotencyKey,
                               requestHash := requestHash, response := [] }])
  | some existing => if existing.requestHash = requestHash then .repeated else .conflict

/-- This function stores the response of a command. -/
def completeCommandRequestResponse (commands : List CommandRow) (projectID : ID) (commandType idempotencyKey : GoString)
    (response : Metadata) : List CommandRow :=
  commands.map fun row =>
    if row.projectID = projectID ∧ row.commandType = commandType ∧ row.idempotencyKey = idempotencyKey then
      { row with response := response, completed := true }
    else row

end AreaFlow.Project
