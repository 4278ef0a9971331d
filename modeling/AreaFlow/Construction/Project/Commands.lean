import AreaFlow.Library.Tx
import AreaFlow.Construction.Project.Workflow

namespace AreaFlow.Project
open Go Auth

/-- These are the errors of the run, worker and lease operations. -/
inductive StoreError where
  | failed (message : GoString)
  | workflow (failure : WorkflowError)
  | incompleteCommand (idempotencyKey : GoString)
  | workerNotFound
  | leaseNotFound
  | noLeaseAvailable (detail : GoString)
  | capabilityDenied (missing : List GoString)
  | runNotFound (detail : GoString)
  | runControlBlocked (blockers : List GoString)
  | previewBlocked (blockers : List GoString)
  | operationBlocked (operation : Operation) (detail : GoString)
  deriving DecidableEq

/-- This function joins texts with a separator. -/
def joined (separator : GoString) (texts : List GoString) : GoString := separator.intercalate texts

/-- This is what an artifact backend returns for stored content. -/
structure Stored where
  backend : GoString
  uri : GoString
  sha256 : GoString
  sizeBytes : Nat
  contentType : GoString
  deriving DecidableEq

/-- These are the facts about a path that the host reports. -/
structure FileInfo where
  isDir : Bool
  isSymlink : Bool
  size : Nat
  deriving DecidableEq

/-- A write set names one file, its expected content and its new content. -/
structure WriteSet where
  operation : GoString
  targetPath : GoString
  targetPathKind : GoString
  expectedBeforeSHA256 : GoString
  expectedBeforeSize : Int
  afterSHA256 : GoString
  afterSize : Int
  content : GoString
  permissionCapabilities : List GoString
  allowedGeneratedPrefixes : List GoString := []
  generatedOnly : Bool := false
  approvalRequired : Bool
  rollbackMode : GoString
  fixtureOrTempProjectOnly : Bool := false
  realAreaMatrixWriteOpened : Bool := false
  deriving DecidableEq

/-- This record holds what the operations use of their host: encoders, the host name, the engine preview, the
artifact backends and the file system. -/
structure Env (Files : Type) where
  codec : Codec
  quote : GoString → GoString
  marshalIndent : Metadata → GoString
  marshalWriteSet : WriteSet → GoString
  parseWriteSet : GoString → Except GoString WriteSet
  hostname : Option GoString
  engineBlocked : ProjectRow → Bool
  writeConfigured : ProjectRow → GoString → GoString → GoString → Files → Files × Except GoString Stored
  readArtifact : ArtifactRow → Files → Except GoString GoString
  evalSymlinks : GoString → Files → Except GoString GoString
  lstat : GoString → Files → Except GoString FileInfo
  stat : GoString → Files → Except GoString FileInfo
  readFile : GoString → Files → Except GoString GoString
  writeFile : GoString → GoString → Files → Files × Except GoString Unit

/-- An operation of the store is a transaction on the database that may act on the file system. -/
abbrev Command (Files Answer : Type) : Type := Tx Files Database StoreError Answer

/-- A committed operation returns a result; a denied one returns an error beside it. -/
structure Answer (Result : Type) where
  result : Result
  failure : Option StoreError := none

def metadataInt64 (metadata : Metadata) (key : GoString) : Int :=
  match metadataGet metadata key with
  | some (.number value) => value
  | _ => 0

def metadataString (metadata : Metadata) (key : GoString) : GoString :=
  match metadataGet metadata key with
  | some (.text value) => value
  | _ => []

def metadataBool (metadata : Metadata) (key : GoString) : Bool :=
  match metadataGet metadata key with
  | some (.flag value) => value
  | some (.text value) => value == bytes "true"
  | _ => false

def metadataStringSlice (metadata : Metadata) (key : GoString) : List GoString :=
  match metadataGet metadata key with
  | some (.texts values) => values
  | _ => []

/-- A stored list of texts is read without its blank members. -/
def stringSliceFromAny (value : Option MetaValue) : List GoString :=
  match value with
  | some (.texts values) => (values.map trimSpace).filter fun text => text != []
  | _ => []

/-- A stored list of numbers is read without its zeros. -/
def int64SliceFromAny (value : Option MetaValue) : List Int :=
  match value with
  | some (.numbers values) => values.filter fun number => number != 0
  | _ => []

/-- This is an absent reference read as zero. -/
def orZero (id : Option ID) : ID := id.getD 0

section Commands

variable {Files A : Type}

/-- This operation reserves a command and tells whether it is new. -/
def reserve (projectID : ID) (commandType idempotencyKey requestHash : GoString) : Command Files Bool := fun files db =>
  match reserveCommandRequest db.commands projectID commandType idempotencyKey requestHash with
  | .created commands => (files, .ok (true, { db with commands := commands }))
  | .repeated => (files, .ok (false, db))
  | .conflict => (files, .error (.workflow (.idempotencyConflict idempotencyKey)))

/-- This operation stores the response of a command. -/
def complete (projectID : ID) (commandType idempotencyKey : GoString) (response : Metadata) : Command Files Unit :=
  Tx.write fun db =>
    ((), { db with
      commands := completeCommandRequestResponse db.commands projectID commandType idempotencyKey response })

/-- This function reads the response of a completed command. -/
def loadCommandResponse (db : Database) (projectID : ID) (commandType idempotencyKey : GoString) :
    Except StoreError Metadata :=
  match db.commands.find? (fun row =>
      row.projectID == projectID && row.commandType == commandType && row.idempotencyKey == idempotencyKey) with
  | none => .error (.failed (bytes "load command response"))
  | some command => if command.completed then .ok command.response else .error (.incompleteCommand idempotencyKey)

/-- A new command runs its body; a repeated one is answered from its stored response. -/
def once (projectID : ID) (commandType idempotencyKey requestHash : GoString) (body replay : Command Files A) :
    Command Files A := do
  let created ← reserve projectID commandType idempotencyKey requestHash
  if created then body else replay

/-- This operation inserts an event and answers with its identifier. -/
def insertEvent (row : EventRow) : Command Files ID :=
  Tx.write fun db => (freshID (db.events.map (·.id)), { db with events := appendEvent db.events row })

/-- This operation inserts an audit row and answers with its identifier. -/
def insertAuditEvent (row : AuditRow) : Command Files ID :=
  Tx.write fun db =>
    (freshID (db.identity.audits.map (·.id)),
      { db with identity := { db.identity with audits := appendAudit db.identity.audits row } })

def insertRun (new : Table.New RunRow (·.id)) : Command Files RunRow :=
  Tx.write fun db => (db.runs.next new, { db with runs := db.runs.insert new })

def insertRunTask (new : Table.New TaskRow (·.id)) : Command Files TaskRow :=
  Tx.write fun db => (db.tasks.next new, { db with tasks := db.tasks.insert new })

def insertRunAttempt (new : Table.New AttemptRow (·.id)) : Command Files AttemptRow :=
  Tx.write fun db => (db.attempts.next new, { db with attempts := db.attempts.insert new })

/-- This operation inserts the row of an artifact. -/
def insertArtifact (new : Table.New ArtifactRow (·.id)) : Command Files ArtifactRow :=
  Tx.write fun db => (db.artifacts.next new, { db with artifacts := db.artifacts.insert new })

def insertLease (new : Table.New LeaseRow (·.id)) : Command Files LeaseRow :=
  Tx.write fun db => (db.leases.next new, { db with leases := db.leases.insert new })

/-- This operation changes the chosen leases. -/
def updateLeases (chosen : LeaseRow → Bool) (change : Table.Change LeaseRow (·.id)) : Command Files Unit :=
  Tx.write fun db => ((), { db with leases := db.leases.update chosen change })

/-- This operation changes a worker. -/
def updateWorker (workerID : ID) (change : Table.Change WorkerRow (·.id)) : Command Files Unit :=
  Tx.write fun db => ((), { db with workers := db.workers.update (·.id == workerID) change })

/-- This change sets the status of a task. -/
def setStatus (status : TaskStatus) : Table.Change TaskRow (·.id) where
  apply task := { task with status := status }
  keeps _ := rfl

/-- This operation sets the status of a task; the absent task is skipped. -/
def updateRunTaskStatus (taskID : ID) (status : TaskStatus) : Command Files Unit :=
  Tx.write fun db =>
    ((), if taskID = 0 then db else { db with tasks := db.tasks.update (·.id == taskID) (setStatus status) })

/-- This operation adds entries to the metadata of a task. -/
def updateRunTaskMetadata (taskID : ID) (additions : Metadata) : Command Files Unit :=
  Tx.write fun db =>
    ((), { db with
      tasks := db.tasks.update (·.id == taskID)
        ⟨fun task => { task with metadata := setKeys task.metadata additions }, fun _ => rfl⟩ })

/-- This operation replaces a run. -/
def updateRun (runID : ID) (change : Table.Change RunRow (·.id)) : Command Files Unit :=
  Tx.write fun db => ((), { db with runs := db.runs.update (·.id == runID) change })

abbrev loadRunForUpdate (runID : ID) : Command Files RunRow :=
  Tx.check fun db =>
    match db.runs.rows.find? (·.id == runID) with
    | none => .error (.runNotFound [])
    | some run => .ok run

abbrev loadRunTaskByID (projectID taskID : ID) : Command Files TaskRow :=
  Tx.check fun db =>
    match db.tasks.rows.find? fun task => task.projectID == projectID && task.id == taskID with
    | none => .error (.failed (bytes "load run task by id"))
    | some task => .ok task

abbrev loadRunAttemptByID (projectID attemptID : ID) : Command Files AttemptRow :=
  Tx.check fun db =>
    match db.attempts.rows.find? fun attempt => attempt.projectID == projectID && attempt.id == attemptID with
    | none => .error (.failed (bytes "load run attempt by id"))
    | some attempt => .ok attempt

abbrev loadArtifactByIDTx (projectID artifactID : ID) : Command Files ArtifactRow :=
  Tx.check fun db =>
    match db.artifacts.rows.find? fun artifact => artifact.projectID == projectID && artifact.id == artifactID with
    | none => .error (.failed (bytes "load artifact by id"))
    | some artifact => .ok artifact

/-- This function loads a version of a project by its identifier. -/
def workflowVersionByID (db : Database) (projectID : ID) (versionID : ID) : Except StoreError VersionRow :=
  match db.versions.find? fun version => version.projectID == projectID && version.id == versionID with
  | none => .error (.workflow (.versionNotFound (bytes "id " ++ sprintID versionID)))
  | some version => .ok version

/-- An artifact is stored below the key of its project. -/
def writeProjectArtifact (env : Env Files) (record : ProjectRow) (relativePath content contentType : GoString) :
    Command Files Stored :=
  let clean := pathClean relativePath
  if clean = bytes "." ∨ clean.head? = some slash ∨ hasPrefix clean (bytes "../") = true then
    Tx.fail (.failed (bytes "artifact path must stay under project artifact namespace"))
  else Tx.act fun files =>
    match env.writeConfigured record (pathJoin [record.projectKey, clean]) content contentType files with
    | (files', .error failure) => (files', .error (.failed failure))
    | (files', .ok stored) => (files', .ok stored)

/-- This is the new row of a stored artifact. -/
def storedArtifact (now : Time) (projectID : ID) (versionID runID itemID : Option ID) (artifactType sourcePath : GoString)
    (stored : Stored) (metadata : Metadata) : Table.New ArtifactRow (·.id) :=
  ⟨fun id =>
    { id := id, projectID := projectID, versionID := versionID, runID := runID, itemID := itemID,
      artifactType := artifactType, storageBackend := stored.backend, uri := stored.uri, sourcePath := sourcePath,
      sha256 := stored.sha256, sizeBytes := stored.sizeBytes, contentType := stored.contentType,
      metadata := metadata, createdAt := now }, fun _ => rfl⟩

/-- This operation inserts the row of a stored artifact of a run. -/
abbrev insertRunArtifactRecord (now : Time) (projectID : ID) (versionID : Option ID) (runID : ID) (itemID : Option ID)
    (artifactType sourcePath : GoString) (stored : Stored) (metadata : Metadata) : Command Files ArtifactRow :=
  insertArtifact (storedArtifact now projectID versionID (some runID) itemID artifactType sourcePath stored metadata)

end Commands

end AreaFlow.Project
