import AreaFlow.Construction.Project.Runner

namespace AreaFlow.Project
open Go Auth

namespace Operation

def queueCommandType : Operation → GoString
  | fixtureExecution => bytes "run.fixture_queue"
  | readOnlyVerify => bytes "run.read_only_verify_queue"
  | approvedArtifactWrite => bytes "run.approved_artifact_write_queue"
  | fixtureProjectWrite => bytes "run.fixture_project_write_queue"
  | managedGeneratedWrite => bytes "run.managed_generated_write_queue"

def queueReason : Operation → GoString
  | fixtureExecution => bytes "queue fixture execution run"
  | readOnlyVerify => bytes "queue read-only verify run"
  | approvedArtifactWrite => bytes "queue approved artifact write run"
  | fixtureProjectWrite => bytes "queue fixture project write run"
  | managedGeneratedWrite => bytes "queue managed generated write run"

def queueMessage : Operation → GoString
  | fixtureExecution => bytes "Fixture execution run queued"
  | readOnlyVerify => bytes "Read-only verify run queued"
  | approvedArtifactWrite => bytes "Approved artifact write run queued"
  | fixtureProjectWrite => bytes "Fixture project write run queued"
  | managedGeneratedWrite => bytes "Managed generated write run queued"

/-- The operations that write to a project have a higher risk. -/
def riskLevel : Operation → GoString
  | fixtureProjectWrite | managedGeneratedWrite => bytes "medium"
  | _ => bytes "low"

/-- This is the directory of an operation in the artifact store. -/
def directory : Operation → GoString
  | fixtureExecution => bytes "fixture-execution"
  | readOnlyVerify => bytes "read-only-verify"
  | approvedArtifactWrite => bytes "approved-artifact-write"
  | fixtureProjectWrite => bytes "fixture-project-write"
  | managedGeneratedWrite => bytes "managed-generated-write"

end Operation

/-- These are the options that every queue operation has. -/
structure QueueOptions where
  idempotencyKey : GoString := []
  actor : GoString := []
  reason : GoString := []
  deriving DecidableEq

/-- This is a requested change of one file. -/
structure WriteRequest where
  targetPath : GoString
  content : GoString
  expectedBeforeSHA256 : GoString
  expectedBeforeSize : Int
  deriving DecidableEq

structure QueueResult where
  project : ProjectRow
  version : VersionRow
  run : RunRow
  task : TaskRow
  writeSetArtifact : Option ArtifactRow
  details : Metadata
  created : Bool
  idempotencyKey : GoString
  eventID : ID
  auditEventID : ID

/-- This record is what a member of the family decides about its run: the fields of its hash, of the summary and the
metadata of its run, and of its task, and the end of the task key. Markers that are the same in every row of an operation are left out. -/
structure QueuePlan where
  operation : Operation
  payload : Metadata
  summary : Metadata
  runDetails : Metadata
  taskDetails : Metadata
  taskKey : GoString
  deriving DecidableEq

def normalizeQueueOptions (operation : Operation) (options : QueueOptions) : QueueOptions where
  idempotencyKey := trimSpace options.idempotencyKey
  actor := textOr (bytes "local-user") options.actor
  reason := textOr operation.queueReason options.reason

section Queue

variable {Files : Type} (env : Env Files) (now : Time) (record : ProjectRow) (version : VersionRow)

/-- A queued run waits for its operation; it is not a dry run. -/
def queuedRun (plan : QueuePlan) (options : QueueOptions) (id : ID) : RunRow where
  id := id
  projectID := some record.id
  versionID := some version.id
  runType := .operation plan.operation
  executionKind := true
  status := .queued
  riskLevel := plan.operation.riskLevel
  riskPolicy := bytes "pause"
  dryRun := false
  summary := plan.summary
  metadata := fields
    [[(bytes "actor", .text options.actor), (bytes "reason", .text options.reason)], plan.runDetails,
      if plan.operation = .fixtureExecution then [(bytes "idempotency_key", .text options.idempotencyKey)] else []]
  startedAt := now
  finishedAt := none

def queuedTask (plan : QueuePlan) (options : QueueOptions) (runID : ID) (id : ID) : TaskRow where
  id := id
  projectID := record.id
  versionID := some version.id
  itemID := none
  runID := runID
  taskKey := version.displayLabel ++ bytes ":" ++ plan.taskKey
  taskKind := .task plan.operation
  status := .queued
  riskLevel := plan.operation.riskLevel
  sequence := 1
  metadata := fields [[(bytes "actor", .text options.actor), (bytes "reason", .text options.reason)], plan.taskDetails]
  createdAt := now

/-- These fields stand in the event and in the audit row of a queued run. -/
def queueMetadata (options : QueueOptions) (run : RunRow) (task : TaskRow) (details : Metadata) : Metadata := fields
  [[(bytes "project_key", .text record.projectKey), (bytes "workflow_version_id", .number version.id),
    (bytes "display_label", .text version.displayLabel), (bytes "run_id", .number run.id),
    (bytes "run_task_id", .number task.id)], details,
    [(bytes "actor", .text options.actor), (bytes "idempotency_key", .text options.idempotencyKey)]]

def queueCommandResponse (result : QueueResult) : Metadata := fields
  [[(bytes "project_id", .number result.project.id), (bytes "project_key", .text result.project.projectKey),
    (bytes "workflow_version_id", .number result.version.id),
    (bytes "display_label", .text result.version.displayLabel), (bytes "run_id", .number result.run.id),
    (bytes "run_task_id", .number result.task.id)], result.details,
    [(bytes "event_id", .number result.eventID), (bytes "audit_event_id", .number result.auditEventID)]]

/-- These are the keys of what a queue operation was asked to do. -/
def queueDetailKeys : List GoString :=
  [bytes "write_set_artifact_id", bytes "target_path", bytes "artifact_label", bytes "expected_before_sha256",
    bytes "expected_before_size", bytes "after_sha256", bytes "after_size"]

/-- These are the fields of a stored response that say what was asked. -/
def detailsOf (response : Metadata) : Metadata := response.filter fun entry => queueDetailKeys.contains entry.1

/-- An artifact that a response does not name is not loaded. -/
def loadNamedArtifact (projectID : ID) (response : Metadata) (key : GoString) : Command Files (Option ArtifactRow) :=
  let artifactID := metadataInt64 response key
  if artifactID = 0 then pure none
  else do
    let artifact ← loadArtifactByIDTx projectID artifactID
    pure (some artifact)

/-- A repeated queue command is answered from its stored response. -/
def loadQueueByCommandResponse (operation : Operation) (idempotencyKey : GoString) : Command Files QueueResult := do
  let response ← Tx.check fun db => loadCommandResponse db record.id operation.queueCommandType idempotencyKey
  let run ← loadRunForUpdate (metadataInt64 response (bytes "run_id"))
  let task ← loadRunTaskByID record.id (metadataInt64 response (bytes "run_task_id"))
  let writeSetArtifact ← loadNamedArtifact record.id response (bytes "write_set_artifact_id")
  pure { project := record, version := version, run := run, task := task, writeSetArtifact := writeSetArtifact,
         details := detailsOf response, created := false, idempotencyKey := idempotencyKey, eventID := metadataInt64 response (bytes "event_id"),
         auditEventID := metadataInt64 response (bytes "audit_event_id") }

/-- This is what a member adds to its run: the changed task, the stored write set and what was asked. -/
structure Extension where
  task : TaskRow
  writeSetArtifact : Option ArtifactRow
  details : Metadata

/-- The body of every queue operation: a run with one task, what the member adds to it, and its records. -/
def queueRun (plan : QueuePlan) (raw : QueueOptions) (extend : RunRow → TaskRow → Command Files Extension) :
    Command Files (Except StoreError QueueResult) :=
  let named := normalizeQueueOptions plan.operation raw
  let hash := requestHash env.codec (fields
    [plan.payload, [(bytes "actor", .text named.actor), (bytes "reason", .text named.reason)]])
  let options := { named with
    idempotencyKey := keyOr named.idempotencyKey
      (colons [plan.operation.queueCommandType, record.projectKey, version.displayLabel, commandHashPart hash]) }
  once record.id plan.operation.queueCommandType options.idempotencyKey hash
    (do
      let run ← insertRun ⟨queuedRun now record version plan options, fun _ => rfl⟩
      let queued ← insertRunTask ⟨queuedTask now record version plan options run.id, fun _ => rfl⟩
      let added ← extend run queued
      let metadata := queueMetadata record version options run added.task added.details
      let eventID ← insertEvent
        { projectID := some record.id, runID := some run.id, versionID := some version.id,
          eventType := plan.operation.queueCommandType ++ bytes ".created", severity := bytes "info",
          message := plan.operation.queueMessage, metadata := metadata }
      let auditEventID ← insertAuditEvent
        { projectID := some record.id, actorID := none, action := plan.operation.queueCommandType,
          capability := bytes "manage_runs", resourceType := bytes "run", resource := sprintID run.id,
          decision := bytes "allowed", reason := options.reason, metadata := metadata }
      let result : QueueResult :=
        { project := record, version := version, run := run, task := added.task,
          writeSetArtifact := added.writeSetArtifact, details := added.details, created := true, idempotencyKey := options.idempotencyKey, eventID := eventID, auditEventID := auditEventID }
      complete record.id plan.operation.queueCommandType options.idempotencyKey (queueCommandResponse result)
      pure (.ok result))
    (do
      let result ← loadQueueByCommandResponse record version plan.operation options.idempotencyKey
      pure (.ok result))

/-- Most members add nothing to the task. -/
def unextended (details : Metadata) (_ : RunRow) (task : TaskRow) : Command Files Extension :=
  pure { task := task, writeSetArtifact := none, details := details }

/-- These fields open the hash of most members. -/
def queuePayload (operation : Operation) (details : Metadata) : Metadata := fields
  [[(bytes "command_type", .text operation.queueCommandType), (bytes "project_id", .number record.id),
    (bytes "project_key", .text record.projectKey), (bytes "version_id", .number version.id),
    (bytes "display_label", .text version.displayLabel)], details]

end Queue

/-- This loop keeps the bytes of a file name and writes one dash for a run of others. -/
def labelBytes : Bool → GoString → GoString
  | _, [] => []
  | lastDash, b :: rest =>
      if isAlphanumeric b || b == 95 || b == 46 then b :: labelBytes false rest
      else if lastDash then labelBytes true rest
      else 45 :: labelBytes true rest

/-- This function removes dashes and dots at both ends. -/
def trimDashes (label : GoString) : GoString :=
  (label.dropWhile fun b => b == 45 || b == 46).rdropWhile fun b => b == 45 || b == 46

def normalizeApprovedArtifactLabel (label : GoString) : GoString :=
  let normalized := trimDashes (labelBytes false (trimSpace label))
  let cut := if 80 < normalized.length then trimDashes (normalized.take 80) else normalized
  if trimSpace label = [] ∨ normalized = [] ∨ cut = [] then bytes "approved-artifact" else cut

/-- This is the largest content of a queued write. -/
def maxWriteContentBytes : Nat := 256 * 1024

/-- A write request names a project path and a lower-case hash. -/
def normalizeWriteRequest (codec : Codec) (request : WriteRequest) : WriteRequest :=
  { request with
    targetPath := normalizeProjectRelativePath request.targetPath
    expectedBeforeSHA256 := codec.lowerText (trimSpace request.expectedBeforeSHA256) }

/-- These fields describe a write by its hashes and sizes. -/
def writeDetails (codec : Codec) (request : WriteRequest) : Metadata :=
  [(bytes "target_path", .text request.targetPath),
    (bytes "expected_before_sha256", .text request.expectedBeforeSHA256),
    (bytes "expected_before_size", .number request.expectedBeforeSize),
    (bytes "after_sha256", .text (codec.sha256Hex request.content)), (bytes "after_size", .number request.content.length)]

/-- This is the kind of the file that a write operation changes. -/
def Operation.targetKind (operation : Operation) : GoString :=
  if operation = .managedGeneratedWrite then bytes "generated_file" else bytes "fixture_file"

/-- The two write operations differ in the kind of their target and in what their write set allows. -/
def Operation.writeSet (operation : Operation) (codec : Codec) (request : WriteRequest) : WriteSet where
  operation := bytes "modify"
  targetPath := request.targetPath
  targetPathKind := operation.targetKind
  expectedBeforeSHA256 := request.expectedBeforeSHA256
  expectedBeforeSize := request.expectedBeforeSize
  afterSHA256 := codec.sha256Hex request.content
  afterSize := request.content.length
  content := request.content
  permissionCapabilities := [bytes "read_project", bytes "write_artifacts",
    if operation = .managedGeneratedWrite then bytes "write_generated" else bytes "write_code"]
  allowedGeneratedPrefixes := if operation = .managedGeneratedWrite then managedGeneratedWritePrefixes else []
  generatedOnly := operation = .managedGeneratedWrite
  approvalRequired := true
  rollbackMode := bytes "restore_preimage"
  fixtureOrTempProjectOnly := operation = .managedGeneratedWrite
  realAreaMatrixWriteOpened := false

/-- This is the path of a file of a task in the artifact store. -/
def taskArtifactPath (operation : Operation) (version : VersionRow) (run : RunRow) (task : TaskRow) (ending : GoString) :
    GoString :=
  pathJoin [bytes "versions", version.displayLabel, operation.directory,
    bytes "run-" ++ sprintID run.id ++ bytes "-task-" ++ sprintID task.id ++ bytes "-" ++ ending]

section Members

variable {Files : Type} (env : Env Files) (now : Time) (record : ProjectRow) (label : GoString)

/-- A write operation stores its write set as an artifact and names it in the task. -/
def storeWriteSet (operation : Operation) (version : VersionRow) (options : QueueOptions) (request : WriteRequest)
    (run : RunRow) (task : TaskRow) : Command Files Extension := do
  let relativePath := taskArtifactPath operation version run task (bytes "write-set.json")
  let stored ← writeProjectArtifact env record relativePath
    (env.marshalWriteSet (operation.writeSet env.codec request)) (bytes "application/json")
  let artifact ← insertRunArtifactRecord now record.id (some version.id) run.id task.itemID
    (operation.name ++ bytes "_set") relativePath stored (fields
      [[(bytes "artifact_role", .text (bytes "approved_write_set"))], writeDetails env.codec request,
        [(bytes "actor", .text options.actor), (bytes "reason", .text options.reason)]])
  let details : Metadata := (bytes "write_set_artifact_id", .number artifact.id) :: writeDetails env.codec request
  updateRunTaskMetadata task.id details
  pure { task := { task with metadata := setKey task.metadata (bytes "write_set_artifact_id") (.number artifact.id) }
         writeSetArtifact := some artifact, details := details }

/-- This operation queues a fixture execution of an authored version. -/
def queueFixtureExecution (options : QueueOptions) : Command Files (Except StoreError QueueResult) := do
  let version ← liftWorkflow fun db => getAuthoredVersion db record label
  queueRun env now record version
    { operation := .fixtureExecution
      payload := [(bytes "command_type", .text (bytes "run.fixture_queue")), (bytes "project_key", .text record.projectKey),
        (bytes "version", .text version.displayLabel)]
      summary := [(bytes "task_count", .number 1)], runDetails := [], taskDetails := [], taskKey := bytes "fixture-execution" }
    options (unextended [])

/-- This operation queues the verification of one project file. -/
def queueReadOnlyVerify (rawPath : GoString) (options : QueueOptions) : Command Files (Except StoreError QueueResult) := do
  let version ← liftWorkflow fun db => getAuthoredVersion db record label
  let targetPath := normalizeProjectRelativePath rawPath
  let details : Metadata := [(bytes "target_path", .text targetPath)]
  if targetPath = [] then Tx.fail (.failed (bytes "target path is required"))
  else
    queueRun env now record version
      { operation := .readOnlyVerify, payload := queuePayload record version .readOnlyVerify details
        summary := details, runDetails := details, taskDetails := details
        taskKey := bytes "read-only-verify:" ++ targetPath }
      options (unextended details)

/-- This operation queues the write of one artifact. -/
def queueApprovedArtifactWrite (rawLabel : GoString) (options : QueueOptions) :
    Command Files (Except StoreError QueueResult) := do
  let version ← liftWorkflow fun db => getAuthoredVersion db record label
  let artifactLabel := normalizeApprovedArtifactLabel rawLabel
  let details : Metadata := [(bytes "artifact_label", .text artifactLabel)]
  queueRun env now record version
    { operation := .approvedArtifactWrite, payload := queuePayload record version .approvedArtifactWrite details
      summary := details, runDetails := details, taskDetails := details
      taskKey := bytes "approved-artifact-write:" ++ artifactLabel }
    options (unextended details)

/-- This is the queue of a checked write of one file. -/
def queueWrite (operation : Operation) (version : VersionRow) (request : WriteRequest) (options : QueueOptions) :
    Command Files (Except StoreError QueueResult) :=
  let details := writeDetails env.codec request
  queueRun env now record version
    { operation := operation
      payload := queuePayload record version operation (fields
        [details, [(bytes "content_sha256", .text (env.codec.sha256Hex request.content)),
          (bytes "content_size", .number request.content.length)]])
      summary := details, runDetails := [(bytes "target_path", .text request.targetPath)]
      taskDetails := (bytes "operation", .text (bytes "modify")) :: (bytes "target_path_kind", .text operation.targetKind) ::
        details
      taskKey := operation.directory ++ bytes ":" ++ request.targetPath }
    options (storeWriteSet env now record operation version (normalizeQueueOptions operation options) request)

/-- This operation queues the write of one file of a fixture project. -/
def queueFixtureProjectWrite (raw : WriteRequest) (options : QueueOptions) :
    Command Files (Except StoreError QueueResult) := do
  let version ← liftWorkflow fun db => getAuthoredVersion db record label
  let request := normalizeWriteRequest env.codec raw
  if request.targetPath = [] then Tx.fail (.failed (bytes "target path is required"))
  else if request.expectedBeforeSHA256 = [] then Tx.fail (.failed (bytes "expected before sha256 is required"))
  else if maxWriteContentBytes < request.content.length then
    Tx.fail (.failed (bytes "fixture project write content exceeds 262144 bytes"))
  else queueWrite env now record .fixtureProjectWrite version request options

/-- This operation queues the write of one generated file. -/
def queueManagedGeneratedWrite (raw : WriteRequest) (options : QueueOptions) :
    Command Files (Except StoreError QueueResult) := do
  let version ← liftWorkflow fun db => getAuthoredVersion db record label
  let request := normalizeWriteRequest env.codec raw
  if request.targetPath = [] then Tx.fail (.failed (bytes "target path is required"))
  else if !isManagedGeneratedPath request.targetPath then
    Tx.fail (.failed (bytes "target path must stay under generated-only prefixes"))
  else if request.expectedBeforeSHA256 = [] then Tx.fail (.failed (bytes "expected before sha256 is required"))
  else if maxWriteContentBytes < request.content.length then
    Tx.fail (.failed (bytes "managed generated write content exceeds 262144 bytes"))
  else queueWrite env now record .managedGeneratedWrite version request options

end Members

end AreaFlow.Project
