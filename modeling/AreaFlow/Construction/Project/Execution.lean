import AreaFlow.Construction.Project.Files
import AreaFlow.Construction.Project.Gate
import AreaFlow.Construction.Project.RunControl

namespace AreaFlow.Project
open Go Auth

namespace Operation

def applyCommandType : Operation → GoString
  | fixtureExecution => bytes "worker.fixture_execute"
  | readOnlyVerify => bytes "worker.read_only_verify"
  | approvedArtifactWrite => bytes "worker.approved_artifact_write"
  | fixtureProjectWrite => bytes "worker.fixture_project_write"
  | managedGeneratedWrite => bytes "worker.managed_generated_write"

/-- This is the name of an operation in its messages. -/
def title : Operation → GoString
  | fixtureExecution => bytes "fixture execution"
  | readOnlyVerify => bytes "read-only verify"
  | approvedArtifactWrite => bytes "approved artifact write"
  | fixtureProjectWrite => bytes "fixture project write"
  | managedGeneratedWrite => bytes "managed generated write"

def gateMessage : Operation → GoString
  | fixtureExecution => bytes "execution approval gate blocked"
  | operation => operation.title ++ bytes " gate blocked"

def doneMessage : Operation → GoString
  | fixtureExecution => bytes "fixture execution applied in AreaFlow state only"
  | readOnlyVerify => bytes "read-only verify completed without managed project writes"
  | approvedArtifactWrite => bytes "approved artifact write completed in AreaFlow artifact store only"
  | fixtureProjectWrite => bytes "fixture project write verified and rolled back"
  | managedGeneratedWrite => bytes "managed generated write verified and rolled back in fixture/temp project"

/-- These are the capabilities that a request asks for if it names none. -/
def capabilities : Operation → List GoString
  | fixtureExecution => [bytes "execute_agents", bytes "read_project", bytes "run_commands", bytes "write_artifacts"]
  | readOnlyVerify => [bytes "read_project", bytes "write_artifacts"]
  | approvedArtifactWrite => [bytes "write_artifacts"]
  | fixtureProjectWrite => [bytes "read_project", bytes "write_artifacts", bytes "write_code"]
  | managedGeneratedWrite => [bytes "read_project", bytes "write_artifacts", bytes "write_generated"]

/-- These capabilities of the project are checked besides those of the worker, each with the message of its denial. -/
def projectCapabilities : Operation → List (GoString × GoString)
  | fixtureExecution | readOnlyVerify => []
  | approvedArtifactWrite | fixtureProjectWrite => [(bytes "write_artifacts", bytes "project artifact write denied")]
  | managedGeneratedWrite =>
      [(bytes "write_artifacts", bytes "project artifact write denied"),
        (bytes "write_generated", bytes "project generated write denied")]

/-- This is the status of a task after the operation succeeded. -/
def taskDone : Operation → TaskStatus
  | fixtureExecution => .passed
  | readOnlyVerify => .verified
  | approvedArtifactWrite => .artifactWritten
  | fixtureProjectWrite | managedGeneratedWrite => .rollbackVerified

/-- This is the status of a run after its last task. -/
def runDone : Operation → RunStatus
  | fixtureExecution => .passed
  | readOnlyVerify => .verified
  | approvedArtifactWrite => .artifactWritten
  | fixtureProjectWrite | managedGeneratedWrite => .rollbackVerified

/-- This key of a run summary counts the finished tasks. -/
def countKey : Operation → GoString
  | fixtureExecution => bytes "passed_task_count"
  | approvedArtifactWrite => bytes "artifact_written_task_count"
  | _ => bytes "verified_task_count"

/-- These are the capability and the resource type in the audit row of an operation. -/
def audited : Operation → GoString × GoString
  | fixtureExecution => (bytes "execute_agents", bytes "run")
  | readOnlyVerify => (bytes "read_project", bytes "path")
  | approvedArtifactWrite => (bytes "write_artifacts", bytes "artifact")
  | fixtureProjectWrite => (bytes "write_code", bytes "path")
  | managedGeneratedWrite => (bytes "write_generated", bytes "path")

/-- The operations that change a file of the project, and put it back. -/
def writes : Operation → Bool
  | fixtureProjectWrite | managedGeneratedWrite => true
  | _ => false

/-- These are the fields of a result before anything is known about its target. -/
def blankDetails : Operation → Metadata
  | fixtureExecution => []
  | readOnlyVerify =>
      [(bytes "target_path", .text []), (bytes "target_sha256", .text []), (bytes "target_size_bytes", .number 0)]
  | approvedArtifactWrite => [(bytes "artifact_label", .text [])]
  | fixtureProjectWrite | managedGeneratedWrite =>
      [(bytes "target_path", .text []), (bytes "expected_before_sha256", .text []),
        (bytes "expected_before_size", .number 0), (bytes "after_sha256", .text []), (bytes "after_size", .number 0),
        (bytes "restored_sha256", .text []), (bytes "restored_size", .number 0)]

/-- These keys name the attempts of an operation in its response. -/
def attemptKeys (operation : Operation) : List GoString :=
  if operation.writes then [bytes "copy_attempt_id", bytes "verify_attempt_id", bytes "rollback_attempt_id"]
  else [bytes "attempt_id"]

/-- These keys name the artifacts of an operation in its response. -/
def artifactKeys (operation : Operation) : List GoString :=
  if operation.writes then [bytes "write_set_artifact_id", bytes "preimage_artifact_id", bytes "artifact_id"]
  else [bytes "artifact_id"]

/-- A repeated managed write does not load its attempts. -/
def replayedAttemptKeys : Operation → List GoString
  | managedGeneratedWrite => []
  | operation => operation.attemptKeys

/-- A repeated managed write loads its report only. -/
def replayedArtifactKeys : Operation → List GoString
  | managedGeneratedWrite => [bytes "artifact_id"]
  | operation => operation.artifactKeys

end Operation

structure ExecutionOptions where
  workerKey : GoString
  runID : ID
  allowedCapabilities : List GoString := []
  leaseTimeoutSeconds : Int := 0
  metadata : Metadata := []
  idempotencyKey : GoString := []
  actor : GoString := []
  reason : GoString := []
  deriving DecidableEq

def normalizeExecutionOptions (operation : Operation) (options : ExecutionOptions) : ExecutionOptions where
  workerKey := trimSpace options.workerKey
  runID := options.runID
  allowedCapabilities := capabilitiesOr operation.capabilities options.allowedCapabilities
  leaseTimeoutSeconds := positiveOr 300 options.leaseTimeoutSeconds
  metadata := options.metadata
  idempotencyKey := trimSpace options.idempotencyKey
  actor := textOr (bytes "local-user") options.actor
  reason := textOr (bytes "approval-gated " ++ operation.title) options.reason

/-- The hash of a verification leaves the metadata of the lease out; a fixture execution names its project by key. -/
def executionRequestHash (codec : Codec) (operation : Operation) (record : ProjectRow) (options : ExecutionOptions) :
    GoString :=
  requestHash codec (fields
    [[(bytes "command_type", .text operation.applyCommandType), (bytes "project_key", .text record.projectKey),
      (bytes "worker_key", .text options.workerKey), (bytes "run_id", .number options.runID),
      (bytes "allowed_capabilities", .texts options.allowedCapabilities)],
      if operation = .fixtureExecution then [(bytes "lease_timeout", .number options.leaseTimeoutSeconds)]
      else [(bytes "lease_timeout_seconds", .number options.leaseTimeoutSeconds), (bytes "project_id", .number record.id)],
      if operation = .readOnlyVerify then [] else [(bytes "metadata", .json (codec.marshal options.metadata))],
      [(bytes "actor", .text options.actor), (bytes "reason", .text options.reason)]])

def executionIdempotencyKey (operation : Operation) (record : ProjectRow) (options : ExecutionOptions) (hash : GoString) :
    GoString :=
  colons [operation.applyCommandType, record.projectKey, options.workerKey, sprintID options.runID, commandHashPart hash]

/-- The attempts and artifacts of a result are listed under their keys in the response. -/
structure ExecutionResult where
  project : ProjectRow
  version : VersionRow
  run : RunRow
  worker : Option WorkerRow
  task : Option TaskRow := none
  lease : Option LeaseRow := none
  attempts : List (GoString × AttemptRow) := []
  artifacts : List (GoString × ArtifactRow) := []
  gate : List ReadinessItem
  details : Metadata
  status : GoString
  decision : GoString
  message : GoString
  blockers : List GoString := []
  created : Bool
  idempotencyKey : GoString
  eventID : ID := 0
  auditEventID : ID := 0
  deriving DecidableEq

/-- A denial has a message and blockers, and the operation then returns an error. -/
structure Denial where
  message : GoString
  blockers : List GoString
  failure : StoreError
  details : Metadata := []
  artifacts : List (GoString × ArtifactRow) := []

/-- Most denials return their blockers as the error. -/
def blocked (operation : Operation) (message : GoString) (blockers : List GoString) (details : Metadata)
    (artifacts : List (GoString × ArtifactRow)) : Denial where
  message := message
  blockers := blockers
  failure := .operationBlocked operation (joined (bytes "; ") blockers)
  details := details
  artifacts := artifacts

/-- A project names one of some words in its key or in its kind. -/
def namesOneOf (codec : Codec) (record : ProjectRow) (words : List GoString) : Bool :=
  words.any fun word =>
    containsText (codec.lowerText record.projectKey) word || containsText (codec.lowerText record.kind) word

def isFixtureProjectRecord (codec : Codec) (record : ProjectRow) : Bool := namesOneOf codec record [bytes "fixture"]

def isFixtureOrTempProjectRecord (codec : Codec) (record : ProjectRow) : Bool :=
  namesOneOf codec record [bytes "fixture", bytes "temp", bytes "temporary"]

/-- Files are written only in projects that are marked for it. -/
def scopeDenial (codec : Codec) (operation : Operation) (record : ProjectRow) : Option Denial :=
  match operation with
  | .fixtureProjectWrite =>
      if isFixtureProjectRecord codec record then none
      else some { message := bytes "project is not marked as fixture"
                  blockers := [bytes "fixture_project_write requires project key or kind to contain fixture"]
                  failure := .operationBlocked operation (bytes "project is not fixture scoped") }
  | .managedGeneratedWrite =>
      if isFixtureOrTempProjectRecord codec record then none
      else some { message := bytes "project is not fixture/temp scoped"
                  blockers := [bytes "managed generated write requires project key or kind to contain fixture or temp"]
                  failure := .operationBlocked operation (bytes "project is not fixture/temp scoped") }
  | _ => none

/-- This is the loop over the capability rows of a project. -/
def scanCapability (capability : GoString) : Bool → List PermissionRow → Bool × GoString
  | allowed, [] => if allowed then (true, bytes "allowed") else (false, bytes "capability not allowed")
  | allowed, row :: rest =>
      if row.capability ≠ capability ∧ row.pattern ≠ capability then scanCapability capability allowed rest
      else if row.effect = .deny then (false, bytes "capability denied")
      else scanCapability capability (allowed || row.effect == .allow) rest

def canProjectCapabilityInTx (table : List PermissionRow) (projectID : ID) (capability : GoString) : Bool × GoString :=
  scanCapability capability false (table.filter fun row => row.projectID == projectID && row.resourceType == .capability)

/-- The first capability that the project does not have denies the operation. -/
def projectDenial (db : Database) (operation : Operation) (record : ProjectRow) : List (GoString × GoString) → Option Denial
  | [] => none
  | (capability, message) :: rest =>
      let answer := canProjectCapabilityInTx db.permissions record.id capability
      if answer.1 then projectDenial db operation record rest
      else some (blocked operation message
        [bytes "project " ++ capability ++ bytes " capability denied: " ++ answer.2] [] [])

/-- Tasks with a smaller sequence number come first. -/
def sequenceFirst (first second : TaskRow) : Bool :=
  decide (first.sequence < second.sequence ∨ first.sequence = second.sequence ∧ first.id ≤ second.id)

/-- A task of a queued execution run waits for the operation. -/
def waitingTask (db : Database) (operation : Operation) (projectID runID : ID) (task : TaskRow) : Bool :=
  task.projectID == projectID && task.runID == runID &&
    (db.runs.rows.any fun run =>
      run.id == task.runID && !run.dryRun && run.executionKind && run.status == .queued) &&
    task.taskKind == .task operation && [TaskStatus.queued, .needsRecovery].contains task.status &&
    !hasActiveLease db task.id

def nextTaskForLease (db : Database) (operation : Operation) (projectID runID : ID) : Option TaskRow :=
  firstBy sequenceFirst (db.tasks.rows.filter (waitingTask db operation projectID runID))

/-- This is what an operation knows once its command is reserved. -/
structure Scope where
  record : ProjectRow
  version : VersionRow
  run : RunRow
  worker : WorkerRow
  gate : List ReadinessItem
  options : ExecutionOptions

/-- These are the checks of an operation up to its task, in their order. -/
def admitTask (codec : Codec) (operation : Operation) (scope : Scope) (db : Database) : Except Denial TaskRow := do
  if statusOf scope.gate ≠ bytes "pass" then .error (blocked operation operation.gateMessage (blockersOf scope.gate) [] [])
  else
    match scopeDenial codec operation scope.record with
    | some denial => .error denial
    | none =>
        let missing := missingWorkerCapabilities scope.worker.capabilities scope.options.allowedCapabilities
        if missing ≠ [] then
          .error { message := bytes "worker capability denied"
                   blockers := [bytes "worker missing required capabilities: " ++ joined (bytes ",") missing]
                   failure := .capabilityDenied missing }
        else
          match projectDenial db operation scope.record operation.projectCapabilities with
          | some denial => .error denial
          | none =>
              match nextTaskForLease db operation scope.record.id scope.run.id with
              | some task => .ok task
              | none =>
                  .error { message := bytes "no queued " ++ operation.title ++ bytes " task"
                           blockers := [bytes "no queued or needs_recovery " ++ operation.title ++ bytes " task is available"]
                           failure := .noLeaseAvailable (bytes "no queued task") }

/-- The fields of the target, with blank ones for what is not known. -/
def targetDetails (operation : Operation) (known : Metadata) : Metadata := setKeys operation.blankDetails known

/-- An identifier that a result does not have is written as zero. -/
def namedID {Row : Type} (id : Row → ID) (rows : List (GoString × Row)) (key : GoString) : GoString × MetaValue :=
  (key, .number (((rows.find? (·.1 == key)).map fun entry => id entry.2).getD 0))

/-- These are the identifiers of what an operation did. -/
def executionIDs (operation : Operation) (result : ExecutionResult) : Metadata := fields
  [[(bytes "project_key", .text result.project.projectKey), (bytes "workflow_version_id", .number result.version.id),
    (bytes "display_label", .text result.version.displayLabel), (bytes "run_id", .number result.run.id),
    (bytes "run_task_id", .number (orZero (result.task.map (·.id)))),
    (bytes "lease_id", .number (orZero (result.lease.map (·.id)))),
    (bytes "worker_id", .number (orZero (result.worker.map (·.id)))),
    (bytes "worker_key", .text ((result.worker.map (·.workerKey)).getD []))],
    operation.attemptKeys.map (namedID (·.id) result.attempts),
    operation.artifactKeys.map (namedID (·.id) result.artifacts), result.details,
    [(bytes "status", .text result.status), (bytes "decision", .text result.decision),
      (bytes "blockers", .texts result.blockers), (bytes "execution_gate_status", .text (statusOf result.gate))]]

/-- These fields stand in the event and in the audit row of an operation. -/
def executionMetadata (operation : Operation) (result : ExecutionResult) (options : ExecutionOptions) : Metadata := fields
  [executionIDs operation result,
    [(bytes "actor", .text options.actor), (bytes "idempotency_key", .text options.idempotencyKey)]]

def executionCommandResponse (operation : Operation) (result : ExecutionResult) : Metadata := fields
  [executionIDs operation result,
    [(bytes "project_id", .number result.project.id), (bytes "run_status", .text result.run.status.name),
      (bytes "task_status", .text ((result.task.map (·.status.name)).getD [])),
      (bytes "artifact_type",
        .text (((result.artifacts.find? (·.1 == bytes "artifact_id")).map (·.2.artifactType)).getD [])),
      (bytes "event_id", .number result.eventID), (bytes "audit_event_id", .number result.auditEventID),
      (bytes "message", .text result.message)]]

/-- This is the resource in the audit row of an operation. -/
def auditedResource (operation : Operation) (result : ExecutionResult) : GoString :=
  match operation with
  | .fixtureExecution => sprintID result.run.id
  | .approvedArtifactWrite => metadataString result.details (bytes "artifact_label")
  | _ => metadataString result.details (bytes "target_path")

/-- This is the subject of a write operation in its errors. -/
def Operation.subject (operation : Operation) : GoString :=
  if operation = .managedGeneratedWrite then bytes "managed generated" else bytes "fixture project"

/-- This is what a member of the family made of its task: the rows, the report and the last attempt, the fields of the
result, of the ended lease and of the run summary. -/
structure Done where
  attempts : List (GoString × AttemptRow)
  artifacts : List (GoString × ArtifactRow)
  report : ArtifactRow
  last : AttemptRow
  details : Metadata
  release : Metadata
  summary : Metadata := []

section Family

variable {Files : Type} (env : Env Files) (now : Time) (operation : Operation) (scope : Scope)

/-- A result is recorded as an event, as an audit row and as the response of its command. -/
def recordExecution (result : ExecutionResult) (severity : GoString) : Command Files ExecutionResult := do
  let metadata := executionMetadata operation result scope.options
  let eventID ← insertEvent
    { projectID := some result.project.id, runID := some result.run.id, versionID := some result.version.id,
      eventType := operation.applyCommandType ++ bytes "." ++ result.decision, severity := severity,
      message := result.message, metadata := metadata }
  let auditEventID ← insertAuditEvent
    { projectID := some result.project.id, actorID := scope.worker.actorID, action := operation.applyCommandType,
      capability := operation.audited.1, resourceType := operation.audited.2,
      resource := auditedResource operation result, decision := result.decision, reason := scope.options.reason,
      metadata := metadata }
  let recorded := { result with eventID := eventID, auditEventID := auditEventID }
  complete result.project.id operation.applyCommandType scope.options.idempotencyKey
    (executionCommandResponse operation recorded)
  pure recorded

/-- A denied operation is recorded; its result does not name the records. -/
def denyExecution (denial : Denial) : Command Files (Answer ExecutionResult) := do
  let result : ExecutionResult :=
    { project := scope.record, version := scope.version, run := scope.run, worker := some scope.worker,
      artifacts := denial.artifacts, gate := scope.gate, details := targetDetails operation denial.details,
      status := bytes "blocked", decision := bytes "denied", message := denial.message, blockers := denial.blockers,
      created := true, idempotencyKey := scope.options.idempotencyKey }
  let _ ← recordExecution operation scope result (bytes "warning")
  pure { result := result, failure := some denial.failure }

/-- These statuses of a task keep its run open. -/
def TaskStatus.remains (status : TaskStatus) : Bool :=
  [TaskStatus.queued, .pending, .needsRecovery, .leased].contains status

/-- This is a run after one of its tasks. -/
def runAfterTask (finished remaining : Nat) (done : Done) (run : RunRow) : RunRow :=
  { run with
    status := if remaining = 0 then operation.runDone else .running
    finishedAt := if remaining = 0 then some now else run.finishedAt
    summary := setKeys run.summary (fields
      [done.summary, [(bytes "last_artifact_id", .number done.report.id), (bytes "last_attempt_id", .number done.last.id),
        (operation.countKey, .number finished), (bytes "remaining_task_count", .number remaining)]])
    metadata := setKeys run.metadata
      [(bytes "last_" ++ operation.name ++ bytes "_actor", .text scope.options.actor),
        (bytes "last_" ++ operation.name ++ bytes "_reason", .text scope.options.reason),
        (bytes "last_" ++ operation.name ++ bytes "_at", .number now),
        (bytes "last_artifact_id", .number done.report.id), (bytes "last_attempt_id", .number done.last.id)] }

def updateRunAfterTask (done : Done) : Command Files RunRow := do
  let finished ← Tx.query fun db =>
    db.tasks.rows.countP fun task => task.runID == scope.run.id && task.status == operation.taskDone
  let remaining ← Tx.query fun db =>
    db.tasks.rows.countP fun task =>
      task.runID == scope.run.id && task.taskKind == .task operation && task.status.remains
  let change := runAfterTask now operation scope finished remaining done
  updateRun scope.run.id ⟨change, fun _ => rfl⟩
  pure (change scope.run)

/-- An admitted operation leases its task, does its work, and completes the lease, the task and the run. -/
def applyToTask (task : TaskRow) (target : Metadata) (perform : LeaseRow → Command Files Done) :
    Command Files (Answer ExecutionResult) := do
  let lease ← insertLeaseForTask now scope.record.id scope.worker task operation.name scope.options.allowedCapabilities
    (fields [[(bytes "run_id", .number task.runID)], target]) scope.options.metadata scope.options.leaseTimeoutSeconds
  updateRunTaskStatus task.id .leased
  let done ← perform lease
  let released ← releaseLeaseForWorker now scope.record.id scope.worker lease.id (bytes "completed")
    (fields [done.release, [(bytes "artifact_id", .number done.report.id)]])
  updateRunTaskStatus task.id operation.taskDone
  let run ← updateRunAfterTask now operation scope done
  let result : ExecutionResult :=
    { project := scope.record, version := scope.version, run := run, worker := some scope.worker,
      task := some { task with status := operation.taskDone }, lease := some released, attempts := done.attempts,
      artifacts := done.artifacts, gate := scope.gate, details := targetDetails operation done.details,
      status := operation.taskDone.name, decision := bytes "allowed", message := operation.doneMessage,
      created := true, idempotencyKey := scope.options.idempotencyKey }
  let recorded ← recordExecution operation scope result (bytes "info")
  pure { result := recorded }

/-- A row that a response does not name is not loaded. -/
def loadIfNamed {Row : Type} (load : ID → Command Files Row) (response : Metadata) (key : GoString) :
    Command Files (List (GoString × Row)) :=
  if metadataInt64 response key = 0 then pure []
  else do
    let row ← load (metadataInt64 response key)
    pure [(key, row)]

/-- This loop loads the rows that a response names, under their keys. -/
def loadNamed {Row : Type} (load : ID → Command Files Row) (response : Metadata) :
    List GoString → Command Files (List (GoString × Row))
  | [] => pure []
  | key :: rest => do
      let first ← loadIfNamed load response key
      let later ← loadNamed load response rest
      pure (first ++ later)

/-- A repeated operation is answered from its stored response and the rows that it names. -/
def loadExecutionByCommandResponse : Command Files ExecutionResult := do
  let record := scope.record
  let response ← Tx.check fun db =>
    loadCommandResponse db record.id operation.applyCommandType scope.options.idempotencyKey
  let run ← loadRunForUpdate (metadataInt64 response (bytes "run_id"))
  let worker ← loadNamed (loadWorkerByID record.id) response [bytes "worker_id"]
  let task ← loadNamed (loadRunTaskByID record.id) response [bytes "run_task_id"]
  let lease ← loadNamed (loadLeaseByID record.id) response [bytes "lease_id"]
  let attempts ← loadNamed (loadRunAttemptByID record.id) response operation.replayedAttemptKeys
  let artifacts ← loadNamed (loadArtifactByIDTx record.id) response operation.replayedArtifactKeys
  pure
    { project := record, version := scope.version, run := run, worker := worker.head?.map (·.2),
      task := task.head?.map (·.2), lease := lease.head?.map (·.2), attempts := attempts, artifacts := artifacts,
      gate := scope.gate,
      details := operation.blankDetails.map fun entry => (entry.1, (metadataGet response entry.1).getD entry.2),
      status := metadataString response (bytes "status"), decision := metadataString response (bytes "decision"),
      message := metadataString response (bytes "message"),
      blockers := metadataStringSlice response (bytes "blockers"), created := false,
      idempotencyKey := scope.options.idempotencyKey, eventID := metadataInt64 response (bytes "event_id"),
      auditEventID := metadataInt64 response (bytes "audit_event_id") }

/-- The gate is evaluated on the tables before the transaction; they are the first argument. -/
def execute (seen : Database) (record : ProjectRow) (raw : ExecutionOptions)
    (perform : Scope → TaskRow → Command Files (Answer ExecutionResult)) : Command Files (Answer ExecutionResult) :=
  let named := normalizeExecutionOptions operation raw
  let hash := executionRequestHash env.codec operation record named
  let options := { named with
    idempotencyKey := keyOr named.idempotencyKey (executionIdempotencyKey operation record named hash) }
  if raw.runID ≤ 0 then Tx.fail (.failed (bytes "run id is required"))
  else do
    let gate ← Tx.check fun _ => executionApprovalGate env.engineBlocked seen options.runID options.allowedCapabilities
      (operation != .fixtureExecution)
    let run ← loadRunForUpdate options.runID
    if orZero run.projectID ≠ record.id then
      Tx.fail (.runNotFound (bytes "run " ++ sprintID options.runID ++ bytes " does not belong to project " ++
        record.projectKey))
    else
      let version ← Tx.check fun db => workflowVersionByID db record.id (orZero run.versionID)
      let worker ← loadWorkerForUpdate record.id options.workerKey
      let scope : Scope :=
        { record := record, version := version, run := run, worker := worker, gate := gate, options := options }
      once record.id operation.applyCommandType options.idempotencyKey hash
        (do
          let admitted ← Tx.query fun db => admitTask env.codec operation scope db
          match admitted with
          | .error denial => denyExecution operation scope denial
          | .ok task => perform scope task)
        (do
          let result ← loadExecutionByCommandResponse operation scope
          pure { result := result })

end Family

section Members

variable {Files : Type} (env : Env Files) (now : Time) (operation : Operation) (scope : Scope) (task : TaskRow)
  (lease : LeaseRow)

/-- This is an attempt of an operation on a task. -/
def executionAttempt (kind : AttemptKind) (status : AttemptStatus) (metadata : Metadata) (id : ID) : AttemptRow where
  id := id
  projectID := scope.record.id
  versionID := task.versionID
  itemID := task.itemID
  runID := task.runID
  taskID := some task.id
  attemptKind := kind
  status := status
  dryRun := false
  metadata := fields
    [metadata, [(bytes "actor", .text scope.options.actor), (bytes "reason", .text scope.options.reason),
      (bytes "lease_id", .number lease.id), (bytes "worker_id", .number (orZero lease.workerID))]]
  startedAt := now
  finishedAt := some now

/-- This step stores a file of a task with its row. -/
def storeTaskArtifact (ending content contentType artifactType : GoString) (metadata : Metadata) :
    Command Files ArtifactRow := do
  let relativePath := taskArtifactPath operation scope.version scope.run task ending
  let stored ← writeProjectArtifact env scope.record relativePath content contentType
  insertRunArtifactRecord now scope.record.id (some scope.version.id) scope.run.id task.itemID artifactType relativePath
    stored (fields
      [metadata, [(bytes "actor", .text scope.options.actor), (bytes "reason", .text scope.options.reason)]])

/-- These fields name the work in a report. -/
def workFields : Metadata :=
  [(bytes "run_id", .number scope.run.id), (bytes "run_task_id", .number task.id),
    (bytes "worker_id", .number scope.worker.id), (bytes "worker_key", .text scope.worker.workerKey),
    (bytes "lease_id", .number lease.id), (bytes "execution_gate_status", .text (statusOf scope.gate))]

/-- This is the content of a report. -/
def reportContent (details : Metadata) : GoString :=
  env.marshalIndent (fields
    [[(bytes "project", .text scope.record.projectKey), (bytes "workflow_version", .text scope.version.displayLabel),
      (bytes "task_key", .text task.taskKey), (bytes "task_kind", .text task.taskKind.name),
      (bytes "allowed_capabilities", .texts scope.options.allowedCapabilities)], workFields scope task lease, details])

/-- The operations that leave the project alone store a report and one attempt that refers to it. -/
def reportOn (ending : GoString) (details release : Metadata) : Command Files Done := do
  let report ← storeTaskArtifact env now operation scope task ending (reportContent env scope task lease details)
    (bytes "application/json") (operation.name ++ bytes "_report") (fields [workFields scope task lease, details])
  let attempt ← insertRunAttempt
    ⟨executionAttempt now scope task lease (.operation operation) .passed
      ((bytes "evidence_artifact_id", .number report.id) :: details), fun _ => rfl⟩
  pure
    { attempts := [(bytes "attempt_id", attempt)], artifacts := [(bytes "artifact_id", report)], report := report,
      last := attempt, details := details, release := (bytes "attempt_id", .number attempt.id) :: release }

/-- This operation runs a fixture in the tables only. -/
def executeFixture (seen : Database) (record : ProjectRow) (raw : ExecutionOptions) :
    Command Files (Answer ExecutionResult) :=
  execute env .fixtureExecution seen record raw fun scope task =>
    applyToTask now .fixtureExecution scope task [] fun lease =>
      reportOn env now .fixtureExecution scope task lease (bytes "report.json") [] []

/-- The label of an artifact comes from its task. -/
def taskArtifactLabel (task : TaskRow) : GoString :=
  let label := metadataString task.metadata (bytes "artifact_label")
  if label = [] then bytes "approved-artifact" else label

/-- This operation writes an approved artifact. -/
def writeApprovedArtifact (seen : Database) (record : ProjectRow) (raw : ExecutionOptions) :
    Command Files (Answer ExecutionResult) :=
  execute env .approvedArtifactWrite seen record raw fun scope task =>
    let details : Metadata := [(bytes "artifact_label", .text (taskArtifactLabel task))]
    applyToTask now .approvedArtifactWrite scope task details fun lease =>
      reportOn env now .approvedArtifactWrite scope task lease (taskArtifactLabel task ++ bytes ".json") details details

/-- A verified file is named by its path, its hash and its size. -/
def verifyFile (target fullPath : GoString) : Command Files Done := do
  let image ← inspect fun files => readProjectFileForVerify env files fullPath
  let shared : Metadata := [(bytes "target_path", .text target), (bytes "target_sha256", .text image.sha256)]
  reportOn env now .readOnlyVerify scope task lease (bytes "report.json")
    (fields [shared, [(bytes "target_size_bytes", .number image.sizeBytes)]])
    (fields [shared, [(bytes "target_size", .number image.sizeBytes)]])

/-- The checks of a verification after it has its task. -/
def checkRead : Command Files (Except Denial GoString) := do
  let target := metadataString task.metadata (bytes "target_path")
  let details : Metadata := [(bytes "target_path", .text target)]
  let readable ← Tx.query fun db => canProjectPathInTx db.permissions scope.record.id (bytes "read_project") target
  if !readable.1 then
    pure (.error (blocked .readOnlyVerify (bytes "read path denied") [bytes "target path is not readable: " ++ readable.2]
      details []))
  else
    let resolved ← observe fun files => safeProjectReadPath env files scope.record.rootPath target
    pure (resolved.mapError fun failure => blocked .readOnlyVerify (bytes "read path unsafe")
      [bytes "target path escaped project root: " ++ failure] details [])

/-- This operation reads one file of the project and reports its hash. -/
def verifyReadOnly (seen : Database) (record : ProjectRow) (raw : ExecutionOptions) :
    Command Files (Answer ExecutionResult) :=
  execute env .readOnlyVerify seen record raw fun scope task => do
    let target := metadataString task.metadata (bytes "target_path")
    let checked ← checkRead env scope task
    match checked with
    | .error denial => denyExecution .readOnlyVerify scope denial
    | .ok fullPath =>
        applyToTask now .readOnlyVerify scope task [(bytes "target_path", .text target)] fun lease =>
          verifyFile env now scope task lease target fullPath

end Members

section Writes

variable {Files : Type} (env : Env Files) (now : Time) (operation : Operation) (scope : Scope) (task : TaskRow)

/-- This is a write whose checks have passed. -/
structure Change where
  target : GoString
  fullPath : GoString
  writeSet : WriteSet
  writeSetArtifact : ArtifactRow
  preimage : FileImage

/-- This is a change after it was made and undone. -/
structure Drill where
  after : FileImage
  restored : FileImage
  copied : AttemptRow
  verified : AttemptRow

/-- This is the capability that a write needs on its path, with the start of its denial. -/
def Operation.pathCapability (operation : Operation) : GoString × GoString :=
  if operation = .managedGeneratedWrite then (bytes "write_generated", bytes "target path is not generated-writable: ")
  else (bytes "write_code", bytes "target path is not writable: ")

/-- The checks of a target path in the tables, in their order. -/
def pathDenial (db : Database) (target : GoString) : Option Denial :=
  let details : Metadata := [(bytes "target_path", .text target)]
  let readable := canProjectPathInTx db.permissions scope.record.id (bytes "read_project") target
  let writable := canProjectPathInTx db.permissions scope.record.id operation.pathCapability.1 target
  if operation = .managedGeneratedWrite ∧ isManagedGeneratedPath target = false then
    some (blocked operation (bytes "generated prefix denied") [bytes "target path is outside generated-only prefixes"]
      details [])
  else if readable.1 = false then
    some (blocked operation (bytes "read path denied") [bytes "target path is not readable: " ++ readable.2] details [])
  else if writable.1 = false then
    some (blocked operation (bytes "write path denied") [operation.pathCapability.2 ++ writable.2] details [])
  else none

/-- The content of the file is not the expected one. -/
def staleDenial (change : Change) : Denial :=
  blocked operation (bytes "expected-before mismatch")
    [bytes "expected-before hash or size does not match current " ++
      (if operation = .managedGeneratedWrite then bytes "generated file" else bytes "fixture file")]
    [(bytes "target_path", .text change.target),
      (bytes "expected_before_sha256", .text change.writeSet.expectedBeforeSHA256),
      (bytes "expected_before_size", .number change.writeSet.expectedBeforeSize),
      (bytes "after_sha256", .text change.writeSet.afterSHA256),
      (bytes "after_size", .number change.writeSet.afterSize)]
    [(bytes "write_set_artifact_id", change.writeSetArtifact)]

/-- A resolved target is read and compared with what its write set expects. -/
def readChange (target fullPath : GoString) : Command Files (Except Denial Change) := do
  let loaded ← loadWriteSet env operation scope.record.id (metadataInt64 task.metadata (bytes "write_set_artifact_id"))
  if loaded.1.targetPath ≠ target then Tx.fail (.failed (bytes "write-set target path mismatch"))
  else
    let preimage ← inspect fun files => readFixtureProjectFileImage env files fullPath
    let change : Change :=
      { target := target, fullPath := fullPath, writeSet := loaded.1, writeSetArtifact := loaded.2, preimage := preimage }
    if preimage.sha256 ≠ loaded.1.expectedBeforeSHA256 ∨ (preimage.sizeBytes : Int) ≠ loaded.1.expectedBeforeSize then
      pure (.error (staleDenial operation change))
    else pure (.ok change)

/-- The checks of a write operation after it has its task. -/
def checkChange : Command Files (Except Denial Change) := do
  let target := metadataString task.metadata (bytes "target_path")
  let denied ← Tx.query fun db => pathDenial operation scope db target
  match denied with
  | some denial => pure (.error denial)
  | none =>
      let resolved ← observe fun files => safeFixtureProjectWritePath env files scope.record.rootPath target
      match resolved with
      | .error failure =>
          pure (.error (blocked operation (bytes "write path unsafe") [bytes "target path is unsafe: " ++ failure]
            [(bytes "target_path", .text target)] []))
      | .ok fullPath => readChange env operation scope task target fullPath

/-- The file has the expected content after the change. -/
def arrived (change : Change) (after : FileImage) : Bool :=
  after.sha256 == change.writeSet.afterSHA256 && (after.sizeBytes : Int) == change.writeSet.afterSize

/-- The file is changed, checked and put back; a failure on the way puts it back too. -/
def drill (change : Change) (lease : LeaseRow) (preimageArtifact : ArtifactRow) : Command Files Drill := do
  overwrite env change.fullPath change.writeSet.content (bytes "write " ++ operation.subject ++ bytes " target")
  Tx.onFailure (fun files => (env.writeFile change.fullPath change.preimage.content files).1) (do
    let after ← inspect fun files => readFixtureProjectFileImage env files change.fullPath
    let measured : Metadata := [(bytes "target_path", .text change.target), (bytes "after_sha256", .text after.sha256),
      (bytes "after_size", .number after.sizeBytes)]
    let copied ← insertRunAttempt ⟨executionAttempt now scope task lease .copy .passed (fields
      [[(bytes "preimage_artifact_id", .number preimageArtifact.id),
        (bytes "write_set_artifact_id", .number change.writeSetArtifact.id),
        (bytes "expected_before_sha256", .text change.writeSet.expectedBeforeSHA256)], measured]), fun _ => rfl⟩
    let verified ← insertRunAttempt ⟨executionAttempt now scope task lease .verify
      (if arrived change after then .passed else .failed) (fields
      [measured, [(bytes "expected_sha256", .text change.writeSet.afterSHA256),
        (bytes "expected_size", .number change.writeSet.afterSize)]]), fun _ => rfl⟩
    if !arrived change after then Tx.fail (.failed (operation.title ++ bytes " verify failed"))
    else
      overwrite env change.fullPath change.preimage.content (bytes "rollback " ++ operation.subject ++ bytes " target")
      let restored ← inspect fun files => readFixtureProjectFileImage env files change.fullPath
      if restored.sha256 ≠ change.preimage.sha256 ∨ restored.sizeBytes ≠ change.preimage.sizeBytes then
        Tx.fail (.failed (operation.subject ++ bytes " rollback did not restore expected hash"))
      else pure { after := after, restored := restored, copied := copied, verified := verified })

/-- These fields describe a finished drill. -/
def drillDetails (change : Change) (drill : Drill) : Metadata :=
  [(bytes "target_path", .text change.target),
    (bytes "expected_before_sha256", .text change.writeSet.expectedBeforeSHA256),
    (bytes "expected_before_size", .number change.writeSet.expectedBeforeSize),
    (bytes "after_sha256", .text drill.after.sha256), (bytes "after_size", .number drill.after.sizeBytes),
    (bytes "restored_sha256", .text drill.restored.sha256), (bytes "restored_size", .number drill.restored.sizeBytes)]

/-- A write stores the old content, drills the change, and stores the rollback and a report. -/
def performChange (change : Change) (lease : LeaseRow) : Command Files Done := do
  let preimageArtifact ← storeTaskArtifact env now operation scope task (bytes "preimage.bin") change.preimage.content
    (bytes "application/octet-stream") (operation.name ++ bytes "_preimage")
    [(bytes "artifact_role", .text (bytes "preimage")), (bytes "target_path", .text change.target),
      (bytes "target_sha256", .text change.preimage.sha256), (bytes "target_size", .number change.preimage.sizeBytes)]
  let drilled ← drill env now operation scope task change lease preimageArtifact
  let rollback ← insertRunAttempt ⟨executionAttempt now scope task lease .rollback .passed
    [(bytes "target_path", .text change.target), (bytes "restored_sha256", .text drilled.restored.sha256),
      (bytes "restored_size", .number drilled.restored.sizeBytes),
      (bytes "preimage_artifact", .number preimageArtifact.id)], fun _ => rfl⟩
  let rows : Metadata :=
    [(bytes "write_set_artifact_id", .number change.writeSetArtifact.id),
      (bytes "preimage_artifact_id", .number preimageArtifact.id), (bytes "copy_attempt_id", .number drilled.copied.id),
      (bytes "verify_attempt_id", .number drilled.verified.id), (bytes "rollback_attempt_id", .number rollback.id)]
  let report ← storeTaskArtifact env now operation scope task (bytes "report.json")
    (reportContent env scope task lease (fields [rows, drillDetails change drilled])) (bytes "application/json")
    (operation.name ++ bytes "_report")
    (fields [[(bytes "artifact_role", .text (operation.name ++ bytes "_report")),
      (bytes "target_path", .text change.target)], rows])
  pure
    { attempts := [(bytes "copy_attempt_id", drilled.copied), (bytes "verify_attempt_id", drilled.verified),
        (bytes "rollback_attempt_id", rollback)]
      artifacts := [(bytes "write_set_artifact_id", change.writeSetArtifact),
        (bytes "preimage_artifact_id", preimageArtifact), (bytes "artifact_id", report)]
      report := report, last := rollback, details := drillDetails change drilled
      release := [(bytes "target_path", .text change.target),
        (bytes "attempt_ids", .numbers [drilled.copied.id, drilled.verified.id, rollback.id])]
      summary := [(bytes "target_path", .text change.target),
        (bytes "expected_before_sha256", .text change.writeSet.expectedBeforeSHA256),
        (bytes "after_sha256", .text change.writeSet.afterSHA256),
        (bytes "restored_sha256", .text drilled.restored.sha256)] }

/-- The body that the two write operations share. -/
def writeFileOf (seen : Database) (record : ProjectRow) (raw : ExecutionOptions) : Command Files (Answer ExecutionResult) :=
  execute env operation seen record raw fun scope task => do
    let checked ← checkChange env operation scope task
    match checked with
    | .error denial => denyExecution operation scope denial
    | .ok change =>
        applyToTask now operation scope task [(bytes "target_path", .text change.target)] fun lease =>
          performChange env now operation scope task change lease

/-- This operation writes a file of a fixture project and puts it back. -/
def writeFixtureProject (seen : Database) (record : ProjectRow) (raw : ExecutionOptions) :
    Command Files (Answer ExecutionResult) :=
  writeFileOf env now .fixtureProjectWrite seen record raw

/-- This operation writes a generated file and puts it back. -/
def writeManagedGenerated (seen : Database) (record : ProjectRow) (raw : ExecutionOptions) :
    Command Files (Answer ExecutionResult) :=
  writeFileOf env now .managedGeneratedWrite seen record raw

end Writes

end AreaFlow.Project
