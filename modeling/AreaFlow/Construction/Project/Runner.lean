import AreaFlow.Construction.Project.Leases

namespace AreaFlow.Project
open Go Auth

/-- A request of the runner names how risky its work is. -/
structure RunnerPreviewOptions where
  actor : GoString := []
  reason : GoString := []
  riskLevel : GoString := []
  riskPolicy : GoString := []
  requireApproval : Bool := false
  idempotencyKey : GoString := []
  deriving DecidableEq

/-- A check passes or blocks, with a key and a message. -/
structure ReadinessItem where
  key : GoString
  passed : Bool
  message : GoString
  deriving DecidableEq

/-- These are the messages of the checks that block. -/
def blockersOf (items : List ReadinessItem) : List GoString :=
  (items.filter fun item => !item.passed).map fun item => item.key ++ bytes ": " ++ item.message

/-- This is the status of a list of checks. -/
def statusOf (items : List ReadinessItem) : GoString :=
  if items.all (·.passed) then bytes "pass" else bytes "blocked"

structure RunnerPreviewResult where
  project : ProjectRow
  version : VersionRow
  run : RunRow
  tasks : List TaskRow
  attempts : List AttemptRow
  artifacts : List ArtifactRow
  preflight : List ReadinessItem
  created : Bool
  idempotencyKey : GoString
  eventID : ID
  auditEventID : ID

def runnerVersionMessage (version : VersionRow) : GoString :=
  if version.importMode = .authored then bytes "workflow version is authored by AreaFlow"
  else bytes "runner preview requires an AreaFlow-authored workflow version"

/-- Only an imported version and a high risk without an allowing policy block a preview. -/
def evaluateRunnerPreflight (version : VersionRow) (options : RunnerPreviewOptions) : List ReadinessItem :=
  let risky := (options.riskLevel = bytes "high" ∨ options.riskLevel = bytes "mission_critical") ∧
    options.riskPolicy ≠ bytes "allow"
  [⟨bytes "dry_run", true, bytes "runner preview is dry-run only"⟩,
    ⟨bytes "workflow_version_authored", decide (version.importMode = .authored), runnerVersionMessage version⟩,
    ⟨bytes "write_permissions", true, bytes "write operations are not attempted in runner preview"⟩,
    ⟨bytes "command_permissions", true, bytes "commands are not executed in runner preview"⟩,
    ⟨bytes "secret_permissions", true, bytes "secrets are not resolved in runner preview"⟩,
    ⟨bytes "network_permissions", true, bytes "network access is not attempted in runner preview"⟩,
    if risky then ⟨bytes "risk_gate", false, bytes "high risk runner preview requires risk policy allow"⟩
    else ⟨bytes "risk_gate", true, bytes "risk policy allows dry-run preview"⟩]

def normalizeRunnerPreviewOptions (record : ProjectRow) (version : VersionRow) (options : RunnerPreviewOptions) :
    RunnerPreviewOptions where
  actor := textOr (bytes "local-user") options.actor
  reason := textOr (bytes "runner preview dry-run") options.reason
  riskLevel := textOr (bytes "low") options.riskLevel
  riskPolicy := textOr (bytes "pause") options.riskPolicy
  requireApproval := options.requireApproval
  idempotencyKey := textOr (colons [bytes "runner.preview", record.projectKey, version.displayLabel]) options.idempotencyKey

/-- These are the checks with their results in a stored report. -/
def preflightFields (items : List ReadinessItem) : Metadata :=
  items.map fun item => (item.key, .texts [if item.passed then bytes "pass" else bytes "blocked", item.message])

section Preview

variable {Files : Type} (env : Env Files) (now : Time) (record : ProjectRow) (version : VersionRow)
  (options : RunnerPreviewOptions)

def runnerPreviewRequestHash : GoString :=
  requestHash env.codec
    [(bytes "command_type", .text (bytes "runner.preview")), (bytes "project_id", .number record.id),
      (bytes "project_key", .text record.projectKey), (bytes "workflow_version_id", .number version.id),
      (bytes "display_label", .text version.displayLabel), (bytes "actor", .text options.actor),
      (bytes "reason", .text options.reason), (bytes "risk_level", .text options.riskLevel),
      (bytes "risk_policy", .text options.riskPolicy), (bytes "require_approval", .flag options.requireApproval),
      (bytes "dry_run", .flag true)]

/-- A preview is a finished dry run. -/
def runnerPreviewRun (preflight : List ReadinessItem) (id : ID) : RunRow where
  id := id
  projectID := some record.id
  versionID := some version.id
  runType := .runnerPreview
  executionKind := true
  status := .passed
  riskLevel := options.riskLevel
  riskPolicy := options.riskPolicy
  dryRun := true
  summary :=
    [(bytes "dry_run", .flag true), (bytes "preflight_status", .text (statusOf preflight)),
      (bytes "task_count", .number 1), (bytes "attempt_count", .number 2), (bytes "artifact_count", .number 1)]
  metadata :=
    [(bytes "actor", .text options.actor), (bytes "reason", .text options.reason),
      (bytes "idempotency_key", .text options.idempotencyKey), (bytes "phase", .text (bytes "v0.5")),
      (bytes "dry_run", .flag true)]
  startedAt := now
  finishedAt := some now

/-- The task of a preview stays queued for a worker. -/
def runnerPreviewTask (runID : ID) (preflight : List ReadinessItem) (id : ID) : TaskRow where
  id := id
  projectID := record.id
  versionID := some version.id
  itemID := none
  runID := runID
  taskKey := version.displayLabel ++ bytes ":runner-preview"
  taskKind := .workflowItemPreview
  status := .queued
  riskLevel := options.riskLevel
  sequence := 1
  metadata :=
    [(bytes "actor", .text options.actor), (bytes "reason", .text options.reason),
      (bytes "preflight_status", .text (statusOf preflight)),
      (bytes "copy_ready_source", .text (bytes "not_materialized_in_v0.5_preview")),
      (bytes "verify_ready_source", .text (bytes "not_materialized_in_v0.5_preview"))]
  createdAt := now

/-- These are the effects that a dry run does not have. -/
def dryEffects : Metadata :=
  noEffects [bytes "writes_attempted", bytes "commands_run", bytes "secrets_resolved", bytes "network_used"]

def writeAndInsertRunnerPreviewArtifact (run : RunRow) (task : TaskRow) (preflight : List ReadinessItem) :
    Command Files ArtifactRow := do
  let relativePath := pathJoin [version.displayLabel, bytes "runner-preview",
    bytes "run-" ++ sprintID run.id ++ bytes "-report.json"]
  let stored ← writeProjectArtifact env record relativePath
    (env.marshalIndent (fields
      [[(bytes "project", .text record.projectKey), (bytes "display_label", .text version.displayLabel),
        (bytes "run_id", .number run.id), (bytes "run_task_id", .number task.id), (bytes "dry_run", .flag true),
        (bytes "risk_level", .text options.riskLevel), (bytes "risk_policy", .text options.riskPolicy),
        (bytes "preflight_status", .text (statusOf preflight)),
        (bytes "preflight_checks", .json (env.codec.marshal (preflightFields preflight))),
        (bytes "attempts", .texts [bytes "copy", bytes "verify"])], dryEffects]))
    (bytes "application/json")
  insertRunArtifactRecord now record.id (some version.id) run.id task.itemID (bytes "runner_preview_report") relativePath
    stored
    [(bytes "phase", .text (bytes "v0.5")), (bytes "owned_by", .text (bytes "areaflow")), (bytes "dry_run", .flag true),
      (bytes "run_id", .number run.id), (bytes "run_task_id", .number task.id), (bytes "actor", .text options.actor),
      (bytes "reason", .text options.reason), (bytes "idempotency_key", .text options.idempotencyKey)]

/-- An attempt of a preview refers to its report. -/
def runnerPreviewAttempt (run : RunRow) (task : TaskRow) (reportArtifactID : ID) (attemptKind : AttemptKind) (id : ID) :
    AttemptRow where
  id := id
  projectID := record.id
  versionID := some version.id
  itemID := none
  runID := run.id
  taskID := some task.id
  attemptKind := attemptKind
  status := .passed
  dryRun := true
  metadata := fields
    [[(bytes "actor", .text options.actor), (bytes "reason", .text options.reason), (bytes "dry_run", .flag true),
      (bytes "would_execute", .flag false), (bytes "evidence_artifact_id", .number reportArtifactID)], dryEffects,
      noEffects [bytes "verify_can_mark_done", bytes "checkpoint_would_execute"]]
  startedAt := now
  finishedAt := some now

/-- These fields stand in the event and in the audit row of a preview. -/
def runnerPreviewFields (run : RunRow) (task : TaskRow) (report : ArtifactRow) (preflight : List ReadinessItem) :
    Metadata :=
  [(bytes "display_label", .text version.displayLabel), (bytes "workflow_version_id", .number version.id),
    (bytes "run_id", .number run.id), (bytes "run_task_id", .number task.id), (bytes "artifact_id", .number report.id),
    (bytes "actor", .text options.actor), (bytes "risk_level", .text options.riskLevel),
    (bytes "risk_policy", .text options.riskPolicy), (bytes "dry_run", .flag true),
    (bytes "preflight_status", .text (statusOf preflight))]

def runnerPreviewCommandResponse (result : RunnerPreviewResult) : Metadata := fields
  [[(bytes "project_id", .number result.project.id), (bytes "project_key", .text result.project.projectKey),
    (bytes "workflow_version_id", .number result.version.id),
    (bytes "display_label", .text result.version.displayLabel), (bytes "run_id", .number result.run.id),
    (bytes "run_type", .text result.run.runType.name), (bytes "run_status", .text result.run.status.name),
    (bytes "dry_run", .flag result.run.dryRun), (bytes "run_task_ids", .numbers (result.tasks.map (·.id))),
    (bytes "attempt_ids", .numbers (result.attempts.map (·.id))),
    (bytes "artifact_ids", .numbers (result.artifacts.map (·.id))),
    (bytes "artifact_type", .text ((result.artifacts.head?.map (·.artifactType)).getD [])),
    (bytes "artifact_sha256", .text ((result.artifacts.head?.map (·.sha256)).getD [])),
    (bytes "artifact_size_bytes", .number ((result.artifacts.head?.map (·.sizeBytes)).getD 0)),
    (bytes "preflight_status", .text (statusOf result.preflight)), (bytes "event_id", .number result.eventID),
    (bytes "audit_event_id", .number result.auditEventID), (bytes "idempotency_key", .text result.idempotencyKey)],
    noEffects (outsideEffects ++ [bytes "area_matrix_write_attempted"])]

/-- A new preview stores a run with one task, a report and two attempts. -/
def storeRunnerPreview (preflight : List ReadinessItem) : Command Files RunnerPreviewResult := do
  let run ← insertRun ⟨runnerPreviewRun now record version options preflight, fun _ => rfl⟩
  let task ← insertRunTask ⟨runnerPreviewTask now record version options run.id preflight, fun _ => rfl⟩
  let report ← writeAndInsertRunnerPreviewArtifact env now record version options run task preflight
  let copied ← insertRunAttempt ⟨runnerPreviewAttempt now record version options run task report.id .copy, fun _ => rfl⟩
  let verified ← insertRunAttempt ⟨runnerPreviewAttempt now record version options run task report.id .verify, fun _ => rfl⟩
  let preview := runnerPreviewFields version options run task report preflight
  let eventID ← insertEvent
    { projectID := some record.id, runID := some run.id, versionID := some version.id,
      eventType := bytes "runner.preview.completed", severity := bytes "info",
      message := bytes "Runner preview dry-run completed",
      metadata := fields [preview, [(bytes "reason", .text options.reason)]] }
  let auditEventID ← insertAuditEvent
    { projectID := some record.id, actorID := none, action := bytes "runner.preview",
      capability := bytes "execute_agents", resourceType := bytes "workflow_version", resource := version.displayLabel,
      decision := bytes "allowed", reason := options.reason,
      metadata := fields [preview, [(bytes "checks", .json (env.codec.marshal (preflightFields preflight)))]] }
  let result : RunnerPreviewResult :=
    { project := record, version := version, run := run, tasks := [task], attempts := [copied, verified],
      artifacts := [report], preflight := preflight, created := true, idempotencyKey := options.idempotencyKey,
      eventID := eventID, auditEventID := auditEventID }
  complete record.id (bytes "runner.preview") options.idempotencyKey (runnerPreviewCommandResponse result)
  pure result

/-- A repeated preview is answered from the rows of its run. -/
abbrev loadRunnerPreviewByIdempotency : Command Files RunnerPreviewResult :=
  Tx.check fun db =>
    match newest (fun run => (run.startedAt, run.id)) (db.runs.rows.filter fun run =>
      run.projectID == some record.id && run.versionID == some version.id && run.runType == .runnerPreview &&
        metadataString run.metadata (bytes "idempotency_key") == options.idempotencyKey) with
    | none => .error (.failed (bytes "load existing runner preview run"))
    | some run =>
        let response := (loadCommandResponse db record.id (bytes "runner.preview") options.idempotencyKey).toOption.getD []
        .ok { project := record, version := version, run := run,
              tasks := db.tasks.rows.filter (·.runID == run.id),
              attempts := db.attempts.rows.filter (·.runID == run.id),
              artifacts := db.artifacts.rows.filter (·.runID == some run.id),
              preflight := evaluateRunnerPreflight version (normalizeRunnerPreviewOptions record version
                { riskLevel := run.riskLevel, riskPolicy := run.riskPolicy, idempotencyKey := options.idempotencyKey }),
              created := false, idempotencyKey := options.idempotencyKey,
              eventID := metadataInt64 response (bytes "event_id"),
              auditEventID := metadataInt64 response (bytes "audit_event_id") }

end Preview

section Operations

variable {Files : Type} (env : Env Files) (now : Time) (record : ProjectRow)

/-- A failure of the workflow is a failure of the operation. -/
abbrev liftWorkflow {A : Type} (read : Database → Except WorkflowError A) : Command Files A :=
  Tx.check fun db =>
    match read db with
    | .error failure => .error (.workflow failure)
    | .ok answer => .ok answer

/-- This operation previews the run of an authored version. -/
def previewRunner (label : GoString) (raw : RunnerPreviewOptions) : Command Files (Except StoreError RunnerPreviewResult) := do
  let version ← liftWorkflow fun db => getAuthoredVersion db record label
  let options := normalizeRunnerPreviewOptions record version raw
  let preflight := evaluateRunnerPreflight version options
  if statusOf preflight = bytes "blocked" then Tx.fail (.previewBlocked (blockersOf preflight))
  else
    once record.id (bytes "runner.preview") options.idempotencyKey (runnerPreviewRequestHash env record version options)
      (do
        let result ← storeRunnerPreview env now record version options preflight
        pure (.ok result))
      (do
        let result ← loadRunnerPreviewByIdempotency record version options
        pure (.ok result))

/-- Tasks that were created earlier come first. -/
def createdFirst (first second : TaskRow) : Bool :=
  decide (first.createdAt < second.createdAt ∨ first.createdAt = second.createdAt ∧ first.id ≤ second.id)

/-- A dry-run task that waits for a worker, of one run or of every run. -/
def waitingDryRunTask (db : Database) (projectID runID : ID) (task : TaskRow) : Bool :=
  task.projectID == projectID && (runID == 0 || task.runID == runID) &&
    (db.runs.rows.any fun run => run.id == task.runID && run.dryRun) &&
    [TaskStatus.queued, .needsRecovery].contains task.status && !hasActiveLease db task.id

def nextDryRunTaskForLease (db : Database) (projectID runID : ID) : Option TaskRow :=
  firstBy createdFirst (db.tasks.rows.filter (waitingDryRunTask db projectID runID))

def writeAndInsertWorkerRunOnceArtifact (worker : WorkerRow) (task : TaskRow) (lease : LeaseRow)
    (options : WorkerRunOnceOptions) : Command Files ArtifactRow := do
  let relativePath := pathJoin [bytes "workers", worker.workerKey, bytes "run-once",
    bytes "run-task-" ++ sprintID task.id ++ bytes "-report.json"]
  let stored ← writeProjectArtifact env record relativePath
    (env.marshalIndent (fields
      [[(bytes "project", .text record.projectKey), (bytes "worker_id", .number worker.id),
        (bytes "worker_key", .text worker.workerKey), (bytes "run_id", .number task.runID),
        (bytes "run_task_id", .number task.id), (bytes "task_key", .text task.taskKey),
        (bytes "task_kind", .text task.taskKind.name), (bytes "lease_id", .number lease.id),
        (bytes "dry_run", .flag true)], dryEffects,
        [(bytes "executed_attempt", .flag false), (bytes "allowed_capabilities", .texts options.allowedCapabilities),
          (bytes "requested_run_id", .number options.runID)]]))
    (bytes "application/json")
  insertRunArtifactRecord now record.id task.versionID task.runID task.itemID (bytes "worker_run_once_report")
    relativePath stored
    [(bytes "phase", .text (bytes "v0.6d")), (bytes "owned_by", .text (bytes "areaflow")), (bytes "dry_run", .flag true),
      (bytes "worker_id", .number worker.id), (bytes "worker_key", .text worker.workerKey),
      (bytes "run_id", .number task.runID), (bytes "requested_run_id", .number options.runID),
      (bytes "run_task_id", .number task.id), (bytes "lease_id", .number lease.id),
      (bytes "actor", .text options.actor), (bytes "reason", .text options.reason), (bytes "run_once", .flag true)]

/-- The attempt of a worker refers to its report. -/
def workerRunOnceAttempt (task : TaskRow) (lease : LeaseRow) (report : ArtifactRow) (options : WorkerRunOnceOptions)
    (id : ID) : AttemptRow where
  id := id
  projectID := record.id
  versionID := task.versionID
  itemID := task.itemID
  runID := task.runID
  taskID := some task.id
  attemptKind := .workerRunOnce
  status := .passed
  dryRun := true
  metadata := fields
    [[(bytes "actor", .text options.actor), (bytes "reason", .text options.reason), (bytes "dry_run", .flag true),
      (bytes "would_execute", .flag false)], dryEffects,
      [(bytes "lease_id", .number lease.id), (bytes "worker_id", .number (orZero lease.workerID)),
        (bytes "evidence_artifact_id", .number report.id)]]
  startedAt := now
  finishedAt := some now

/-- The worker leases the task, stores a report and an attempt, and completes the lease and the task. -/
def runTaskOnce (worker : WorkerRow) (task : TaskRow) (options : WorkerRunOnceOptions) :
    Command Files WorkerRunOnceResult := do
  let lease ← insertLeaseForTask now record.id worker task (bytes "run_task") options.allowedCapabilities
    [(bytes "run_task_id", .number task.id), (bytes "run_id", .number task.runID), (bytes "task_key", .text task.taskKey),
      (bytes "task_kind", .text task.taskKind.name), (bytes "run_once", .flag true)]
    options.metadata options.leaseTimeoutSeconds
  updateRunTaskStatus task.id .leased
  let report ← writeAndInsertWorkerRunOnceArtifact env now record worker task lease options
  let attempt ← insertRunAttempt ⟨workerRunOnceAttempt now record task lease report options, fun _ => rfl⟩
  let released ← releaseLeaseForWorker now record.id worker lease.id (bytes "completed")
    [(bytes "run_once", .flag true), (bytes "dry_run", .flag true), (bytes "attempt_id", .number attempt.id),
      (bytes "artifact_id", .number report.id)]
  updateRunTaskStatus task.id .passed
  let done : Metadata :=
    [(bytes "lease_id", .number released.id), (bytes "run_id", .number (orZero released.runID)),
      (bytes "run_task_id", .number (orZero released.taskID)), (bytes "attempt_id", .number attempt.id),
      (bytes "artifact_id", .number report.id)]
  let _ ← insertWorkerEvent record.id worker.id (bytes "worker.run_once.completed")
    (bytes "Worker run-once dry-run completed") ((bytes "worker_key", .text worker.workerKey) :: done)
  let _ ← insertWorkerAuditEvent record.id worker.actorID (bytes "worker.run_once") worker.workerKey (bytes "allowed")
    options.reason (fields [done, [(bytes "dry_run", .flag true)]])
  pure { project := record, worker := worker, claimed := some (released, { task with status := .passed }, attempt, report) }

/-- This operation lets a worker finish the next dry-run task. -/
def runWorkerOnce (raw : WorkerRunOnceOptions) : Command Files (Except StoreError WorkerRunOnceResult) := do
  let options := normalizeWorkerRunOnceOptions raw
  let worker ← loadWorkerForUpdate record.id options.workerKey
  let missing := missingWorkerCapabilities worker.capabilities options.allowedCapabilities
  if missing ≠ [] then
    recordWorkerCapabilityDenied record.id worker (bytes "worker.run_once") worker.workerKey options.reason
      options.allowedCapabilities missing [(bytes "run_once", .flag true), (bytes "run_id", .number options.runID)]
    pure (.error (.capabilityDenied missing))
  else
    let _ ← recoverExpiredLeases now record.id 50 [(bytes "trigger", .text (bytes "worker_run_once"))]
    let next ← Tx.query fun db => nextDryRunTaskForLease db record.id options.runID
    match next with
    | none =>
        let _ ← insertWorkerEvent record.id worker.id (bytes "worker.run_once.idle")
          (bytes "Worker run-once found no dry-run task")
          [(bytes "worker_key", .text worker.workerKey), (bytes "run_id", .number options.runID)]
        pure (.ok { project := record, worker := worker, claimed := none })
    | some task =>
        let result ← runTaskOnce env now record worker task options
        pure (.ok result)

end Operations

end AreaFlow.Project
