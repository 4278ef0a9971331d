import AreaFlow.Construction.Project.Leases

namespace AreaFlow.Project
open Go Auth

/-- A command is allowed or denied; a denial is stored too. -/
inductive Ruling where
  | allowed
  | denied
  deriving DecidableEq

def Ruling.name : Ruling → GoString
  | allowed => bytes "allowed"
  | denied => bytes "denied"

/-- This is the severity of an event. -/
def Ruling.severity : Ruling → GoString
  | allowed => bytes "info"
  | denied => bytes "warning"

/-- The action of a request is a text; only three of them are supported. -/
structure RunControlOptions where
  action : GoString
  idempotencyKey : GoString := []
  actor : GoString := []
  reason : GoString := []
  deriving DecidableEq

structure RunControlResult where
  project : ProjectRow
  run : RunRow
  previousStatus : GoString
  status : GoString
  decision : GoString
  message : GoString
  blockers : List GoString
  eventID : ID
  auditEventID : ID
  idempotencyKey : GoString
  created : Bool
  deriving DecidableEq

/-- This is what the rules of run control say about a run: its next status, a message and the blockers. -/
structure RunControlRuling where
  status : RunStatus
  decision : Ruling
  message : GoString
  blockers : List GoString
  deriving DecidableEq

def normalizeRunControlOptions (options : RunControlOptions) : RunControlOptions where
  action := trimSpace options.action
  idempotencyKey := trimSpace options.idempotencyKey
  actor := textOr (bytes "local-user") options.actor
  reason := textOr (bytes "run " ++ trimSpace options.action ++ bytes " protected control") options.reason

def runControlCommandType (action : GoString) : GoString := bytes "run." ++ trimSpace action

def runControlRequestHash (codec : Codec) (runID : ID) (options : RunControlOptions) : GoString :=
  requestHash codec
    [(bytes "command_type", .text (runControlCommandType options.action)), (bytes "run_id", .number runID),
      (bytes "actor", .text options.actor), (bytes "reason", .text options.reason), (bytes "protected", .flag true),
      (bytes "dry_run_only", .flag true)]

def runControlIdempotencyKey (runID : ID) (options : RunControlOptions) (hash : GoString) : GoString :=
  colons [bytes "run." ++ options.action, sprintID runID, hash.take 16]

/-- The action was already in effect, a transition to a new status, or a blocker. -/
inductive Transition where
  | already (message : GoString)
  | moves (status : RunStatus) (message : GoString)
  | blocked (blocker : GoString)
  deriving DecidableEq

section Rules

variable (quote : GoString → GoString)

/-- These are the transitions of a run. -/
def runTransition (status : RunStatus) (action : GoString) : Transition :=
  let named := bytes "run status " ++ quote status.name
  if action = bytes "start" then
    match status with
    | .running => .already (bytes "run was already running")
    | .queued => .moves .running (bytes "run marked running in protected mode")
    | _ => .blocked (named ++ bytes " cannot be started; expected queued")
  else if action = bytes "drain" then
    match status with
    | .draining | .drained => .already (bytes "run was already draining or drained")
    | .running => .moves .draining (bytes "run drain requested in protected mode")
    | _ => .blocked (named ++ bytes " cannot be drained; expected running")
  else if action = bytes "cancel" then
    match status with
    | .cancelled | .cancelling => .already (bytes "run was already cancelled or cancelling")
    | .queued => .moves .cancelled (bytes "queued run cancelled in protected mode")
    | .running | .draining => .moves .cancelling (bytes "run cancellation requested in protected mode")
    | _ => .blocked (named ++ bytes " cannot be cancelled")
  else .blocked (bytes "run control action " ++ quote action ++ bytes " is not supported")

/-- Only dry runs are controlled, but an action that is already in effect is allowed without that check. -/
def evaluateRunControl (run : RunRow) (action : GoString) : RunControlRuling :=
  let dryRunBlockers := if run.dryRun then [] else [bytes "protected run control is only enabled for dry-run runs"]
  let denied (blockers : List GoString) : RunControlRuling :=
    ⟨run.status, .denied, bytes "run control blocked by protected boundary", blockers⟩
  match runTransition quote run.status action with
  | .already message => ⟨run.status, .allowed, message, []⟩
  | .moves status message =>
      if dryRunBlockers = [] then ⟨status, .allowed, message, []⟩ else denied dryRunBlockers
  | .blocked blocker => denied (blocker :: dryRunBlockers)

end Rules

/-- These effects are never attempted by run control. -/
def runControlEffects : Metadata :=
  noEffects [bytes "project_write_attempted", bytes "execution_write_attempted", bytes "area_matrix_write_attempted",
    bytes "engine_call_attempted"]

/-- This is the end of a run after a control action. -/
def controlledFinish (now : Time) (status : RunStatus) (run : RunRow) : Option Time :=
  if status = .cancelled ∨ status = .drained then some now
  else if run.finishedAt.isSome ∧ run.status ≠ status then none
  else run.finishedAt

/-- This is a run after a control action. -/
def controlledRun (now : Time) (status : RunStatus) (options : RunControlOptions) (run : RunRow) : RunRow :=
  { run with
    status := status
    summary := setKeys run.summary (fields
      [[(bytes "control_status", .text status.name), (bytes "last_control_action", .text options.action),
        (bytes "last_control_actor", .text options.actor), (bytes "last_control_reason", .text options.reason),
        (bytes "last_control_at", .time (some now))], runControlEffects])
    metadata := setKeys run.metadata (fields
      [[(bytes "protected_control", .flag true), (bytes "last_control_action", .text options.action),
        (bytes "last_control_actor", .text options.actor), (bytes "last_control_reason", .text options.reason),
        (bytes "last_control_idempotency_key", .text options.idempotencyKey)], runControlEffects])
    finishedAt := controlledFinish now status run }

/-- A waiting task can be cancelled. -/
def TaskStatus.waits (status : TaskStatus) : Bool :=
  [TaskStatus.pending, .queued, .retryWaiting, .needsRecovery].contains status

/-- A cancelled run cancels its waiting tasks; a run that is being cancelled asks for it. -/
def cancelledTaskStatus (action : GoString) (status : RunStatus) : Option TaskStatus :=
  if action ≠ bytes "cancel" then none
  else
    match status with
    | .cancelled => some .cancelled
    | .cancelling => some .cancelRequested
    | _ => none

section Operations

variable {Files : Type} (env : Env Files) (now : Time)

/-- This operation sets the status of the waiting tasks of a run. -/
def cancelTasks (runID : ID) (status : TaskStatus) : Command Files Unit :=
  Tx.write fun db =>
    ((), { db with
      tasks := db.tasks.update (fun task => task.runID == runID && task.status.waits) (setStatus status) })

def updateRunControlStatus (run : RunRow) (status : RunStatus) (options : RunControlOptions) : Command Files RunRow := do
  updateRun run.id ⟨controlledRun now status options, fun _ => rfl⟩
  match cancelledTaskStatus options.action status with
  | none => pure (controlledRun now status options run)
  | some taskStatus =>
      cancelTasks run.id taskStatus
      pure (controlledRun now status options run)

/-- These fields stand in the event and in the audit row of a control action. -/
def runControlMetadata (run : RunRow) (previous : RunStatus) (ruling : RunControlRuling) (options : RunControlOptions) :
    Metadata :=
  fields
    [[(bytes "run_id", .number run.id), (bytes "workflow_version_id", .number (orZero run.versionID)),
      (bytes "action", .text options.action), (bytes "previous_status", .text previous.name),
      (bytes "status", .text ruling.status.name), (bytes "decision", .text ruling.decision.name),
      (bytes "actor", .text options.actor), (bytes "idempotency_key", .text options.idempotencyKey),
      (bytes "protected_control", .flag true), (bytes "dry_run", .flag run.dryRun)], runControlEffects,
      [(bytes "blockers", .texts ruling.blockers)]]

def runControlCommandResponse (result : RunControlResult) : Metadata :=
  fields
    [[(bytes "project_id", .number result.project.id), (bytes "project_key", .text result.project.projectKey),
      (bytes "run_id", .number result.run.id), (bytes "workflow_version_id", .number (orZero result.run.versionID)),
      (bytes "previous_status", .text result.previousStatus), (bytes "status", .text result.status),
      (bytes "decision", .text result.decision), (bytes "message", .text result.message),
      (bytes "blockers", .texts result.blockers), (bytes "event_id", .number result.eventID),
      (bytes "audit_event_id", .number result.auditEventID), (bytes "dry_run", .flag result.run.dryRun)],
      noEffects [bytes "task_claimed", bytes "worker_started"], runControlEffects,
      noEffects [bytes "commands_run", bytes "secrets_resolved", bytes "network_used"]]

/-- A repeated control action is answered from its stored response. -/
def loadRunControlByCommandResponse (record : ProjectRow) (commandType idempotencyKey : GoString) :
    Command Files RunControlResult := do
  let response ← Tx.check fun db => loadCommandResponse db record.id commandType idempotencyKey
  let run ← loadRunForUpdate (metadataInt64 response (bytes "run_id"))
  pure
    { project := record, run := run, previousStatus := metadataString response (bytes "previous_status"),
      status := metadataString response (bytes "status"), decision := metadataString response (bytes "decision"),
      message := metadataString response (bytes "message"),
      blockers := metadataStringSlice response (bytes "blockers"),
      eventID := metadataInt64 response (bytes "event_id"),
      auditEventID := metadataInt64 response (bytes "audit_event_id"), idempotencyKey := idempotencyKey,
      created := false }

/-- This function loads the project of a run. -/
def loadProjectRecordByID (db : Database) (projectID : Option ID) : Except StoreError ProjectRow :=
  if orZero projectID ≤ 0 then .error (.failed (bytes "run project id is required"))
  else
    match db.identity.projectOf projectID with
    | none => .error (.failed (bytes "load run project"))
    | some record => .ok record

/-- A ruling is applied to the run if it allows the action, and it is recorded in any case. -/
def applyRunControl (record : ProjectRow) (run : RunRow) (options : RunControlOptions) :
    Command Files (Answer RunControlResult) := do
  let ruling := evaluateRunControl env.quote run options.action
  let updated ← match ruling.decision with
    | .allowed => updateRunControlStatus now run ruling.status options
    | .denied => pure run
  let metadata := runControlMetadata updated run.status ruling options
  let eventID ← insertEvent
    { projectID := some record.id, runID := some updated.id, versionID := updated.versionID,
      eventType := bytes "run." ++ options.action ++ bytes "." ++ ruling.decision.name,
      severity := ruling.decision.severity, message := ruling.message, metadata := metadata }
  let auditEventID ← insertAuditEvent
    { projectID := some record.id, actorID := none, action := runControlCommandType options.action,
      capability := bytes "manage_runs", resourceType := bytes "run", resource := sprintID updated.id,
      decision := ruling.decision.name, reason := options.reason, metadata := metadata }
  let result : RunControlResult :=
    { project := record, run := updated, previousStatus := run.status.name, status := ruling.status.name,
      decision := ruling.decision.name, message := ruling.message, blockers := ruling.blockers, eventID := eventID,
      auditEventID := auditEventID, idempotencyKey := options.idempotencyKey, created := true }
  complete record.id (runControlCommandType options.action) options.idempotencyKey (runControlCommandResponse result)
  match ruling.decision with
  | .allowed => pure { result := result }
  | .denied => pure { result := result, failure := some (.runControlBlocked ruling.blockers) }

/-- This operation starts, drains or cancels a run. -/
def controlRun (runID : ID) (raw : RunControlOptions) : Command Files (Answer RunControlResult) :=
  let normalized := normalizeRunControlOptions raw
  let hash := runControlRequestHash env.codec runID normalized
  let options := { normalized with
    idempotencyKey := keyOr normalized.idempotencyKey (runControlIdempotencyKey runID normalized hash) }
  if runID ≤ 0 then Tx.fail (.failed (bytes "run id is required"))
  else do
    let run ← loadRunForUpdate runID
    let record ← Tx.check fun db => loadProjectRecordByID db run.projectID
    once record.id (runControlCommandType options.action) options.idempotencyKey hash
      (applyRunControl env now record run options)
      (do
        let result ← loadRunControlByCommandResponse record (runControlCommandType options.action) options.idempotencyKey
        pure { result := result })

end Operations

end AreaFlow.Project
