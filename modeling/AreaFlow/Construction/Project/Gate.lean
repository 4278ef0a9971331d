import AreaFlow.Construction.Project.Runner

namespace AreaFlow.Project
open Go Auth

/-- These are the workers of a project, the most recently updated first, up to a limit. -/
def listWorkers (db : Database) (record : ProjectRow) (limit : Nat) : List WorkerRow :=
  newestRows (fun worker => (worker.updatedAt, worker.id)) limit (db.workers.rows.filter fun worker =>
    worker.projectID == record.id)

def runnableRunTaskCount (tasks : List TaskRow) : Nat :=
  tasks.countP fun task => task.status == .queued || task.status == .pending

def hasRunnableRunTask (tasks : List TaskRow) : Bool := 0 < runnableRunTaskCount tasks

/-- A worker is online by the text of its status. -/
def onlineWorkers (workers : List WorkerRow) : List WorkerRow := workers.filter (·.status == bytes "online")

def workerWithCapabilities (workers : List WorkerRow) (required : List GoString) : Bool :=
  workers.any fun worker => missingWorkerCapabilities worker.capabilities required == []

/-- A gate result of a version passed. -/
def gatePassed (gate : Option GateRow) : Bool := (gate.map (·.status)) == some (bytes "pass")

/-- The check of the latest approval. -/
def approvalItem (approval : Option ApprovalRow) : ReadinessItem :=
  match approval with
  | none => ⟨bytes "workflow_approval", false, bytes "missing approved workflow approval record"⟩
  | some found =>
      ⟨bytes "workflow_approval", found.decision == .approved, bytes "latest workflow approval record must be approved"⟩

/-- The check of the engine; some operations need no engine. -/
def engineItem (skipped blocked : Bool) : ReadinessItem :=
  if skipped then
    ⟨bytes "engine_adapter_preview", true, bytes "engine preflight is not required for this read-only execution step"⟩
  else if blocked then ⟨bytes "engine_adapter_preview", false, bytes "engine adapter preview is blocked"⟩
  else ⟨bytes "engine_adapter_preview", true, bytes "engine preflight is ready for approval-gated execution"⟩

/-- These are the checks of the execution gate. -/
def buildExecutionApprovalGate (version : VersionRow) (run : RunRow) (tasks : List TaskRow) (approval : Option ApprovalRow)
    (approvalGate liveMappingGate : Option GateRow) (engine : ReadinessItem) (workers : List WorkerRow)
    (requiredCapabilities : List GoString) : List ReadinessItem :=
  let named := normalizeCapabilityList requiredCapabilities
  let required := if named = [] then
    [bytes "execute_agents", bytes "read_project", bytes "run_commands", bytes "write_artifacts"] else named
  let online := onlineWorkers workers
  [⟨bytes "run_kind", run.executionKind, bytes "run must be an execution run"⟩,
    ⟨bytes "run_status", run.status == .queued, bytes "real execution apply starts from queued run state"⟩,
    ⟨bytes "dry_run_boundary", !run.dryRun, bytes "dry-run preview runs cannot enter real execution apply"⟩,
    ⟨bytes "workflow_version_authored", version.importMode == .authored,
      bytes "execution applies only to AreaFlow-authored workflow versions"⟩,
    ⟨bytes "run_tasks_ready", hasRunnableRunTask tasks, bytes "run must have at least one queued or pending run_task"⟩,
    approvalItem approval,
    ⟨bytes "approval_gate", gatePassed approvalGate, bytes "approval_gate must pass before execution apply"⟩,
    ⟨bytes "live_mapping_gate", gatePassed liveMappingGate, bytes "live_mapping_gate must pass before execution apply"⟩,
    engine,
    ⟨bytes "worker_online", decide (online ≠ []), bytes "at least one online worker must be available"⟩,
    ⟨bytes "worker_capabilities", workerWithCapabilities online required,
      bytes "an online worker must satisfy required execution capabilities"⟩,
    ⟨bytes "read_only_boundary", true,
      bytes "execution approval gate did not claim tasks, start workers, run commands, resolve secrets or write project files"⟩]

/-- This function evaluates the execution gate of a run on the current tables. -/
def executionApprovalGate (engineBlocked : ProjectRow → Bool) (db : Database) (runID : ID)
    (requiredCapabilities : List GoString) (skipEnginePreview : Bool) : Except StoreError (List ReadinessItem) := do
  let run ← match db.runs.rows.find? (·.id == runID) with
    | none => .error (.runNotFound [])
    | some run => .ok run
  let record ← match db.identity.projectOf run.projectID with
    | none => .error (.failed (bytes "project not found: " ++ sprintID (orZero run.projectID)))
    | some record => .ok record
  let version ← workflowVersionByID db record.id (orZero run.versionID)
  .ok (buildExecutionApprovalGate version run (db.tasks.rows.filter (·.runID == run.id))
    (latestApprovalRecord db record.id version.id) (latestGateResult db record.id version.id (bytes "approval_gate"))
    (latestGateResult db record.id version.id (bytes "live_mapping_gate"))
    (engineItem skipEnginePreview (engineBlocked record)) (listWorkers db record 100) requiredCapabilities)

end AreaFlow.Project
