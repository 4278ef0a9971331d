import AreaFlow.Library.Tables
import AreaFlow.Construction.Schema

namespace AreaFlow.Project
open Go

/-- These are the operations that workers apply to execution runs. -/
inductive Operation where
  | fixtureExecution
  | readOnlyVerify
  | approvedArtifactWrite
  | fixtureProjectWrite
  | managedGeneratedWrite
  deriving DecidableEq

def Operation.name : Operation → GoString
  | fixtureExecution => bytes "fixture_execution"
  | readOnlyVerify => bytes "read_only_verify"
  | approvedArtifactWrite => bytes "approved_artifact_write"
  | fixtureProjectWrite => bytes "fixture_project_write"
  | managedGeneratedWrite => bytes "managed_generated_write"

inductive RunStatus where
  | queued
  | running
  | draining
  | drained
  | cancelling
  | cancelled
  | passed
  | verified
  | artifactWritten
  | rollbackVerified
  | completed
  deriving DecidableEq

def RunStatus.name : RunStatus → GoString
  | queued => bytes "queued"
  | running => bytes "running"
  | draining => bytes "draining"
  | drained => bytes "drained"
  | cancelling => bytes "cancelling"
  | cancelled => bytes "cancelled"
  | passed => bytes "passed"
  | verified => bytes "verified"
  | artifactWritten => bytes "artifact_written"
  | rollbackVerified => bytes "rollback_verified"
  | completed => bytes "completed"

inductive RunType where
  | operation (operation : Operation)
  | runnerPreview
  | imported
  deriving DecidableEq

def RunType.name : RunType → GoString
  | operation op => op.name
  | runnerPreview => bytes "runner_preview"
  | imported => bytes "import"

/-- Only the execution kind is ever stored; an import has no kind. -/
structure RunRow where
  id : ID
  projectID : Option ID
  versionID : Option ID
  runType : RunType
  executionKind : Bool
  status : RunStatus
  riskLevel : GoString
  riskPolicy : GoString
  dryRun : Bool
  summary : Metadata
  metadata : Metadata
  startedAt : Time
  finishedAt : Option Time
  deriving DecidableEq

inductive TaskStatus where
  | pending
  | queued
  | leased
  | retryWaiting
  | needsRecovery
  | cancelRequested
  | cancelled
  | passed
  | verified
  | artifactWritten
  | rollbackVerified
  deriving DecidableEq

def TaskStatus.name : TaskStatus → GoString
  | pending => bytes "pending"
  | queued => bytes "queued"
  | leased => bytes "leased"
  | retryWaiting => bytes "retry_waiting"
  | needsRecovery => bytes "needs_recovery"
  | cancelRequested => bytes "cancel_requested"
  | cancelled => bytes "cancelled"
  | passed => bytes "passed"
  | verified => bytes "verified"
  | artifactWritten => bytes "artifact_written"
  | rollbackVerified => bytes "rollback_verified"

inductive TaskKind where
  | task (operation : Operation)
  | workflowItemPreview
  deriving DecidableEq

def TaskKind.name : TaskKind → GoString
  | task op => op.name ++ bytes "_task"
  | workflowItemPreview => bytes "workflow_item_preview"

structure TaskRow where
  id : ID
  projectID : ID
  versionID : Option ID
  itemID : Option ID
  runID : ID
  taskKey : GoString
  taskKind : TaskKind
  status : TaskStatus
  riskLevel : GoString
  sequence : Nat
  metadata : Metadata
  createdAt : Time
  deriving DecidableEq

/-- The write operations store one attempt for each of their three phases. -/
inductive AttemptKind where
  | operation (operation : Operation)
  | workerRunOnce
  | copy
  | verify
  | rollback
  deriving DecidableEq

inductive AttemptStatus where
  | passed
  | failed
  deriving DecidableEq

structure AttemptRow where
  id : ID
  projectID : ID
  versionID : Option ID
  itemID : Option ID
  runID : ID
  taskID : Option ID
  attemptKind : AttemptKind
  status : AttemptStatus
  dryRun : Bool
  metadata : Metadata
  startedAt : Time
  finishedAt : Option Time
  deriving DecidableEq

/-- The status of a worker is the text of its last heartbeat. -/
structure WorkerRow where
  id : ID
  projectID : ID
  actorID : Option ID
  workerKey : GoString
  workerType : GoString
  status : GoString
  hostname : GoString
  pid : Option Int
  capabilities : List GoString
  metadata : Metadata
  registeredAt : Time
  lastHeartbeatAt : Option Time
  heartbeatIntervalSeconds : Int
  leaseTimeoutSeconds : Int
  updatedAt : Time
  deriving DecidableEq

structure HeartbeatRow where
  id : ID
  projectID : ID
  workerID : ID
  status : GoString
  observedAt : Time
  metadata : Metadata
  deriving DecidableEq

/-- The kind and the final status of a lease are texts of its requests. -/
structure LeaseRow where
  id : ID
  projectID : ID
  runID : Option ID
  taskID : Option ID
  itemID : Option ID
  workerID : Option ID
  leaseKind : GoString
  status : GoString
  acquiredAt : Time
  expiresAt : Time
  heartbeatAt : Option Time
  releasedAt : Option Time
  allowedCapabilities : List GoString
  scope : Metadata
  metadata : Metadata
  deriving DecidableEq

/-- A lease is active by the text of its status. -/
def LeaseRow.active (lease : LeaseRow) : Bool := lease.status == bytes "active"

structure ArtifactRow where
  id : ID
  projectID : ID
  versionID : Option ID
  runID : Option ID
  itemID : Option ID
  artifactType : GoString
  storageBackend : GoString
  uri : GoString
  sourcePath : GoString
  sha256 : GoString
  sizeBytes : Nat
  contentType : GoString
  metadata : Metadata
  createdAt : Time
  deriving DecidableEq

end AreaFlow.Project
