import AreaFlow.Construction.Project.Commands

namespace AreaFlow.Project
open Go Auth

structure RegisterWorkerOptions where
  workerKey : GoString
  workerType : GoString := []
  hostname : GoString := []
  pid : Int := 0
  capabilities : List GoString := []
  metadata : Metadata := []
  heartbeatIntervalSeconds : Int := 0
  leaseTimeoutSeconds : Int := 0
  actor : GoString := []
  reason : GoString := []
  idempotencyKey : GoString := []
  deriving DecidableEq

structure WorkerHeartbeatOptions where
  status : GoString := []
  metadata : Metadata := []
  actor : GoString := []
  reason : GoString := []
  idempotencyKey : GoString := []
  deriving DecidableEq

structure AcquireLeaseOptions where
  workerKey : GoString
  runTaskID : ID
  leaseKind : GoString := []
  allowedCapabilities : List GoString := []
  scope : Metadata := []
  metadata : Metadata := []
  leaseTimeoutSeconds : Int := 0
  recoverExpiredBefore : Bool := false
  actor : GoString := []
  reason : GoString := []
  idempotencyKey : GoString := []
  deriving DecidableEq

structure ReleaseLeaseOptions where
  workerKey : GoString
  leaseID : ID
  status : GoString := []
  metadata : Metadata := []
  actor : GoString := []
  reason : GoString := []
  idempotencyKey : GoString := []
  deriving DecidableEq

structure RecoverLeasesOptions where
  limit : Int := 0
  actor : GoString := []
  reason : GoString := []
  metadata : Metadata := []
  idempotencyKey : GoString := []
  deriving DecidableEq

structure WorkerRunOnceOptions where
  workerKey : GoString
  runID : ID := 0
  allowedCapabilities : List GoString := []
  leaseTimeoutSeconds : Int := 0
  actor : GoString := []
  reason : GoString := []
  metadata : Metadata := []
  deriving DecidableEq

structure WorkerRunOnceResult where
  project : ProjectRow
  worker : WorkerRow
  claimed : Option (LeaseRow × TaskRow × AttemptRow × ArtifactRow)
  deriving DecidableEq

/-- This loop trims the capabilities and drops empty and repeated ones. -/
def normalizeCapabilityList (capabilities : List GoString) : List GoString := normalizeInto [] capabilities

/-- These are the capabilities of a request that names none. -/
def capabilitiesOr (fallback capabilities : List GoString) : List GoString :=
  normalizeCapabilityList (if capabilities = [] then fallback else capabilities)

def defaultCapabilities : List GoString := [bytes "read_project", bytes "write_artifacts", bytes "execute_agents"]

/-- This is a number, or its default when it is not positive. -/
def positiveOr (fallback value : Int) : Int := if value ≤ 0 then fallback else value

/-- These are the requested capabilities that a worker lacks. -/
def missingWorkerCapabilities (workerCapabilities requestedCapabilities : List GoString) : List GoString :=
  (normalizeCapabilityList requestedCapabilities).filter fun capability =>
    !workerCapabilities.any fun own => trimSpace own == capability

def normalizeRegisterWorkerOptions (hostname : Option GoString) (record : ProjectRow) (options : RegisterWorkerOptions) :
    RegisterWorkerOptions where
  workerKey := textOr (record.projectKey ++ bytes "-local") options.workerKey
  workerType := textOr (bytes "local_host") options.workerType
  hostname := textOr (hostname.getD []) options.hostname
  pid := options.pid
  capabilities := capabilitiesOr defaultCapabilities options.capabilities
  metadata := options.metadata
  heartbeatIntervalSeconds := positiveOr 30 options.heartbeatIntervalSeconds
  leaseTimeoutSeconds := positiveOr 300 options.leaseTimeoutSeconds
  actor := textOr (bytes "local-user") options.actor
  reason := textOr (bytes "worker registry update") options.reason
  idempotencyKey := trimSpace options.idempotencyKey

def normalizeWorkerHeartbeatOptions (options : WorkerHeartbeatOptions) : WorkerHeartbeatOptions where
  status := textOr (bytes "online") options.status
  metadata := options.metadata
  actor := textOr (bytes "local-user") options.actor
  reason := textOr (bytes "worker heartbeat") options.reason
  idempotencyKey := trimSpace options.idempotencyKey

def normalizeAcquireLeaseOptions (options : AcquireLeaseOptions) : AcquireLeaseOptions where
  workerKey := trimSpace options.workerKey
  runTaskID := options.runTaskID
  leaseKind := textOr (bytes "run_task") options.leaseKind
  allowedCapabilities := capabilitiesOr defaultCapabilities options.allowedCapabilities
  scope := options.scope
  metadata := options.metadata
  leaseTimeoutSeconds := positiveOr 300 options.leaseTimeoutSeconds
  recoverExpiredBefore := options.recoverExpiredBefore
  actor := textOr (bytes "local-user") options.actor
  reason := textOr (bytes "lease acquire") options.reason
  idempotencyKey := trimSpace options.idempotencyKey

def normalizeReleaseLeaseOptions (options : ReleaseLeaseOptions) : ReleaseLeaseOptions where
  workerKey := trimSpace options.workerKey
  leaseID := options.leaseID
  status := textOr (bytes "released") options.status
  metadata := options.metadata
  actor := textOr (bytes "local-user") options.actor
  reason := textOr (bytes "lease release") options.reason
  idempotencyKey := trimSpace options.idempotencyKey

def normalizeRecoverLeasesOptions (options : RecoverLeasesOptions) : RecoverLeasesOptions where
  limit := positiveOr 20 options.limit
  actor := textOr (bytes "local-user") options.actor
  reason := textOr (bytes "lease recovery") options.reason
  metadata := options.metadata
  idempotencyKey := trimSpace options.idempotencyKey

def normalizeWorkerRunOnceOptions (options : WorkerRunOnceOptions) : WorkerRunOnceOptions where
  workerKey := trimSpace options.workerKey
  runID := max options.runID 0
  allowedCapabilities := capabilitiesOr defaultCapabilities options.allowedCapabilities
  leaseTimeoutSeconds := positiveOr 300 options.leaseTimeoutSeconds
  actor := textOr (bytes "local-user") options.actor
  reason := textOr (bytes "worker run once") options.reason
  metadata := options.metadata

/-- This is the start of a request hash in an idempotency key. -/
def commandHashPart (requestHash : GoString) : GoString :=
  let hash := trimSpace requestHash
  if 16 < hash.length then hash.take 16 else if hash = [] then bytes "no-request-hash" else hash

section Keys

variable (codec : Codec) (record : ProjectRow)

/-- This is the hash of the fields of a request. -/
def requestHash (payload : Metadata) : GoString := codec.sha256Hex (codec.marshal payload)

/-- This is the key of a request: the given one, or one made from its fields. -/
def keyOr (given derived : GoString) : GoString := if given = [] then derived else given

def workerRegisterRequestHash (options : RegisterWorkerOptions) : GoString :=
  requestHash codec
    [(bytes "command_type", .text (bytes "worker.register")), (bytes "project_key", .text record.projectKey),
      (bytes "worker_key", .text options.workerKey), (bytes "worker_type", .text options.workerType),
      (bytes "hostname", .text options.hostname), (bytes "pid", .number options.pid),
      (bytes "capabilities", .texts options.capabilities), (bytes "metadata", .json (codec.marshal options.metadata)),
      (bytes "heartbeat_interval_seconds", .number options.heartbeatIntervalSeconds),
      (bytes "lease_timeout_seconds", .number options.leaseTimeoutSeconds), (bytes "actor", .text options.actor),
      (bytes "reason", .text options.reason)]

def workerHeartbeatRequestHash (workerKey : GoString) (options : WorkerHeartbeatOptions) : GoString :=
  requestHash codec
    [(bytes "command_type", .text (bytes "worker.heartbeat")), (bytes "project_key", .text record.projectKey),
      (bytes "worker_key", .text (trimSpace workerKey)), (bytes "status", .text options.status),
      (bytes "metadata", .json (codec.marshal options.metadata)), (bytes "actor", .text options.actor),
      (bytes "reason", .text options.reason)]

def leaseAcquireRequestHash (options : AcquireLeaseOptions) : GoString :=
  requestHash codec
    [(bytes "command_type", .text (bytes "lease.acquire")), (bytes "project_key", .text record.projectKey),
      (bytes "worker_key", .text options.workerKey), (bytes "run_task_id", .number options.runTaskID),
      (bytes "lease_kind", .text options.leaseKind), (bytes "allowed_capabilities", .texts options.allowedCapabilities),
      (bytes "scope", .json (codec.marshal options.scope)), (bytes "metadata", .json (codec.marshal options.metadata)),
      (bytes "lease_timeout_seconds", .number options.leaseTimeoutSeconds),
      (bytes "recover_expired_before", .flag options.recoverExpiredBefore), (bytes "actor", .text options.actor),
      (bytes "reason", .text options.reason)]

def leaseReleaseRequestHash (options : ReleaseLeaseOptions) : GoString :=
  requestHash codec
    [(bytes "command_type", .text (bytes "lease.release")), (bytes "project_key", .text record.projectKey),
      (bytes "worker_key", .text options.workerKey), (bytes "lease_id", .number options.leaseID),
      (bytes "status", .text options.status), (bytes "metadata", .json (codec.marshal options.metadata)),
      (bytes "actor", .text options.actor), (bytes "reason", .text options.reason)]

def leaseRecoverRequestHash (options : RecoverLeasesOptions) : GoString :=
  requestHash codec
    [(bytes "command_type", .text (bytes "lease.recover")), (bytes "project_key", .text record.projectKey),
      (bytes "limit", .number options.limit), (bytes "metadata", .json (codec.marshal options.metadata)),
      (bytes "actor", .text options.actor), (bytes "reason", .text options.reason)]

def workerRegisterIdempotencyKey (options : RegisterWorkerOptions) (hash : GoString) (now : Time) (sequence : Nat) :
    GoString :=
  colons [bytes "worker.register", record.projectKey, options.workerKey, sprintID now, sprintID sequence,
    commandHashPart hash]

def workerHeartbeatIdempotencyKey (workerKey hash : GoString) (now : Time) (sequence : Nat) : GoString :=
  colons [bytes "worker.heartbeat", record.projectKey, trimSpace workerKey, sprintID now, sprintID sequence,
    commandHashPart hash]

def leaseAcquireIdempotencyKey (options : AcquireLeaseOptions) (hash : GoString) : GoString :=
  colons [bytes "lease.acquire", record.projectKey, options.workerKey, sprintID options.runTaskID, commandHashPart hash]

def leaseReleaseIdempotencyKey (options : ReleaseLeaseOptions) (hash : GoString) : GoString :=
  colons [bytes "lease.release", record.projectKey, options.workerKey, sprintID options.leaseID, options.status,
    commandHashPart hash]

def leaseRecoverIdempotencyKey (options : RecoverLeasesOptions) (hash : GoString) (now : Time) (sequence : Nat) :
    GoString :=
  colons [bytes "lease.recover", record.projectKey, sprintID options.limit, sprintID now, sprintID sequence,
    commandHashPart hash]

end Keys

end AreaFlow.Project
