import AreaFlow.Construction.Project.Worker

namespace AreaFlow.Project
open Go Auth

/-- These entries say which effects a command did not have. -/
def noEffects (effects : List GoString) : Metadata := effects.map fun effect => (effect, .flag false)

/-- These are the effects that no lease or worker command has. -/
def outsideEffects : List GoString :=
  [bytes "project_write_attempted", bytes "execution_write_attempted", bytes "engine_call_attempted",
    bytes "commands_run", bytes "secrets_resolved", bytes "network_used"]

/-- A lease response says whether a lease was created and that nothing else happened. -/
def leaseCommandResponse (response : Metadata) : Metadata :=
  let out := if (metadataGet response (bytes "lease_created")).isNone then
    setKey response (bytes "lease_created") (.flag false) else response
  setKeys out (noEffects (outsideEffects ++ [bytes "attempt_created", bytes "artifact_created", bytes "worker_run_once"]))

def workerLifecycleCommandResponse (response : Metadata) : Metadata :=
  setKeys response (noEffects (outsideEffects ++
    [bytes "lease_created", bytes "attempt_created", bytes "artifact_created", bytes "worker_run_once"]))

section Rows

variable {Files : Type}

abbrev insertWorkerEvent (projectID workerID : ID) (eventType message : GoString) (metadata : Metadata) :
    Command Files ID :=
  insertEvent
    { projectID := some projectID, runID := none, versionID := none, eventType := eventType, severity := bytes "info",
      message := message, metadata := setKey metadata (bytes "worker_id") (.number workerID) }

abbrev insertWorkerAuditEvent (projectID : ID) (actorID : Option ID) (action resource decision reason : GoString)
    (metadata : Metadata) : Command Files ID :=
  insertAuditEvent
    { projectID := some projectID, actorID := actorID, action := action, capability := bytes "manage_workers",
      resourceType := bytes "worker", resource := resource, decision := decision, reason := reason, metadata := metadata }

def insertWorkerHeartbeat (now : Time) (projectID workerID : ID) (status : GoString) (metadata : Metadata) :
    Command Files ID :=
  let new : Table.New HeartbeatRow (·.id) := ⟨fun id =>
    { id := id, projectID := projectID, workerID := workerID, status := status, observedAt := now,
      metadata := metadata }, fun _ => rfl⟩
  Tx.write fun db => (db.heartbeats.nextID, { db with heartbeats := db.heartbeats.insert new })

abbrev loadWorkerForUpdate (projectID : ID) (workerKey : GoString) : Command Files WorkerRow :=
  Tx.check fun db =>
    if trimSpace workerKey = [] then .error (.failed (bytes "worker key is required"))
    else
      match db.workers.rows.find? fun worker => worker.projectID == projectID && worker.workerKey == workerKey with
      | none => .error .workerNotFound
      | some worker => .ok worker

abbrev loadWorkerByID (projectID workerID : ID) : Command Files WorkerRow :=
  Tx.check fun db =>
    match db.workers.rows.find? fun worker => worker.projectID == projectID && worker.id == workerID with
    | none => .error .workerNotFound
    | some worker => .ok worker

abbrev loadLeaseByID (projectID leaseID : ID) : Command Files LeaseRow :=
  Tx.check fun db =>
    match db.leases.rows.find? fun lease => lease.projectID == projectID && lease.id == leaseID with
    | none => .error .leaseNotFound
    | some lease => .ok lease

/-- A task in any status may be leased; only its project is checked. -/
abbrev loadRunTaskForLease (projectID runTaskID : ID) : Command Files TaskRow :=
  Tx.check fun db =>
    if runTaskID ≤ 0 then .error (.failed (bytes "run task id is required"))
    else
      match db.tasks.rows.find? fun task => task.projectID == projectID && task.id == runTaskID with
      | none => .error (.noLeaseAvailable [])
      | some task => .ok task

abbrev loadWorkerByCommandResponse (projectID : ID) (commandType idempotencyKey : GoString) : Command Files WorkerRow := do
  let response ← Tx.check fun db => loadCommandResponse db projectID commandType idempotencyKey
  let workerID := metadataInt64 response (bytes "worker_id")
  if workerID = 0 then Tx.fail (.failed (bytes "worker id missing from command response: " ++ idempotencyKey))
  else loadWorkerByID projectID workerID

abbrev loadLeaseByCommandResponse (projectID : ID) (commandType idempotencyKey : GoString) : Command Files LeaseRow := do
  let response ← Tx.check fun db => loadCommandResponse db projectID commandType idempotencyKey
  let leaseID := metadataInt64 response (bytes "lease_id")
  if metadataString response (bytes "decision") = bytes "denied" then
    Tx.fail (.capabilityDenied (stringSliceFromAny (metadataGet response (bytes "missing_capabilities"))))
  else if leaseID = 0 then Tx.fail (.failed (bytes "lease id missing from command response: " ++ idempotencyKey))
  else loadLeaseByID projectID leaseID

/-- This loop loads leases one after another. -/
def loadLeases (projectID : ID) : List ID → Command Files (List LeaseRow)
  | [] => pure []
  | leaseID :: rest => do
      let lease ← loadLeaseByID projectID leaseID
      let leases ← loadLeases projectID rest
      pure (lease :: leases)

def loadLeasesByCommandResponse (projectID : ID) (commandType idempotencyKey : GoString) :
    Command Files (List LeaseRow) := do
  let response ← Tx.check fun db => loadCommandResponse db projectID commandType idempotencyKey
  loadLeases projectID (int64SliceFromAny (metadataGet response (bytes "lease_ids")))

/-- A task has an active lease. -/
def hasActiveLease (db : Database) (taskID : ID) : Bool :=
  db.leases.rows.any fun lease => lease.taskID == some taskID && lease.active

/-- This is the number of nanoseconds of some seconds. -/
def seconds (count : Int) : Time := count.toNat * 1000000000

section New

variable (now : Time) (projectID : ID) (worker : WorkerRow) (task : TaskRow) (leaseKind : GoString)
  (capabilities : List GoString) (scope metadata : Metadata) (timeoutSeconds : Int)

/-- This is the new lease of a task. -/
def newLease (id : ID) : LeaseRow where
  id := id
  projectID := projectID
  runID := some task.runID
  taskID := some task.id
  itemID := task.itemID
  workerID := some worker.id
  leaseKind := leaseKind
  status := bytes "active"
  acquiredAt := now
  expiresAt := now + seconds timeoutSeconds
  heartbeatAt := some now
  releasedAt := none
  allowedCapabilities := capabilities
  scope := setKeys scope
    [(bytes "run_task_id", .number task.id), (bytes "task_key", .text task.taskKey),
      (bytes "task_kind", .text task.taskKind.name)]
  metadata := metadata

/-- A unique index allows one active lease for a task. -/
def insertLeaseForTask : Command Files LeaseRow := do
  let taken ← Tx.query fun db => hasActiveLease db task.id
  if taken then Tx.fail (.failed (bytes "insert lease"))
  else
    insertLease
      ⟨newLease now projectID worker task leaseKind capabilities scope metadata timeoutSeconds, fun _ => rfl⟩

end New

/-- This is a lease after its end. -/
def ended (now : Time) (status : GoString) (metadata : Metadata) (lease : LeaseRow) : LeaseRow :=
  { lease with status := status, releasedAt := some now, metadata := setKeys lease.metadata metadata }

/-- This change ends a lease. -/
def endLease (now : Time) (status : GoString) (metadata : Metadata) : Table.Change LeaseRow (·.id) :=
  ⟨ended now status metadata, fun _ => rfl⟩

/-- This is the active lease of a worker with an identifier. -/
def leaseOfWorker (db : Database) (projectID workerID leaseID : ID) : Option LeaseRow :=
  db.leases.rows.find? fun lease =>
    lease.projectID == projectID && lease.id == leaseID && lease.workerID == some workerID && lease.active

def releaseLeaseForWorker (now : Time) (projectID : ID) (worker : WorkerRow) (leaseID : ID) (status : GoString)
    (metadata : Metadata) : Command Files LeaseRow := do
  let lease ← Tx.check fun db =>
    match leaseOfWorker db projectID worker.id leaseID with
    | none => .error .leaseNotFound
    | some lease => .ok lease
  updateLeases (·.id == lease.id) (endLease now status metadata)
  pure (ended now status metadata lease)

/-- Leases that expire earlier come first. -/
def expiresFirst (first second : LeaseRow) : Bool :=
  decide (first.expiresAt < second.expiresAt ∨ first.expiresAt = second.expiresAt ∧ first.id ≤ second.id)

/-- These are the active leases of a project whose time is over, up to a limit. -/
def expiredLeases (db : Database) (now : Time) (projectID : ID) (limit : Int) : List LeaseRow :=
  ((db.leases.rows.filter fun lease => lease.projectID == projectID && lease.active && decide (lease.expiresAt < now))
    |>.insertionSort fun first second => expiresFirst first second).take (positiveOr 20 limit).toNat

/-- Expired leases are marked; their tasks keep their status. -/
def recoverExpiredLeases (now : Time) (projectID : ID) (limit : Int) (metadata : Metadata) :
    Command Files (List LeaseRow) := do
  let expired ← Tx.query fun db => expiredLeases db now projectID limit
  updateLeases (fun lease => expired.any (·.id == lease.id)) (endLease now (bytes "needs_recovery") metadata)
  pure (expired.map (ended now (bytes "needs_recovery") metadata))

/-- This is the external key of the actor of a worker. -/
def workerActorKey (record : ProjectRow) (workerKey : GoString) : GoString :=
  colons [bytes "worker", record.projectKey, workerKey]

def ensureWorkerActor (record : ProjectRow) (workerKey : GoString) : Command Files ID :=
  Tx.write fun db =>
    match db.identity.actors.find? (·.externalKey == some (workerActorKey record workerKey)) with
    | some actor => (actor.id, db)
    | none =>
        let id := freshID (db.identity.actors.map (·.id))
        (id, { db with identity := { db.identity with actors := db.identity.actors ++
          [{ id := id, kind := .worker, displayName := workerKey,
             externalKey := some (workerActorKey record workerKey) }] } })

/-- A denied capability leaves an event and an audit row with the same metadata. -/
def recordWorkerCapabilityDenied (projectID : ID) (worker : WorkerRow) (action resource reason : GoString)
    (requested missing : List GoString) (metadata : Metadata) : Command Files Unit := do
  let metadata := setKeys metadata
    [(bytes "worker_key", .text worker.workerKey), (bytes "worker_capabilities", .texts worker.capabilities),
      (bytes "requested_capabilities", .texts requested), (bytes "missing_capabilities", .texts missing),
      (bytes "worker_id", .number worker.id)]
  let _ ← insertWorkerEvent projectID worker.id (action ++ bytes ".denied") (bytes "Worker capability denied") metadata
  let _ ← insertWorkerAuditEvent projectID worker.actorID action resource (bytes "denied") reason metadata
  pure ()

end Rows

section Operations

variable {Files : Type} (env : Env Files) (now : Time) (sequence : Nat) (record : ProjectRow)

/-- This is the row of a registered worker; a known worker keeps its identifier and its first registration. -/
def workerRow (options : RegisterWorkerOptions) (actorID : ID) (registeredAt : Time) (id : ID) : WorkerRow where
  id := id
  projectID := record.id
  actorID := some actorID
  workerKey := options.workerKey
  workerType := options.workerType
  status := bytes "online"
  hostname := options.hostname
  pid := if options.pid ≤ 0 then none else some options.pid
  capabilities := options.capabilities
  metadata := options.metadata
  registeredAt := registeredAt
  lastHeartbeatAt := some now
  heartbeatIntervalSeconds := options.heartbeatIntervalSeconds
  leaseTimeoutSeconds := options.leaseTimeoutSeconds
  updatedAt := now

def upsertWorker (options : RegisterWorkerOptions) (actorID : ID) : Command Files WorkerRow :=
  Tx.write fun db =>
    match db.workers.rows.find? fun worker =>
      worker.projectID == record.id && worker.workerKey == options.workerKey with
    | none =>
        let new : Table.New WorkerRow (·.id) := ⟨workerRow now record options actorID now, fun _ => rfl⟩
        (db.workers.next new, { db with workers := db.workers.insert new })
    | some known =>
        (workerRow now record options actorID known.registeredAt known.id,
          { db with
            workers := db.workers.update (·.id == known.id)
              ⟨fun worker => workerRow now record options actorID worker.registeredAt worker.id, fun _ => rfl⟩ })

/-- This is the response of a worker command. -/
def workerResponse (worker : WorkerRow) (heartbeatID eventID auditEventID : ID) (registered : Bool) : Metadata :=
  workerLifecycleCommandResponse
    [(bytes "decision", .text (bytes "allowed")), (bytes "worker_id", .number worker.id),
      (bytes "worker_key", .text worker.workerKey), (bytes "worker_type", .text worker.workerType),
      (bytes "worker_status", .text worker.status), (bytes "heartbeat_id", .number heartbeatID),
      (bytes "event_id", .number eventID), (bytes "audit_event_id", .number auditEventID),
      (bytes "worker_registered", .flag registered), (bytes "heartbeat_recorded", .flag true),
      (bytes "worker_record_write", .flag true)]

/-- This operation registers a worker of a project. -/
def registerWorker (raw : RegisterWorkerOptions) : Command Files (Except StoreError WorkerRow) :=
  let options := normalizeRegisterWorkerOptions env.hostname record raw
  let hash := workerRegisterRequestHash env.codec record options
  let key := keyOr options.idempotencyKey (workerRegisterIdempotencyKey record options hash now sequence)
  once record.id (bytes "worker.register") key hash
    (do
      let actorID ← ensureWorkerActor record options.workerKey
      let worker ← upsertWorker now record options actorID
      let heartbeatID ← insertWorkerHeartbeat now record.id worker.id worker.status options.metadata
      let eventID ← insertWorkerEvent record.id worker.id (bytes "worker.registered") (bytes "Worker registered")
        [(bytes "worker_key", .text worker.workerKey), (bytes "worker_type", .text worker.workerType),
          (bytes "capabilities", .texts worker.capabilities)]
      let auditEventID ← insertWorkerAuditEvent record.id (some actorID) (bytes "worker.register") worker.workerKey
        (bytes "allowed") options.reason
        [(bytes "worker_id", .number worker.id), (bytes "worker_type", .text worker.workerType)]
      complete record.id (bytes "worker.register") key (workerResponse worker heartbeatID eventID auditEventID true)
      pure (.ok worker))
    (do
      let worker ← loadWorkerByCommandResponse record.id (bytes "worker.register") key
      pure (.ok worker))

/-- A heartbeat sets the status of a worker and adds to its metadata. -/
def beaten (options : WorkerHeartbeatOptions) (worker : WorkerRow) : WorkerRow :=
  { worker with
    status := options.status, lastHeartbeatAt := some now, updatedAt := now
    metadata := setKeys worker.metadata options.metadata }

/-- This step applies a heartbeat to the worker with a key. -/
def beat (workerKey : GoString) (options : WorkerHeartbeatOptions) : Command Files WorkerRow := do
  let known ← Tx.check fun db =>
    match db.workers.rows.find? fun worker => worker.projectID == record.id && worker.workerKey == workerKey with
    | none => .error .workerNotFound
    | some worker => .ok worker
  updateWorker known.id ⟨beaten now options, fun _ => rfl⟩
  pure (beaten now options known)

/-- This operation records a heartbeat of a worker. -/
def recordWorkerHeartbeat (rawKey : GoString) (raw : WorkerHeartbeatOptions) :
    Command Files (Except StoreError WorkerRow) :=
  let workerKey := trimSpace rawKey
  let options := normalizeWorkerHeartbeatOptions raw
  let hash := workerHeartbeatRequestHash env.codec record workerKey options
  let key := keyOr options.idempotencyKey (workerHeartbeatIdempotencyKey record workerKey hash now sequence)
  if workerKey = [] then Tx.fail (.failed (bytes "worker key is required"))
  else once record.id (bytes "worker.heartbeat") key hash
    (do
      let worker ← beat now record workerKey options
      let heartbeatID ← insertWorkerHeartbeat now record.id worker.id worker.status options.metadata
      let eventID ← insertWorkerEvent record.id worker.id (bytes "worker.heartbeat") (bytes "Worker heartbeat recorded")
        [(bytes "worker_key", .text worker.workerKey), (bytes "status", .text worker.status)]
      let auditEventID ← insertWorkerAuditEvent record.id worker.actorID (bytes "worker.heartbeat") worker.workerKey
        (bytes "allowed") options.reason
        [(bytes "worker_id", .number worker.id), (bytes "status", .text worker.status)]
      complete record.id (bytes "worker.heartbeat") key (workerResponse worker heartbeatID eventID auditEventID false)
      pure (.ok worker))
    (do
      let worker ← loadWorkerByCommandResponse record.id (bytes "worker.heartbeat") key
      pure (.ok worker))

/-- These fields name a lease in its events. -/
def leaseFields (worker : WorkerRow) (lease : LeaseRow) : Metadata :=
  [(bytes "worker_key", .text worker.workerKey), (bytes "lease_id", .number lease.id),
    (bytes "run_id", .number (orZero lease.runID)), (bytes "run_task_id", .number (orZero lease.taskID))]

/-- This is the response of a command that acquired or released a lease. -/
def leaseResponse (worker : WorkerRow) (lease : LeaseRow) (created : Bool) : Metadata :=
  leaseCommandResponse
    [(bytes "decision", .text (bytes "allowed")), (bytes "lease_id", .number lease.id),
      (bytes "run_id", .number (orZero lease.runID)), (bytes "run_task_id", .number (orZero lease.taskID)),
      (bytes "worker_id", .number worker.id), (bytes "worker_key", .text worker.workerKey),
      (bytes "lease_kind", .text lease.leaseKind), (bytes "lease_status", .text lease.status),
      (bytes "lease_created", .flag created)]

/-- A worker without the requested capabilities is denied a lease; the denial is stored. -/
def denyLease (options : AcquireLeaseOptions) (key : GoString) (worker : WorkerRow) (missing : List GoString) :
    Command Files (Except StoreError LeaseRow) := do
  recordWorkerCapabilityDenied record.id worker (bytes "lease.acquire") (sprintID options.runTaskID) options.reason
    options.allowedCapabilities missing
    [(bytes "run_task_id", .number options.runTaskID), (bytes "lease_kind", .text options.leaseKind)]
  complete record.id (bytes "lease.acquire") key
    (leaseCommandResponse
      [(bytes "decision", .text (bytes "denied")), (bytes "worker_id", .number worker.id),
        (bytes "worker_key", .text worker.workerKey), (bytes "run_task_id", .number options.runTaskID),
        (bytes "lease_kind", .text options.leaseKind), (bytes "missing_capabilities", .texts missing),
        (bytes "lease_created", .flag false)])
  pure (.error (.capabilityDenied missing))

/-- This operation leases a task of a project to a worker. -/
def acquireLease (raw : AcquireLeaseOptions) : Command Files (Except StoreError LeaseRow) :=
  let options := normalizeAcquireLeaseOptions raw
  let hash := leaseAcquireRequestHash env.codec record options
  let key := keyOr options.idempotencyKey (leaseAcquireIdempotencyKey record options hash)
  once record.id (bytes "lease.acquire") key hash
    (do
      let worker ← loadWorkerForUpdate record.id options.workerKey
      let missing := missingWorkerCapabilities worker.capabilities options.allowedCapabilities
      if missing ≠ [] then denyLease record options key worker missing
      else
        Tx.when options.recoverExpiredBefore (do
          let _ ← recoverExpiredLeases now record.id 50 options.metadata
          pure ())
        let task ← loadRunTaskForLease record.id options.runTaskID
        let lease ← insertLeaseForTask now record.id worker task options.leaseKind options.allowedCapabilities
          options.scope options.metadata options.leaseTimeoutSeconds
        updateRunTaskStatus task.id .leased
        let _ ← insertWorkerEvent record.id worker.id (bytes "lease.acquired") (bytes "Worker lease acquired")
          (fields [leaseFields worker lease, [(bytes "lease_kind", .text lease.leaseKind)]])
        let _ ← insertWorkerAuditEvent record.id worker.actorID (bytes "lease.acquire") (sprintID lease.id)
          (bytes "allowed") options.reason
          [(bytes "worker_id", .number worker.id), (bytes "worker_key", .text worker.workerKey),
            (bytes "run_task_id", .number (orZero lease.taskID)), (bytes "lease_kind", .text lease.leaseKind)]
        complete record.id (bytes "lease.acquire") key (leaseResponse worker lease true)
        pure (.ok lease))
    (do
      let lease ← loadLeaseByCommandResponse record.id (bytes "lease.acquire") key
      pure (.ok lease))

/-- A released task is queued again, unless its lease was completed. -/
def releasedTaskStatus (status : GoString) : TaskStatus := if status = bytes "completed" then .passed else .queued

/-- This operation ends a lease of a worker; the status of the lease is the given text. -/
def releaseLease (raw : ReleaseLeaseOptions) : Command Files (Except StoreError LeaseRow) :=
  let options := normalizeReleaseLeaseOptions raw
  let hash := leaseReleaseRequestHash env.codec record options
  let key := keyOr options.idempotencyKey (leaseReleaseIdempotencyKey record options hash)
  once record.id (bytes "lease.release") key hash
    (do
      let worker ← loadWorkerForUpdate record.id options.workerKey
      let lease ← releaseLeaseForWorker now record.id worker options.leaseID options.status options.metadata
      updateRunTaskStatus (orZero lease.taskID) (releasedTaskStatus options.status)
      let _ ← insertWorkerEvent record.id worker.id (bytes "lease.released") (bytes "Worker lease released")
        (fields [leaseFields worker lease, [(bytes "status", .text lease.status)]])
      let _ ← insertWorkerAuditEvent record.id worker.actorID (bytes "lease.release") (sprintID lease.id)
        (bytes "allowed") options.reason
        [(bytes "worker_id", .number worker.id), (bytes "worker_key", .text worker.workerKey),
          (bytes "run_task_id", .number (orZero lease.taskID)), (bytes "status", .text lease.status)]
      complete record.id (bytes "lease.release") key (leaseResponse worker lease false)
      pure (.ok lease))
    (do
      let lease ← loadLeaseByCommandResponse record.id (bytes "lease.release") key
      pure (.ok lease))

/-- A recovered lease marks its task and leaves an event and an audit row. -/
def recoverTask (reason : GoString) (lease : LeaseRow) : Command Files Unit := do
  updateRunTaskStatus (orZero lease.taskID) .needsRecovery
  let _ ← insertWorkerEvent record.id (orZero lease.workerID) (bytes "lease.recovered")
    (bytes "Expired lease marked for recovery")
    [(bytes "lease_id", .number lease.id), (bytes "run_id", .number (orZero lease.runID)),
      (bytes "run_task_id", .number (orZero lease.taskID)), (bytes "status", .text lease.status)]
  let _ ← insertWorkerAuditEvent record.id none (bytes "lease.recover") (sprintID lease.id) (bytes "allowed") reason
    [(bytes "run_task_id", .number (orZero lease.taskID)), (bytes "status", .text lease.status)]
  pure ()

/-- This operation marks the expired leases of a project and their tasks. -/
def recoverLeases (raw : RecoverLeasesOptions) : Command Files (Except StoreError (List LeaseRow)) :=
  let options := normalizeRecoverLeasesOptions raw
  let hash := leaseRecoverRequestHash env.codec record options
  let key := keyOr options.idempotencyKey (leaseRecoverIdempotencyKey record options hash now sequence)
  once record.id (bytes "lease.recover") key hash
    (do
      let leases ← recoverExpiredLeases now record.id options.limit options.metadata
      Tx.forEach (recoverTask record options.reason) leases
      complete record.id (bytes "lease.recover") key
        (leaseCommandResponse
          [(bytes "decision", .text (bytes "allowed")), (bytes "lease_ids", .numbers (leases.map (·.id))),
            (bytes "count", .number leases.length), (bytes "lease_created", .flag false)])
      pure (.ok leases))
    (do
      let leases ← loadLeasesByCommandResponse record.id (bytes "lease.recover") key
      pure (.ok leases))

end Operations

end AreaFlow.Project
