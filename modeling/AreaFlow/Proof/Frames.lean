import AreaFlow.Construction.Project.System

namespace AreaFlow.Project
open Go Tx

set_option synthInstance.maxSize 2048

/-- A relation is indifferent to the steps that leave records of the work: events, audits, attempts and artifacts. -/
class Steps (Files : Type) (relation : Database → Database → Prop) : Prop extends IsPreorder Database relation where
  event : ∀ row, Moves relation (insertEvent row : Command Files ID)
  audit : ∀ row, Moves relation (insertAuditEvent row : Command Files ID)
  attempt : ∀ new, Moves relation (insertRunAttempt new : Command Files AttemptRow)
  artifact : ∀ new, Moves relation (insertArtifact new : Command Files ArtifactRow)
  taskMetadata : ∀ taskID additions, Moves relation (updateRunTaskMetadata taskID additions : Command Files Unit)

/-- A relation is indifferent to the steps that register workers and keep their state. -/
class Staff (Files : Type) (relation : Database → Database → Prop) : Prop where
  heartbeat : ∀ now projectID workerID status metadata,
    Moves relation (insertWorkerHeartbeat now projectID workerID status metadata : Command Files ID)
  actor : ∀ record workerKey, Moves relation (ensureWorkerActor record workerKey : Command Files ID)
  worker : ∀ now record options actorID, Moves relation (upsertWorker now record options actorID : Command Files WorkerRow)
  beat : ∀ now workerID options, Moves relation (updateWorker workerID ⟨beaten now options, fun _ => rfl⟩ : Command Files Unit)

/-- A relation is indifferent to the reservation and the response of a command with a key. -/
class Commands (Files : Type) (relation : Database → Database → Prop) (projectID : ID)
    (commandType idempotencyKey : GoString) : Prop where
  reserved : ∀ hash, Moves relation (reserve projectID commandType idempotencyKey hash : Command Files Bool)
  completed : ∀ response, Moves relation (complete projectID commandType idempotencyKey response : Command Files Unit)

attribute [instance] Steps.event Steps.audit Steps.attempt Steps.artifact Steps.taskMetadata Staff.heartbeat Staff.actor
  Staff.worker Staff.beat Commands.reserved Commands.completed

/-- A relation that looks at no worker, actor or heartbeat is indifferent to them. -/
theorem Staff.of_ignoring {Files : Type} {relation : Database → Database → Prop} [IsPreorder Database relation]
    (ignores : ∀ (db : Database) actors workers heartbeats, relation db
      { db with identity := { db.identity with actors := actors }, workers := workers, heartbeats := heartbeats }) :
    Staff Files relation where
  heartbeat _ _ _ _ _ := Moves.write fun db => ignores db _ _ _
  actor _ _ := Moves.write fun db => by
    split
    · exact refl db
    · exact ignores db _ _ _
  worker _ _ _ _ := Moves.write fun db => by
    split
    · exact ignores db _ _ _
    · exact ignores db _ _ _
  beat _ _ _ := Moves.write fun db => ignores db _ _ _

/-- A relation that does not look at the commands is indifferent to every command. -/
theorem Commands.of_ignoring {Files : Type} {relation : Database → Database → Prop}
    (ignores : ∀ (db : Database) (commands : List CommandRow), relation db { db with commands := commands })
    {projectID : ID} {commandType idempotencyKey : GoString} :
    Commands Files relation projectID commandType idempotencyKey where
  reserved _ := ⟨by
    intro files db files' created db' run
    unfold reserve at run
    split at run
    · cases run
      exact ignores db _
    · cases run
      exact ignores db db.commands
    · cases run⟩
  completed _ := Moves.write fun db => ignores db _

section Readings

variable {Files Row : Type} {relation : Database → Database → Prop} [IsPreorder Database relation] {record : ProjectRow}
  {projectID : ID} {idempotencyKey : GoString} {response : Metadata}

instance {leaseIDs : List ID} : Moves relation (loadLeases projectID leaseIDs : Command Files (List LeaseRow)) := by
  induction leaseIDs with
  | nil =>
      unfold loadLeases
      infer_instance
  | cons first rest ih =>
      unfold loadLeases
      infer_instance

instance {commandType : GoString} :
    Moves relation (loadLeasesByCommandResponse projectID commandType idempotencyKey : Command Files (List LeaseRow)) := by
  unfold loadLeasesByCommandResponse
  infer_instance

instance {key : GoString} :
    Moves relation (loadNamedArtifact projectID response key : Command Files (Option ArtifactRow)) := by
  unfold loadNamedArtifact
  infer_instance

instance {version : VersionRow} {operation : Operation} :
    Moves relation (loadQueueByCommandResponse record version operation idempotencyKey : Command Files QueueResult) := by
  unfold loadQueueByCommandResponse
  infer_instance

instance {commandType : GoString} :
    Moves relation (loadRunControlByCommandResponse record commandType idempotencyKey : Command Files RunControlResult) := by
  unfold loadRunControlByCommandResponse
  infer_instance

instance {load : ID → Command Files Row} [∀ id, Moves relation (load id)] {key : GoString} :
    Moves relation (loadIfNamed load response key) := by
  unfold loadIfNamed
  infer_instance

instance {load : ID → Command Files Row} [∀ id, Moves relation (load id)] {keys : List GoString} :
    Moves relation (loadNamed load response keys) := by
  induction keys with
  | nil =>
      unfold loadNamed
      infer_instance
  | cons first rest ih =>
      unfold loadNamed
      infer_instance

instance {operation : Operation} {scope : Scope} :
    Moves relation (loadExecutionByCommandResponse operation scope : Command Files ExecutionResult) := by
  unfold loadExecutionByCommandResponse
  infer_instance

end Readings

section Steps

variable {Files A Row : Type} {relation : Database → Database → Prop} [Steps Files relation] {env : Env Files}
  {now : Time} {record : ProjectRow} {projectID : ID} {worker : WorkerRow} {run : RunRow} {task : TaskRow}

instance {commandType idempotencyKey hash : GoString} {body replay : Command Files A} [Moves relation body]
    [Moves relation replay] [Commands Files relation projectID commandType idempotencyKey] :
    Moves relation (once projectID commandType idempotencyKey hash body replay) := by
  unfold once
  infer_instance

instance {relativePath content contentType : GoString} :
    Moves relation (writeProjectArtifact env record relativePath content contentType) := by
  unfold writeProjectArtifact
  infer_instance

instance {workerKey : GoString} {options : WorkerHeartbeatOptions} [Staff Files relation] :
    Moves relation (beat now record workerKey options : Command Files WorkerRow) := by
  unfold beat
  infer_instance

instance {action resource reason : GoString} {requested missing : List GoString} {metadata : Metadata} :
    Moves relation (recordWorkerCapabilityDenied projectID worker action resource reason requested missing metadata :
      Command Files Unit) := by
  unfold recordWorkerCapabilityDenied
  infer_instance

instance {options : AcquireLeaseOptions} {key : GoString} {missing : List GoString}
    [Commands Files relation record.id (bytes "lease.acquire") key] :
    Moves relation (denyLease record options key worker missing : Command Files (Except StoreError LeaseRow)) := by
  unfold denyLease
  infer_instance

instance {details : Metadata} :
    Moves relation (unextended details run task : Command Files Extension) := by
  unfold unextended
  infer_instance

instance {operation : Operation} {version : VersionRow} {options : QueueOptions} {request : WriteRequest} :
    Moves relation (storeWriteSet env now record operation version options request run task) := by
  unfold storeWriteSet
  infer_instance

instance {version : VersionRow} {options : RunnerPreviewOptions} {preflight : List ReadinessItem} :
    Moves relation (writeAndInsertRunnerPreviewArtifact env now record version options run task preflight) := by
  unfold writeAndInsertRunnerPreviewArtifact
  infer_instance

instance {lease : LeaseRow} {options : WorkerRunOnceOptions} :
    Moves relation (writeAndInsertWorkerRunOnceArtifact env now record worker task lease options) := by
  unfold writeAndInsertWorkerRunOnceArtifact
  infer_instance

end Steps

section Executions

variable {Files : Type} {relation : Database → Database → Prop} [Steps Files relation] {env : Env Files} {now : Time}
  {operation : Operation} {scope : Scope} {task : TaskRow} {lease : LeaseRow}

instance {result : ExecutionResult} {severity : GoString}
    [Commands Files relation result.project.id operation.applyCommandType scope.options.idempotencyKey] :
    Moves relation (recordExecution operation scope result severity : Command Files ExecutionResult) := by
  unfold recordExecution
  infer_instance

instance {denial : Denial}
    [Commands Files relation scope.record.id operation.applyCommandType scope.options.idempotencyKey] :
    Moves relation (denyExecution operation scope denial : Command Files (Answer ExecutionResult)) := by
  unfold denyExecution
  infer_instance

instance {done : Done} [∀ finished remaining, Moves relation (updateRun scope.run.id
      ⟨runAfterTask now operation scope finished remaining done, fun _ => rfl⟩ : Command Files Unit)] :
    Moves relation (updateRunAfterTask now operation scope done : Command Files RunRow) := by
  unfold updateRunAfterTask
  infer_instance

instance {ending content contentType artifactType : GoString} {metadata : Metadata} :
    Moves relation (storeTaskArtifact env now operation scope task ending content contentType artifactType metadata) := by
  unfold storeTaskArtifact
  infer_instance

instance {ending : GoString} {details release : Metadata} :
    Moves relation (reportOn env now operation scope task lease ending details release) := by
  unfold reportOn
  infer_instance

instance {target fullPath : GoString} : Moves relation (verifyFile env now scope task lease target fullPath) := by
  unfold verifyFile
  infer_instance

instance {artifactID projectID : ID} : Moves relation (loadWriteSet env operation projectID artifactID) := by
  unfold loadWriteSet
  infer_instance

instance {target fullPath : GoString} : Moves relation (readChange env operation scope task target fullPath) := by
  unfold readChange
  infer_instance

instance : Moves relation (checkRead env scope task) := by
  unfold checkRead
  infer_instance

instance : Moves relation (checkChange env operation scope task) := by
  unfold checkChange
  refine Moves.bind inferInstance fun denied => ?_
  cases denied with
  | some denial => infer_instance
  | none =>
      refine Moves.bind inferInstance fun resolved => ?_
      cases resolved with
      | error failure => infer_instance
      | ok fullPath => infer_instance

instance {change : Change} {preimageArtifact : ArtifactRow} :
    Moves relation (drill env now operation scope task change lease preimageArtifact) := by
  unfold drill
  infer_instance

instance {change : Change} : Moves relation (performChange env now operation scope task change lease) := by
  unfold performChange
  infer_instance

end Executions

section Selections

variable {db : Database} {task : TaskRow}

/-- The next dry-run task is stored and waits. -/
theorem nextDryRunTaskForLease_waits {projectID runID : ID} (next : nextDryRunTaskForLease db projectID runID = some task) :
    task ∈ db.tasks.rows ∧ waitingDryRunTask db projectID runID task = true :=
  List.mem_filter.mp (firstBy_mem next)

/-- An admitted task is stored and waits. -/
theorem admitTask_waits {codec : Auth.Codec} {operation : Operation} {scope : Scope}
    (admitted : admitTask codec operation scope db = .ok task) :
    task ∈ db.tasks.rows ∧ waitingTask db operation scope.record.id scope.run.id task = true := by
  unfold admitTask at admitted
  split at admitted
  · cases admitted
  split at admitted
  · cases admitted
  dsimp only at admitted
  split at admitted
  · cases admitted
  split at admitted
  · cases admitted
  split at admitted
  · rename_i next
    cases admitted
    exact List.mem_filter.mp (firstBy_mem next)
  · cases admitted

end Selections

section Commands

variable {Files A : Type} {before : Database → Prop} {after : A → Database → Prop} {db : Database} {projectID : ID}
  {commandType idempotencyKey hash : GoString} {row : CommandRow} {body replay : Command Files A}

/-- The row of a command is stored and has its key. -/
theorem Database.command_mem (found : db.command projectID commandType idempotencyKey = some row) :
    row ∈ db.commands ∧ row.projectID = projectID ∧ row.commandType = commandType ∧
      row.idempotencyKey = idempotencyKey := by
  have fits := List.find?_some found
  simp only [Bool.and_eq_true, beq_iff_eq] at fits
  exact ⟨List.mem_of_find?_eq_some found, fits.1.1, fits.1.2, fits.2⟩

/-- These are the tables with a reserved command. -/
def Database.reserved (db : Database) (projectID : ID) (commandType idempotencyKey hash : GoString) : Database :=
  { db with commands := db.commands ++ [⟨projectID, commandType, idempotencyKey, hash, [], false⟩] }

/-- A new command is reserved and runs its body. -/
theorem once_new (absent : db.command projectID commandType idempotencyKey = none) (files : Files) :
    once projectID commandType idempotencyKey hash body replay files db =
      body files (db.reserved projectID commandType idempotencyKey hash) := by
  have reserved : (reserve projectID commandType idempotencyKey hash : Command Files Bool) files db =
      (files, .ok (true, db.reserved projectID commandType idempotencyKey hash)) := by
    unfold reserve reserveCommandRequest
    rw [show db.commands.find? _ = none from absent]
    rfl
  unfold once
  rw [bind_apply, reserved]
  rfl

/-- A repeated command is answered by its replay if its request is the same. -/
theorem once_repeated (found : db.command projectID commandType idempotencyKey = some row) (files : Files) :
    once projectID commandType idempotencyKey hash body replay files db =
      if row.requestHash = hash then replay files db
      else (files, .error (.workflow (.idempotencyConflict idempotencyKey))) := by
  have reserved : (reserve projectID commandType idempotencyKey hash : Command Files Bool) files db =
      if row.requestHash = hash then (files, .ok (false, db))
      else (files, .error (.workflow (.idempotencyConflict idempotencyKey))) := by
    unfold reserve reserveCommandRequest
    rw [show db.commands.find? _ = some row from found]
    dsimp only
    by_cases same : row.requestHash = hash
    · rw [if_pos same, if_pos same]
    · rw [if_neg same, if_neg same]
  unfold once
  rw [bind_apply, reserved]
  by_cases same : row.requestHash = hash
  · rw [if_pos same, if_pos same]
    rfl
  · rw [if_neg same, if_neg same]

/-- A new command meets what its body meets. -/
theorem once_new_meets (before : Database → Prop) (absent : db.command projectID commandType idempotencyKey = none)
    (holds : before (db.reserved projectID commandType idempotencyKey hash)) (main : Meets before body after) :
    Meets (fun store => store = db) (once projectID commandType idempotencyKey hash body replay) after := by
  intro files store files' answer store' same run
  rw [same, once_new absent] at run
  exact main files _ files' answer store' holds run

/-- A repeated command that ends with an answer has the stored request, and it meets what its replay meets. -/
theorem once_repeated_meets (found : db.command projectID commandType idempotencyKey = some row)
    (main : Meets (fun store => store = db) replay after) :
    Meets (fun store => store = db) (once projectID commandType idempotencyKey hash body replay) fun answer store =>
      row.requestHash = hash ∧ after answer store := by
  intro files store files' answer store' same run
  rw [same, once_repeated found] at run
  split at run
  · rename_i equal
    exact ⟨equal, main files db files' answer store' rfl run⟩
  · cases run

/-- A command meets what its body and its replay meet. -/
theorem once_meets (reserved : Keeps before (reserve projectID commandType idempotencyKey hash : Command Files Bool))
    (first : Meets before body after) (again : Meets before replay after) :
    Meets before (once projectID commandType idempotencyKey hash body replay) after := by
  unfold once
  refine Meets.bind reserved fun created => ?_
  split
  · exact first
  · exact again

end Commands

section Calls

variable {Files : Type} {env : Env Files} {world : World Files} {now : Time} {sequence : Nat} {seen : Database}
  {projectKey : GoString} {call : Call}

/-- A call for a known project is committed or rolled back. -/
theorem workStep_known {record : ProjectRow} (found : world.db.getByKey projectKey = some record) :
    workStep env world (.call now sequence seen projectKey call) =
      (world.apply (call.command env now sequence seen record), ()) := by
  unfold workStep
  dsimp only
  rw [found]

/-- A call for an unknown project has no effect. -/
theorem workStep_unknown (missed : world.db.getByKey projectKey = none) :
    workStep env world (.call now sequence seen projectKey call) = (world, ()) := by
  unfold workStep
  dsimp only
  rw [missed]

end Calls

section Installation

/-- This host has no files and stores every artifact. -/
def smallHost : Env Unit where
  codec := Auth.sampleCodec
  quote := Json.quote
  marshalIndent := Auth.sampleCodec.marshal
  marshalWriteSet writeSet := Json.object
    [(bytes "content", Json.quote writeSet.content), (bytes "target_path", Json.quote writeSet.targetPath)]
  parseWriteSet := fun _ => .error []
  hostname := none
  engineBlocked := fun _ => false
  writeConfigured := fun _ path content contentType files =>
    (files, .ok { backend := bytes "local", uri := path, sha256 := Json.digest content, sizeBytes := content.length
                  contentType := contentType })
  readArtifact := fun _ _ => .error []
  evalSymlinks := fun _ _ => .error []
  lstat := fun _ _ => .error []
  stat := fun _ _ => .error []
  readFile := fun _ _ => .error []
  writeFile := fun _ _ files => (files, .error [])

/-- These tables hold one project with one authored version. -/
def smallTables : Database where
  identity := { projects := [smallProject], projectIDs := nodup_smallProjects }
  versions := [{ id := 1, projectID := 1, displayLabel := bytes "v1", importMode := .authored }]

/-- A call for the project at a time. -/
def callAt (now : Time) (call : Call) : WorkEvent Unit := .call now 0 {} (bytes "a") call

/-- A worker leases a queued task. -/
def leasedFixture : List (WorkEvent Unit) :=
  [.elsewhere () smallTables, callAt 0 (.registerWorker { workerKey := bytes "w" }),
    callAt 0 (.queueFixtureExecution (bytes "v1") {}),
    callAt 0 (.acquireLease { workerKey := bytes "w", runTaskID := 1 })]

end Installation

end AreaFlow.Project
