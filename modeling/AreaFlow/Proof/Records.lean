import AreaFlow.Proof.Frames

namespace AreaFlow.Project

open Go Tx

set_option synthInstance.maxSize 2048

variable {relation : Database → Database → Prop}

/-- A task succeeded by its status. -/
def TaskStatus.succeeded : TaskStatus → Bool
  | passed | verified | artifactWritten | rollbackVerified => true
  | _ => false

/-- A relation is indifferent to every step on runs, tasks and leases that makes no task succeed. -/
class Modest (Files : Type) (relation : Database → Database → Prop) : Prop extends Steps Files relation where
  run : ∀ new, Moves relation (insertRun new : Command Files RunRow)
  controlled : ∀ now runID status options,
    Moves relation (updateRun runID ⟨controlledRun now status options, fun _ => rfl⟩ : Command Files Unit)
  worked : ∀ now operation scope runID finished remaining done, Moves relation (updateRun runID
    ⟨runAfterTask now operation scope finished remaining done, fun _ => rfl⟩ : Command Files Unit)
  task : ∀ new : Table.New TaskRow (·.id), (∀ id, (new.make id).status.succeeded = false) →
    Moves relation (insertRunTask new : Command Files TaskRow)
  modestStatus : ∀ taskID status, status.succeeded = false →
    Moves relation (updateRunTaskStatus taskID status : Command Files Unit)
  taskCancel : ∀ runID status, status.succeeded = false → Moves relation (cancelTasks runID status : Command Files Unit)
  lease : ∀ new, Moves relation (insertLease new : Command Files LeaseRow)
  leaseEnd : ∀ chosen now status metadata,
    Moves relation (updateLeases chosen (endLease now status metadata) : Command Files Unit)

/-- A relation is indifferent to every step on runs, tasks and leases. -/
class Work (Files : Type) (relation : Database → Database → Prop) : Prop extends Modest Files relation where
  taskStatus : ∀ taskID status, Moves relation (updateRunTaskStatus taskID status : Command Files Unit)
  modestStatus taskID status _ := taskStatus taskID status

attribute [instance] Modest.run Modest.controlled Modest.worked Modest.lease Modest.leaseEnd Work.taskStatus

/-- A relation that looks at no table of the work is indifferent to it. -/
theorem Work.of_ignoring {Files : Type} [IsPreorder Database relation]
    (ignores : ∀ (db : Database) events audits attempts artifacts runs tasks leases, relation db
      { db with
        identity := { db.identity with audits := audits }, events := events, attempts := attempts
        artifacts := artifacts, runs := runs, tasks := tasks, leases := leases }) :
    Work Files relation where
  event _ := Moves.write fun db => ignores db _ _ _ _ _ _ _
  audit _ := Moves.write fun db => ignores db _ _ _ _ _ _ _
  attempt _ := Moves.write fun db => ignores db _ _ _ _ _ _ _
  artifact _ := Moves.write fun db => ignores db _ _ _ _ _ _ _
  taskMetadata _ _ := Moves.write fun db => ignores db _ _ _ _ _ _ _
  run _ := Moves.write fun db => ignores db _ _ _ _ _ _ _
  controlled _ _ _ _ := Moves.write fun db => ignores db _ _ _ _ _ _ _
  worked _ _ _ _ _ _ _ := Moves.write fun db => ignores db _ _ _ _ _ _ _
  task _ _ := Moves.write fun db => ignores db _ _ _ _ _ _ _
  taskStatus _ _ := Moves.write fun db => by
    split
    · exact refl db
    · exact ignores db _ _ _ _ _ _ _
  taskCancel _ _ _ := Moves.write fun db => ignores db _ _ _ _ _ _ _
  lease _ := Moves.write fun db => ignores db _ _ _ _ _ _ _
  leaseEnd _ _ _ _ := Moves.write fun db => ignores db _ _ _ _ _ _ _

/-- A command of a type moves along a relation if its body does, once its key may be reserved and completed. -/
class Once (Files : Type) (relation : Database → Database → Prop) (commandType : GoString) : Prop where
  once : ∀ {A : Type} (projectID : ID) (idempotencyKey hash : GoString) (body replay : Command Files A),
    (Commands Files relation projectID commandType idempotencyKey → Moves relation body) → Moves relation replay →
      Moves relation (once projectID commandType idempotencyKey hash body replay)

section Modest

variable {Files : Type} [Modest Files relation] {env : Env Files} {now : Time}
  {sequence : Nat} {record : ProjectRow} {projectID : ID} {version : VersionRow} {runID : ID} {metadata : Metadata}
  {label : GoString} {request : WriteRequest}

instance {taskID : ID} : Moves relation (updateRunTaskStatus taskID .leased : Command Files Unit) :=
  Modest.modestStatus _ _ rfl

instance {taskID : ID} : Moves relation (updateRunTaskStatus taskID .needsRecovery : Command Files Unit) :=
  Modest.modestStatus _ _ rfl

instance {options : RunnerPreviewOptions} {preflight : List ReadinessItem} :
    Moves relation (insertRunTask ⟨runnerPreviewTask now record version options runID preflight, fun _ => rfl⟩ :
      Command Files TaskRow) :=
  Modest.task _ fun _ => rfl

instance {plan : QueuePlan} {options : QueueOptions} :
    Moves relation (insertRunTask ⟨queuedTask now record version plan options runID, fun _ => rfl⟩ :
      Command Files TaskRow) :=
  Modest.task _ fun _ => rfl

instance {worker : WorkerRow} {task : TaskRow} {leaseKind : GoString} {capabilities : List GoString} {scope : Metadata}
    {timeoutSeconds : Int} :
    Moves relation (insertLeaseForTask now projectID worker task leaseKind capabilities scope metadata timeoutSeconds :
      Command Files LeaseRow) := by
  unfold insertLeaseForTask
  infer_instance

instance {worker : WorkerRow} {leaseID : ID} {status : GoString} :
    Moves relation (releaseLeaseForWorker now projectID worker leaseID status metadata : Command Files LeaseRow) := by
  unfold releaseLeaseForWorker
  infer_instance

instance {limit : Int} :
    Moves relation (recoverExpiredLeases now projectID limit metadata : Command Files (List LeaseRow)) := by
  unfold recoverExpiredLeases
  infer_instance

instance {reason : GoString} {lease : LeaseRow} : Moves relation (recoverTask record reason lease : Command Files Unit) := by
  unfold recoverTask
  infer_instance

theorem cancelledTaskStatus_modest {action : GoString} {status : RunStatus} {taskStatus : TaskStatus}
    (cancels : cancelledTaskStatus action status = some taskStatus) : taskStatus.succeeded = false := by
  unfold cancelledTaskStatus at cancels
  split at cancels
  · cases cancels
  · split at cancels
    · cases cancels
      rfl
    · cases cancels
      rfl
    · cases cancels

instance {run : RunRow} {status : RunStatus} {options : RunControlOptions} :
    Moves relation (updateRunControlStatus now run status options : Command Files RunRow) := by
  unfold updateRunControlStatus
  refine Moves.bind inferInstance fun _ => ?_
  cases cancels : cancelledTaskStatus options.action status with
  | none => infer_instance
  | some taskStatus =>
      have modest : Moves relation (cancelTasks run.id taskStatus : Command Files Unit) :=
        Modest.taskCancel _ _ (cancelledTaskStatus_modest cancels)
      infer_instance

instance {run : RunRow} {options : RunControlOptions}
    [Commands Files relation record.id (runControlCommandType options.action) options.idempotencyKey] :
    Moves relation (applyRunControl env now record run options) := by
  unfold applyRunControl
  dsimp only
  cases (evaluateRunControl env.quote run options.action).decision with
  | allowed => infer_instance
  | denied => infer_instance

instance {options : RunnerPreviewOptions} {preflight : List ReadinessItem}
    [Commands Files relation record.id (bytes "runner.preview") options.idempotencyKey] :
    Moves relation (storeRunnerPreview env now record version options preflight) := by
  unfold storeRunnerPreview
  infer_instance

instance {options : RegisterWorkerOptions} [Staff Files relation] [Once Files relation (bytes "worker.register")] :
    Moves relation (registerWorker env now sequence record options) := by
  unfold registerWorker
  exact Once.once _ _ _ _ _ (fun _ => inferInstance) inferInstance

instance {workerKey : GoString} {options : WorkerHeartbeatOptions} [Staff Files relation]
    [Once Files relation (bytes "worker.heartbeat")] :
    Moves relation (recordWorkerHeartbeat env now sequence record workerKey options) := by
  unfold recordWorkerHeartbeat
  dsimp only
  split
  · infer_instance
  · exact Once.once _ _ _ _ _ (fun _ => inferInstance) inferInstance

instance {options : AcquireLeaseOptions} [Once Files relation (bytes "lease.acquire")] :
    Moves relation (acquireLease env now record options) := by
  unfold acquireLease
  exact Once.once _ _ _ _ _ (fun _ => inferInstance) inferInstance

instance {options : RecoverLeasesOptions} [Once Files relation (bytes "lease.recover")] :
    Moves relation (recoverLeases env now sequence record options) := by
  unfold recoverLeases
  exact Once.once _ _ _ _ _ (fun _ => inferInstance) inferInstance

instance {options : RunnerPreviewOptions} [Once Files relation (bytes "runner.preview")] :
    Moves relation (previewRunner env now record label options) := by
  unfold previewRunner
  refine Moves.bind inferInstance fun version => ?_
  dsimp only
  split
  · infer_instance
  · exact Once.once _ _ _ _ _ (fun _ => inferInstance) inferInstance

instance {options : RunControlOptions}
    [Once Files relation (runControlCommandType (normalizeRunControlOptions options).action)] :
    Moves relation (controlRun env now runID options) := by
  unfold controlRun
  dsimp only
  split
  · infer_instance
  · refine Moves.bind inferInstance fun run => Moves.bind inferInstance fun record => ?_
    exact Once.once _ _ _ _ _ (fun _ => inferInstance) inferInstance

instance {plan : QueuePlan} {options : QueueOptions} {extend : RunRow → TaskRow → Command Files Extension}
    [∀ run task, Moves relation (extend run task)] [Once Files relation plan.operation.queueCommandType] :
    Moves relation (queueRun env now record version plan options extend) := by
  unfold queueRun
  exact Once.once _ _ _ _ _ (fun _ => inferInstance) inferInstance

instance {operation : Operation} {options : QueueOptions} [Once Files relation operation.queueCommandType] :
    Moves relation (queueWrite env now record operation version request options) := by
  unfold queueWrite
  infer_instance

instance {options : QueueOptions} [Once Files relation (Operation.fixtureExecution).queueCommandType] :
    Moves relation (queueFixtureExecution env now record label options) := by
  unfold queueFixtureExecution
  infer_instance

instance {targetPath : GoString} {options : QueueOptions}
    [Once Files relation (Operation.readOnlyVerify).queueCommandType] :
    Moves relation (queueReadOnlyVerify env now record label targetPath options) := by
  unfold queueReadOnlyVerify
  infer_instance

instance {artifactLabel : GoString} {options : QueueOptions}
    [Once Files relation (Operation.approvedArtifactWrite).queueCommandType] :
    Moves relation (queueApprovedArtifactWrite env now record label artifactLabel options) := by
  unfold queueApprovedArtifactWrite
  infer_instance

instance {options : QueueOptions} [Once Files relation (Operation.fixtureProjectWrite).queueCommandType] :
    Moves relation (queueFixtureProjectWrite env now record label request options) := by
  unfold queueFixtureProjectWrite
  infer_instance

instance {options : QueueOptions} [Once Files relation (Operation.managedGeneratedWrite).queueCommandType] :
    Moves relation (queueManagedGeneratedWrite env now record label request options) := by
  unfold queueManagedGeneratedWrite
  infer_instance

end Modest

section Work

variable {Files : Type} [Work Files relation] {env : Env Files} {now : Time}
  {sequence : Nat} {record : ProjectRow} {operation : Operation} {seen : Database}

instance {worker : WorkerRow} {task : TaskRow} {options : WorkerRunOnceOptions} :
    Moves relation (runTaskOnce env now record worker task options) := by
  unfold runTaskOnce
  infer_instance

instance {scope : Scope} {task : TaskRow} {target : Metadata} {perform : LeaseRow → Command Files Done}
    [∀ lease, Moves relation (perform lease)]
    [Commands Files relation scope.record.id operation.applyCommandType scope.options.idempotencyKey] :
    Moves relation (applyToTask now operation scope task target perform) := by
  unfold applyToTask
  infer_instance

instance {options : ReleaseLeaseOptions} [Once Files relation (bytes "lease.release")] :
    Moves relation (releaseLease env now record options) := by
  unfold releaseLease
  exact Once.once _ _ _ _ _ (fun _ => inferInstance) inferInstance

instance {options : WorkerRunOnceOptions} : Moves relation (runWorkerOnce env now record options) := by
  unfold runWorkerOnce
  refine Moves.bind inferInstance fun worker => ?_
  dsimp only
  split
  · infer_instance
  · refine Moves.bind inferInstance fun _ => Moves.bind inferInstance fun next => ?_
    cases next with
    | none => infer_instance
    | some task => infer_instance

theorem execute_moves {raw : ExecutionOptions} {perform : Scope → TaskRow → Command Files (Answer ExecutionResult)}
    [Once Files relation operation.applyCommandType]
    (moves : ∀ scope task, Commands Files relation scope.record.id operation.applyCommandType scope.options.idempotencyKey →
      Moves relation (perform scope task)) :
    Moves relation (execute env operation seen record raw perform) := by
  unfold execute
  dsimp only
  split
  · infer_instance
  · refine Moves.bind inferInstance fun gate => Moves.bind inferInstance fun run => ?_
    split
    · infer_instance
    · refine Moves.bind inferInstance fun version => Moves.bind inferInstance fun worker => ?_
      refine Once.once _ _ _ _ _ (fun _ => ?_) inferInstance
      refine Moves.bind inferInstance fun admitted => ?_
      cases admitted with
      | error denial => infer_instance
      | ok task => exact moves _ task inferInstance

instance {options : ExecutionOptions} [Once Files relation (Operation.fixtureExecution).applyCommandType] :
    Moves relation (executeFixture env now seen record options) :=
  execute_moves fun _ _ _ => inferInstance

instance {options : ExecutionOptions} [Once Files relation (Operation.approvedArtifactWrite).applyCommandType] :
    Moves relation (writeApprovedArtifact env now seen record options) :=
  execute_moves fun _ _ _ => inferInstance

instance {options : ExecutionOptions} [Once Files relation (Operation.readOnlyVerify).applyCommandType] :
    Moves relation (verifyReadOnly env now seen record options) := by
  refine execute_moves fun scope task _ => Moves.bind inferInstance fun checked => ?_
  cases checked with
  | error denial => infer_instance
  | ok fullPath => infer_instance

instance {options : ExecutionOptions} [Once Files relation operation.applyCommandType] :
    Moves relation (writeFileOf env now operation seen record options) := by
  refine execute_moves fun scope task _ => Moves.bind inferInstance fun checked => ?_
  cases checked with
  | error denial => infer_instance
  | ok change => infer_instance

instance {options : ExecutionOptions} [Once Files relation (Operation.fixtureProjectWrite).applyCommandType] :
    Moves relation (writeFixtureProject env now seen record options) := by
  unfold writeFixtureProject
  infer_instance

instance {options : ExecutionOptions} [Once Files relation (Operation.managedGeneratedWrite).applyCommandType] :
    Moves relation (writeManagedGenerated env now seen record options) := by
  unfold writeManagedGenerated
  infer_instance

end Work

/-- This is the type of the command of a call, if it has one. -/
def Call.commandType : Call → Option GoString
  | registerWorker _ => some (bytes "worker.register")
  | recordWorkerHeartbeat _ _ => some (bytes "worker.heartbeat")
  | acquireLease _ => some (bytes "lease.acquire")
  | releaseLease _ => some (bytes "lease.release")
  | recoverExpiredLeases _ => some (bytes "lease.recover")
  | previewRunner _ _ => some (bytes "runner.preview")
  | runWorkerOnce _ => none
  | queueFixtureExecution _ _ => some Operation.fixtureExecution.queueCommandType
  | queueReadOnlyVerify _ _ _ => some Operation.readOnlyVerify.queueCommandType
  | queueApprovedArtifactWrite _ _ _ => some Operation.approvedArtifactWrite.queueCommandType
  | queueFixtureProjectWrite _ _ _ => some Operation.fixtureProjectWrite.queueCommandType
  | queueManagedGeneratedWrite _ _ _ => some Operation.managedGeneratedWrite.queueCommandType
  | executeFixture _ => some Operation.fixtureExecution.applyCommandType
  | verifyReadOnly _ => some Operation.readOnlyVerify.applyCommandType
  | writeApprovedArtifact _ => some Operation.approvedArtifactWrite.applyCommandType
  | writeFixtureProject _ => some Operation.fixtureProjectWrite.applyCommandType
  | writeManagedGenerated _ => some Operation.managedGeneratedWrite.applyCommandType

/-- Every call moves along a relation that is indifferent to all but commands of other types. -/
theorem Call.moves {Files : Type} [Work Files relation] [Staff Files relation] {env : Env Files} {now : Time}
    {sequence : Nat} {seen : Database} {record : ProjectRow} (call : Call)
    (ofType : ∀ commandType, call.commandType = some commandType → Once Files relation commandType) :
    Moves relation (call.command env now sequence seen record) := by
  cases call with
  | runWorkerOnce options =>
      unfold Call.command
      infer_instance
  | _ =>
      have own := ofType _ rfl
      unfold Call.command
      infer_instance

/-- A step of the system moves along a relation that is indifferent to every operation, if a change outside does. -/
theorem workStep_moves {Files : Type} {env : Env Files} [Work Files relation] [Staff Files relation]
    [∀ commandType, Once Files relation commandType] {world : World Files} {event : WorkEvent Files}
    (elsewhere : ∀ files after, event = .elsewhere files after → relation world.db (outside world.db after)) :
    relation world.db (workStep env world event).1.db := by
  cases event with
  | call now sequence seen projectKey call =>
      cases found : world.db.getByKey projectKey with
      | none =>
          rw [workStep_unknown found]
          exact refl world.db
      | some record =>
          have moves : Moves relation (call.command env now sequence seen record) := call.moves fun _ _ => inferInstance
          rw [workStep_known found]
          exact Moves.commit world.files world.db
  | control now runID options =>
      have moves : Moves relation (controlRun env now runID options) := inferInstance
      exact Moves.commit world.files world.db
  | elsewhere files after => exact elsewhere files after rfl

/-- A relation to which every command key is as good as another. -/
theorem Once.of_commands {Files : Type} {commandType : GoString} [Steps Files relation]
    (commands : ∀ projectID idempotencyKey, Commands Files relation projectID commandType idempotencyKey) :
    Once Files relation commandType where
  once := by
    intro A projectID idempotencyKey hash body replay moves again
    have own := commands projectID idempotencyKey
    have first := moves own
    infer_instance

/-- A step leaves the commands whose keys are chosen. -/
def SameCommands (chosen : ID → GoString → GoString → Bool) (before after : Database) : Prop :=
  after.commands.filter (fun row => chosen row.projectID row.commandType row.idempotencyKey) =
    before.commands.filter fun row => chosen row.projectID row.commandType row.idempotencyKey

namespace SameCommands

variable {Files : Type} {chosen : ID → GoString → GoString → Bool}

instance : IsPreorder Database (SameCommands chosen) where
  refl _ := rfl
  trans _ _ _ first second := second.trans first

instance : Work Files (SameCommands chosen) := .of_ignoring fun _ _ _ _ _ _ _ _ => rfl

instance : Staff Files (SameCommands chosen) := .of_ignoring fun _ _ _ _ => rfl

/-- A command that is not chosen leaves those that are. -/
theorem commands {projectID : ID} {commandType idempotencyKey : GoString}
    (other : chosen projectID commandType idempotencyKey = false) :
    Commands Files (SameCommands chosen) projectID commandType idempotencyKey where
  reserved hash := ⟨by
    intro files db files' created db' run
    unfold reserve at run
    split at run
    · rename_i commands reserved
      cases run
      unfold reserveCommandRequest at reserved
      split at reserved
      · cases reserved
        simp [SameCommands, other]
      · split at reserved <;> cases reserved
    · cases run
      rfl
    · cases run⟩
  completed response := Moves.write fun db => by
    unfold SameCommands completeCommandRequestResponse
    have keeps : ((fun row : CommandRow => chosen row.projectID row.commandType row.idempotencyKey) ∘
        fun row : CommandRow =>
          if row.projectID = projectID ∧ row.commandType = commandType ∧ row.idempotencyKey = idempotencyKey then
            { row with response := response, completed := true } else row) =
        fun row => chosen row.projectID row.commandType row.idempotencyKey := by
      funext row
      dsimp only [Function.comp_apply]
      split <;> rfl
    rw [List.filter_map, keeps]
    refine (List.map_congr_left fun row member => ?_).trans (List.map_id _)
    have kept : chosen row.projectID row.commandType row.idempotencyKey = true := (List.mem_filter.mp member).2
    refine if_neg fun named => ?_
    rw [named.1, named.2.1, named.2.2, other] at kept
    cases kept

/-- A chosen row is there before a step if and only if it is there after it. -/
theorem mem_iff {before after : Database} (same : SameCommands chosen before after) {row : CommandRow}
    (kept : chosen row.projectID row.commandType row.idempotencyKey = true) :
    row ∈ after.commands ↔ row ∈ before.commands := by
  have listed (db : Database) : row ∈ db.commands.filter (fun row =>
      chosen row.projectID row.commandType row.idempotencyKey) ↔ row ∈ db.commands := by
    simp [kept]
  rw [← listed after, ← listed before, same]

/-- A change outside leaves the commands of these operations. -/
theorem outside {before after : Database}
    (works : ∀ row : CommandRow, chosen row.projectID row.commandType row.idempotencyKey = true → workCommand row = true) :
    SameCommands chosen before (outside before after) := by
  unfold SameCommands Project.outside
  rw [List.filter_append, List.filter_filter, List.filter_filter]
  have foreign : (after.commands.filter fun row : CommandRow =>
      chosen row.projectID row.commandType row.idempotencyKey && !workCommand row) = [] := by
    refine List.filter_eq_nil_iff.mpr fun row _ both => ?_
    simp only [Bool.and_eq_true, Bool.not_eq_true'] at both
    rw [works row both.1] at both
    cases both.2
  rw [foreign, List.append_nil]
  refine List.filter_congr fun row _ => ?_
  cases known : chosen row.projectID row.commandType row.idempotencyKey with
  | false => rfl
  | true => rw [works row known, Bool.and_true]

end SameCommands

end AreaFlow.Project
