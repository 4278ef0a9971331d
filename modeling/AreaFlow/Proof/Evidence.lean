import AreaFlow.Library.Run
import AreaFlow.Proof.Records

namespace AreaFlow.Project
open Go Tx

set_option synthInstance.maxSize 2048

/-- An attempt refers to an artifact by one of these keys of its metadata. -/
def evidenceKeys : List GoString :=
  [bytes "evidence_artifact_id", bytes "preimage_artifact_id", bytes "write_set_artifact_id", bytes "preimage_artifact"]

def AttemptRow.references (attempt : AttemptRow) (artifact : ArtifactRow) : Bool :=
  evidenceKeys.any fun key => metadataGet attempt.metadata key == some (.number artifact.id)

/-- A passed attempt of the task refers to an artifact of the same project and run. -/
def hasEvidence (db : Database) (task : TaskRow) : Bool :=
  db.attempts.rows.any fun attempt =>
    attempt.taskID == some task.id && attempt.status == .passed &&
      db.artifacts.rows.any fun artifact =>
        attempt.references artifact && artifact.projectID == task.projectID && artifact.runID == some task.runID

/-- Every task that succeeded has evidence. -/
def Evidenced (db : Database) : Prop := ∀ task ∈ db.tasks.rows, task.status.succeeded = true → hasEvidence db task = true

instance (db : Database) : Decidable (Evidenced db) :=
  inferInstanceAs (Decidable (∀ task ∈ db.tasks.rows, _))

/-- Two rows are states of one task. -/
def SameTask (first second : TaskRow) : Prop :=
  first.id = second.id ∧ first.projectID = second.projectID ∧ first.runID = second.runID

/-- No attempt, artifact or task is lost, and no task succeeds that did not succeed before. -/
structure Extends (before after : Database) : Prop where
  attempts : ∀ attempt ∈ before.attempts.rows, attempt ∈ after.attempts.rows
  artifacts : ∀ artifact ∈ before.artifacts.rows, artifact ∈ after.artifacts.rows
  tasks : ∀ task ∈ before.tasks.rows, ∃ later ∈ after.tasks.rows, SameTask task later
  successes : ∀ later ∈ after.tasks.rows, later.status.succeeded = true →
    ∃ task ∈ before.tasks.rows, SameTask task later ∧ task.status.succeeded = true

theorem SameTask.refl (task : TaskRow) : SameTask task task := ⟨rfl, rfl, rfl⟩

theorem SameTask.trans {first second third : TaskRow} (one : SameTask first second) (two : SameTask second third) :
    SameTask first third :=
  ⟨one.1.trans two.1, one.2.1.trans two.2.1, one.2.2.trans two.2.2⟩

/-- The evidence of a task depends on its identifiers only. -/
theorem hasEvidence_of_same {db : Database} {first second : TaskRow} (same : SameTask first second)
    (evidence : hasEvidence db first = true) : hasEvidence db second = true := by
  obtain ⟨id, project, run⟩ := same
  unfold hasEvidence at evidence ⊢
  rwa [id, project, run] at evidence

namespace Extends

variable {before after db : Database}

/-- A step that leaves the three tables extends them. -/
theorem of_same (tasks : after.tasks = before.tasks) (attempts : after.attempts = before.attempts)
    (artifacts : after.artifacts = before.artifacts) :
    Extends before after where
  attempts := by
    rw [attempts]
    exact fun _ member => member
  artifacts := by
    rw [artifacts]
    exact fun _ member => member
  tasks := by
    rw [tasks]
    exact fun task member => ⟨task, member, SameTask.refl task⟩
  successes := by
    rw [tasks]
    exact fun task member succeeded => ⟨task, member, SameTask.refl task, succeeded⟩

theorem trans {first second third : Database} (one : Extends first second) (two : Extends second third) :
    Extends first third where
  attempts := fun attempt member => two.attempts attempt (one.attempts attempt member)
  artifacts := fun artifact member => two.artifacts artifact (one.artifacts artifact member)
  tasks := by
    intro task member
    obtain ⟨between, there, same⟩ := one.tasks task member
    obtain ⟨later, present, kept⟩ := two.tasks between there
    exact ⟨later, present, same.trans kept⟩
  successes := by
    intro later member succeeded
    obtain ⟨between, there, same, before⟩ := two.successes later member succeeded
    obtain ⟨task, present, kept, first⟩ := one.successes between there before
    exact ⟨task, present, kept.trans same, first⟩

instance : IsPreorder Database Extends where
  refl _ := of_same rfl rfl rfl
  trans _ _ _ := trans

/-- Evidence is never lost. -/
theorem hasEvidence (grown : Extends before after) {task : TaskRow}
    (evidence : Project.hasEvidence before task = true) :
    Project.hasEvidence after task = true := by
  unfold Project.hasEvidence at evidence ⊢
  obtain ⟨attempt, present, facts⟩ := List.any_eq_true.mp evidence
  obtain ⟨passed, found⟩ := Bool.and_eq_true_iff.mp facts
  obtain ⟨artifact, stored, refers⟩ := List.any_eq_true.mp found
  have later : after.artifacts.rows.any (fun artifact =>
      attempt.references artifact && artifact.projectID == task.projectID && artifact.runID == some task.runID) = true :=
    List.any_eq_true.mpr ⟨artifact, grown.artifacts artifact stored, refers⟩
  exact List.any_eq_true.mpr ⟨attempt, grown.attempts attempt present, Bool.and_eq_true_iff.mpr ⟨passed, later⟩⟩

theorem evidenced (grown : Extends before after) (holds : Evidenced before) :
    Evidenced after := by
  intro later member succeeded
  obtain ⟨task, present, same, success⟩ := grown.successes later member succeeded
  exact grown.hasEvidence (hasEvidence_of_same same (holds task present success))

/-- A new task that did not succeed. -/
theorem insertTask {new : Table.New TaskRow (·.id)} (waits : ∀ id, (new.make id).status.succeeded = false) :
    Extends db { db with tasks := db.tasks.insert new } where
  attempts := fun _ member => member
  artifacts := fun _ member => member
  tasks := fun task member => ⟨task, Table.mem_insert_of_mem member, SameTask.refl task⟩
  successes := by
    intro later member succeeded
    rcases Table.mem_insert.mp member with old | rfl
    · exact ⟨later, old, SameTask.refl later, succeeded⟩
    · rw [Table.next, waits] at succeeded
      cases succeeded

theorem insertAttempt {new : Table.New AttemptRow (·.id)} :
    Extends db { db with attempts := db.attempts.insert new } where
  attempts := fun _ member => Table.mem_insert_of_mem member
  artifacts := fun _ member => member
  tasks := fun task member => ⟨task, member, SameTask.refl task⟩
  successes := fun task member succeeded => ⟨task, member, SameTask.refl task, succeeded⟩

theorem insertArtifact {new : Table.New ArtifactRow (·.id)} :
    Extends db { db with artifacts := db.artifacts.insert new } where
  attempts := fun _ member => member
  artifacts := fun _ member => Table.mem_insert_of_mem member
  tasks := fun task member => ⟨task, member, SameTask.refl task⟩
  successes := fun task member succeeded => ⟨task, member, SameTask.refl task, succeeded⟩

/-- A change of tasks that keeps their identifiers and brings about no success. -/
theorem updateTasks {chosen : TaskRow → Bool} {change : Table.Change TaskRow (·.id)}
    (same : ∀ task, SameTask task (change.apply task))
    (modest : ∀ task, (change.apply task).status.succeeded = true → task.status.succeeded = true) :
    Extends db { db with tasks := db.tasks.update chosen change } where
  attempts := fun _ member => member
  artifacts := fun _ member => member
  tasks := by
    intro task member
    refine ⟨if chosen task then change.apply task else task, Table.mem_update.mpr ⟨task, member, rfl⟩, ?_⟩
    split
    · exact same task
    · exact SameTask.refl task
  successes := by
    intro later member succeeded
    obtain ⟨task, present, rfl⟩ := Table.mem_update.mp member
    refine ⟨task, present, ?_, ?_⟩
    · split
      · exact same task
      · exact SameTask.refl task
    · split at succeeded
      · exact modest task succeeded
      · exact succeeded

/-- A status that is no success may be set at any time. -/
theorem setStatus {chosen : TaskRow → Bool} {status : TaskStatus} (modest : status.succeeded = false) :
    Extends db { db with tasks := db.tasks.update chosen (Project.setStatus status) } := by
  refine updateTasks (fun _ => ⟨rfl, rfl, rfl⟩) fun task succeeded => ?_
  rw [show ((Project.setStatus status).apply task).status = status from rfl, modest] at succeeded
  cases succeeded

end Extends

instance {Files : Type} {projectID : ID} {commandType idempotencyKey : GoString} :
    Commands Files Extends projectID commandType idempotencyKey :=
  .of_ignoring fun _ _ => .of_same rfl rfl rfl

instance {Files : Type} : Modest Files Extends where
  event _ := Moves.write fun _ => .of_same rfl rfl rfl
  audit _ := Moves.write fun _ => .of_same rfl rfl rfl
  attempt _ := Moves.write fun _ => .insertAttempt
  artifact _ := Moves.write fun _ => .insertArtifact
  taskMetadata _ _ := Moves.write fun _ => .updateTasks (fun _ => ⟨rfl, rfl, rfl⟩) fun _ succeeded => succeeded
  run _ := Moves.write fun _ => .of_same rfl rfl rfl
  controlled _ _ _ _ := Moves.write fun _ => .of_same rfl rfl rfl
  worked _ _ _ _ _ _ _ := Moves.write fun _ => .of_same rfl rfl rfl
  task _ waits := Moves.write fun _ => .insertTask waits
  modestStatus _ _ modest := Moves.write fun _ => by
    split
    · exact .of_same rfl rfl rfl
    · exact .setStatus modest
  taskCancel _ _ modest := Moves.write fun _ => .setStatus modest
  lease _ := Moves.write fun _ => .of_same rfl rfl rfl
  leaseEnd _ _ _ _ := Moves.write fun _ => .of_same rfl rfl rfl

instance {Files : Type} : Staff Files Extends := .of_ignoring fun _ _ _ _ => .of_same rfl rfl rfl

instance {Files : Type} {commandType : GoString} : Once Files Extends commandType := Once.of_commands fun _ _ => inferInstance

section Operations

variable {Files A : Type} {env : Env Files} {now : Time} {sequence : Nat} {record : ProjectRow} {projectID : ID}
  {command : Command Files A} {task : TaskRow} {artifact : ArtifactRow} {operation : Operation} {scope : Scope}

theorem evidenced_of_extends [Moves Extends command] : Keeps Evidenced command :=
  Moves.keeps fun _ _ (grown : Extends _ _) holds => grown.evidenced holds

/-- Other facts before a step may be forgotten. -/
theorem evidenced_forgetting {fact : Database → Prop} [Moves Extends command] :
    Meets (fun db => fact db ∧ Evidenced db) command fun _ => Evidenced :=
  Meets.consequence evidenced_of_extends (fun _ holds => holds.2) fun _ _ holds => holds

/-- The task with an identifier has evidence, unless it is the absent task. -/
def Supported (taskID : ID) (db : Database) : Prop :=
  taskID ≠ 0 → ∀ task ∈ db.tasks.rows, task.id = taskID → hasEvidence db task = true

/-- A task with evidence may succeed. -/
theorem updateRunTaskStatus_evidenced {taskID : ID} {status : TaskStatus} :
    Meets (fun db => (status.succeeded = true → Supported taskID db) ∧ Evidenced db)
      (updateRunTaskStatus taskID status : Command Files Unit) fun _ => Evidenced := by
  refine Meets.write fun db holds => ?_
  obtain ⟨supported, evidenced⟩ := holds
  dsimp only
  split
  · exact evidenced
  · rename_i named
    intro later member succeeded
    obtain ⟨task, present, rfl⟩ := Table.mem_update.mp member
    split at succeeded
    · rename_i chosen
      have evidence : hasEvidence db task = true := supported succeeded named task present (beq_iff_eq.mp chosen)
      rw [if_pos chosen]
      exact evidence
    · rename_i other
      have evidence : hasEvidence db task = true := evidenced task present succeeded
      rw [if_neg other]
      exact evidence

/-- The row of a task is stored, with evidence for it. -/
def Proven (task : TaskRow) (db : Database) : Prop := ∃ stored ∈ db.tasks.rows, SameTask task stored ∧ hasEvidence db stored = true

/-- The row of a task is stored. -/
def Known (task : TaskRow) (db : Database) : Prop := ∃ stored ∈ db.tasks.rows, SameTask task stored

theorem Proven.supported {db : Database} (proven : Proven task db) : Supported task.id db := by
  obtain ⟨stored, present, same, evidence⟩ := proven
  intro _ other member named
  have equal : other = stored := Table.unique member present (named.trans same.1)
  rw [equal]
  exact evidence

theorem known_of_extends [Moves Extends command] :
    Keeps (fun db => Known task db ∧ Evidenced db) command := by
  have carries (before after : Database) (grown : Extends before after) (holds : Known task before ∧ Evidenced before) :
      Known task after ∧ Evidenced after := by
    obtain ⟨⟨stored, present, same⟩, evidenced⟩ := holds
    obtain ⟨later, there, kept⟩ := grown.tasks stored present
    exact ⟨⟨later, there, same.trans kept⟩, grown.evidenced evidenced⟩
  exact Moves.keeps carries

theorem proven_of_extends [Moves Extends command] :
    Keeps (fun db => Proven task db ∧ Evidenced db) command := by
  have carries (before after : Database) (grown : Extends before after) (holds : Proven task before ∧ Evidenced before) :
      Proven task after ∧ Evidenced after := by
    obtain ⟨⟨stored, present, same, evidence⟩, evidenced⟩ := holds
    obtain ⟨later, there, kept⟩ := grown.tasks stored present
    exact ⟨⟨later, there, same.trans kept, hasEvidence_of_same kept (grown.hasEvidence evidence)⟩,
      grown.evidenced evidenced⟩
  exact Moves.keeps carries

/-- An artifact of a task is stored. -/
def Filed (task : TaskRow) (artifact : ArtifactRow) (db : Database) : Prop :=
  artifact ∈ db.artifacts.rows ∧ artifact.projectID = task.projectID ∧ artifact.runID = some task.runID

theorem filed_of_extends [Moves Extends command] :
    Keeps (fun db => Filed task artifact db ∧ Known task db ∧ Evidenced db) command := by
  intro files db files' answer db' holds run
  have grown : Extends db db' := Moves.moves files db files' answer db' run
  have known := known_of_extends files db files' answer db' holds.2 run
  exact ⟨⟨grown.artifacts artifact holds.1.1, holds.1.2⟩, known⟩

/-- The row of an artifact is stored for its project and run. -/
theorem insertArtifact_filed {new : Table.New ArtifactRow (·.id)}
    (project : ∀ id, (new.make id).projectID = task.projectID) (run : ∀ id, (new.make id).runID = some task.runID) :
    Meets (fun db => Known task db ∧ Evidenced db) (insertArtifact new : Command Files ArtifactRow)
      fun artifact db => Filed task artifact db ∧ Known task db ∧ Evidenced db := by
  intro files db files' artifact db' holds ran
  have known := known_of_extends files db files' artifact db' holds ran
  cases ran
  exact ⟨⟨Table.mem_insert_self, project _, run _⟩, known⟩

/-- A passed attempt that refers to a stored artifact of its task proves the task. -/
theorem insertRunAttempt_proven {new : Table.New AttemptRow (·.id)} (ofTask : ∀ id, (new.make id).taskID = some task.id)
    (passed : ∀ id, (new.make id).status = .passed) (refers : ∀ id, (new.make id).references artifact = true) :
    Meets (fun db => Filed task artifact db ∧ Known task db ∧ Evidenced db)
      (insertRunAttempt new : Command Files AttemptRow) fun _ db => Proven task db ∧ Evidenced db := by
  intro files db files' attempt db' holds ran
  have kept := filed_of_extends files db files' attempt db' holds ran
  obtain ⟨⟨stored, project, run⟩, ⟨row, present, same⟩, evidenced⟩ := kept
  refine ⟨⟨row, present, same, ?_⟩, evidenced⟩
  cases ran
  refine List.any_eq_true.mpr ⟨_, Table.mem_insert_self, ?_⟩
  have found : db.artifacts.rows.any (fun artifact =>
      (db.attempts.next new).references artifact && artifact.projectID == row.projectID &&
        artifact.runID == some row.runID) = true := by
    refine List.any_eq_true.mpr ⟨artifact, stored, ?_⟩
    simp [Table.next, refers, project, run, same.2.1, same.2.2]
  simp only [Table.next, ofTask, passed, same.1, beq_self_eq_true, Bool.true_and]
  exact found

theorem reference_at {attempt : AttemptRow} (key : GoString) (listed : key ∈ evidenceKeys)
    (named : metadataGet attempt.metadata key = some (.number artifact.id)) : attempt.references artifact = true := by
  refine List.any_eq_true.mpr ⟨key, listed, ?_⟩
  rw [named]
  exact beq_self_eq_true _

/-- A worker proves its task before it passes. -/
theorem runTaskOnce_evidenced {worker : WorkerRow} {options : WorkerRunOnceOptions}
    (project : task.projectID = record.id) :
    Meets (fun db => Known task db ∧ Evidenced db) (runTaskOnce env now record worker task options)
      fun _ => Evidenced := by
  unfold runTaskOnce
  refine Meets.bind known_of_extends fun lease => Meets.bind known_of_extends fun _ => ?_
  have files : Meets (fun db => Known task db ∧ Evidenced db)
      (writeAndInsertWorkerRunOnceArtifact env now record worker task lease options)
      fun report db => Filed task report db ∧ Known task db ∧ Evidenced db := by
    unfold writeAndInsertWorkerRunOnceArtifact
    exact Meets.bind known_of_extends fun stored => insertArtifact_filed (fun _ => project.symm) fun _ => rfl
  refine Meets.bind files fun report => ?_
  refine Meets.bind (insertRunAttempt_proven (fun _ => rfl) (fun _ => rfl) fun _ => ?_) fun attempt => ?_
  · exact reference_at (bytes "evidence_artifact_id") (by decide) rfl
  · refine Meets.bind proven_of_extends fun released => ?_
    refine Meets.bind (Meets.consequence updateRunTaskStatus_evidenced
      (fun _ holds => ⟨fun _ => holds.1.supported, holds.2⟩) fun _ _ holds => holds) fun _ => ?_
    exact evidenced_of_extends

theorem runWorkerOnce_evidenced (raw : WorkerRunOnceOptions) : Keeps Evidenced (runWorkerOnce env now record raw) := by
  unfold runWorkerOnce
  refine Meets.bind evidenced_of_extends fun worker => ?_
  dsimp only
  split
  · exact evidenced_of_extends
  · refine Meets.bind evidenced_of_extends fun _ => ?_
    have next : Meets Evidenced (Tx.query fun db =>
        nextDryRunTaskForLease db record.id (normalizeWorkerRunOnceOptions raw).runID : Command Files (Option TaskRow))
        fun next db => (∀ task, next = some task → task.projectID = record.id) ∧
          (∀ task, next = some task → Known task db) ∧ Evidenced db := by
      refine Meets.query fun db holds => ⟨fun task found => ?_, fun task found => ?_, holds⟩
      · have waits := (nextDryRunTaskForLease_waits found).2
        unfold waitingDryRunTask at waits
        simp only [Bool.and_eq_true, beq_iff_eq] at waits
        exact waits.1.1.1.1
      · exact ⟨task, (nextDryRunTaskForLease_waits found).1, SameTask.refl task⟩
    refine Meets.bind next fun next => Meets.assuming fun project => ?_
    cases next with
    | none => exact evidenced_forgetting
    | some task =>
        refine Meets.bind (Meets.consequence (runTaskOnce_evidenced (project task rfl))
          (fun _ holds => ⟨holds.1 task rfl, holds.2⟩) fun _ _ holds => holds) fun result => ?_
        exact evidenced_of_extends

/-- An operation that proves its task before the task succeeds. -/
theorem applyToTask_evidenced {target : Metadata} {perform : LeaseRow → Command Files Done}
    (proves : ∀ lease, Meets (fun db => Known task db ∧ Evidenced db) (perform lease)
      fun _ db => Proven task db ∧ Evidenced db) :
    Meets (fun db => Known task db ∧ Evidenced db) (applyToTask now operation scope task target perform)
      fun _ => Evidenced := by
  unfold applyToTask
  refine Meets.bind known_of_extends fun lease => Meets.bind known_of_extends fun _ => ?_
  refine Meets.bind (proves lease) fun done => Meets.bind proven_of_extends fun released => ?_
  refine Meets.bind (Meets.consequence updateRunTaskStatus_evidenced
    (fun _ holds => ⟨fun _ => holds.1.supported, holds.2⟩) fun _ _ holds => holds) fun _ => ?_
  exact evidenced_of_extends

theorem storeTaskArtifact_filed {ending content contentType artifactType : GoString} {metadata : Metadata}
    (project : task.projectID = scope.record.id) (run : task.runID = scope.run.id) :
    Meets (fun db => Known task db ∧ Evidenced db)
      (storeTaskArtifact env now operation scope task ending content contentType artifactType metadata)
      fun artifact db => Filed task artifact db ∧ Known task db ∧ Evidenced db := by
  unfold storeTaskArtifact
  exact Meets.bind known_of_extends fun stored => insertArtifact_filed (fun _ => project.symm) fun _ => congrArg some run.symm

theorem reportOn_proven {lease : LeaseRow} {ending : GoString} {details release : Metadata}
    (project : task.projectID = scope.record.id) (run : task.runID = scope.run.id) :
    Meets (fun db => Known task db ∧ Evidenced db) (reportOn env now operation scope task lease ending details release)
      fun _ db => Proven task db ∧ Evidenced db := by
  unfold reportOn
  refine Meets.bind (storeTaskArtifact_filed project run) fun report => ?_
  refine Meets.bind (insertRunAttempt_proven (fun _ => rfl) (fun _ => rfl) fun _ => ?_) fun attempt => proven_of_extends
  exact reference_at (bytes "evidence_artifact_id") (by decide) rfl

theorem performChange_proven {change : Change} {lease : LeaseRow} (project : task.projectID = scope.record.id)
    (run : task.runID = scope.run.id) :
    Meets (fun db => Known task db ∧ Evidenced db) (performChange env now operation scope task change lease)
      fun _ db => Proven task db ∧ Evidenced db := by
  unfold performChange
  refine Meets.bind (storeTaskArtifact_filed project run) fun preimage => ?_
  refine Meets.bind filed_of_extends fun drilled => ?_
  refine Meets.bind (insertRunAttempt_proven (fun _ => rfl) (fun _ => rfl) fun _ => ?_) fun rollback => proven_of_extends
  exact reference_at (bytes "preimage_artifact") (by decide) rfl

/-- An admitted task is stored and belongs to the project and the run of its operation. -/
theorem admitTask_known (scope : Scope) :
    Meets Evidenced (Tx.query fun db => admitTask env.codec operation scope db : Command Files (Except Denial TaskRow))
      fun admitted db =>
        (∀ task, admitted = .ok task → task.projectID = scope.record.id ∧ task.runID = scope.run.id) ∧
          (∀ task, admitted = .ok task → Known task db) ∧ Evidenced db := by
  refine Meets.query fun db holds => ⟨fun task admitted => ?_, fun task admitted => ?_, holds⟩
  · have waits := (admitTask_waits admitted).2
    unfold waitingTask at waits
    simp only [Bool.and_eq_true, beq_iff_eq] at waits
    exact waits.1.1.1.1
  · exact ⟨task, (admitTask_waits admitted).1, SameTask.refl task⟩

theorem execute_evidenced {seen : Database} {raw : ExecutionOptions}
    {perform : Scope → TaskRow → Command Files (Answer ExecutionResult)}
    (evidences : ∀ scope task, task.projectID = scope.record.id → task.runID = scope.run.id →
      Meets (fun db => Known task db ∧ Evidenced db) (perform scope task) fun _ => Evidenced) :
    Keeps Evidenced (execute env operation seen record raw perform) := by
  unfold execute
  dsimp only
  split
  · exact evidenced_of_extends
  · refine Meets.bind evidenced_of_extends fun gate => Meets.bind evidenced_of_extends fun run => ?_
    split
    · exact evidenced_of_extends
    · refine Meets.bind evidenced_of_extends fun version => Meets.bind evidenced_of_extends fun worker => ?_
      refine once_meets evidenced_of_extends (Meets.bind (admitTask_known _) fun admitted => ?_) evidenced_of_extends
      refine Meets.assuming fun ofScope => ?_
      cases admitted with
      | error denial => exact evidenced_forgetting
      | ok task =>
          obtain ⟨project, ofRun⟩ := ofScope task rfl
          exact Meets.consequence (evidences _ task project ofRun) (fun _ holds => ⟨holds.1 task rfl, holds.2⟩)
            fun _ _ holds => holds

theorem writeFileOf_evidenced (operation : Operation) (seen : Database) (raw : ExecutionOptions) :
    Keeps Evidenced (writeFileOf env now operation seen record raw) := by
  refine execute_evidenced fun scope task project ofRun => Meets.bind known_of_extends fun checked => ?_
  cases checked with
  | error denial => exact evidenced_forgetting
  | ok change => exact applyToTask_evidenced fun _ => performChange_proven project ofRun

/-- The task of a lease that is about to be completed has evidence. -/
def CompletesProven (db : Database) (projectID leaseID : ID) (status : GoString) : Prop :=
  status = bytes "completed" → ∀ lease ∈ db.leases.rows, lease.projectID = projectID → lease.id = leaseID →
    lease.active = true → ∀ task ∈ db.tasks.rows, lease.taskID = some task.id → hasEvidence db task = true

theorem releaseLeaseForWorker_supported {worker : WorkerRow} {leaseID : ID} {status : GoString} {metadata : Metadata} :
    Meets (fun db => CompletesProven db projectID leaseID status ∧ Evidenced db)
      (releaseLeaseForWorker now projectID worker leaseID status metadata : Command Files LeaseRow)
      fun released db => (status = bytes "completed" → Supported (orZero released.taskID) db) ∧ Evidenced db := by
  unfold releaseLeaseForWorker
  refine Meets.bind (?_ : Meets (fun db => CompletesProven db projectID leaseID status ∧ Evidenced db) _
    fun (lease : LeaseRow) db => (status = bytes "completed" → Supported (orZero lease.taskID) db) ∧ Evidenced db)
      fun lease => ?_
  · refine Meets.check fun db lease holds found => ⟨?_, holds.2⟩
    split at found
    · cases found
    · rename_i look
      cases found
      have fits := List.find?_some look
      simp only [Bool.and_eq_true, beq_iff_eq] at fits
      intro completes named task present same
      refine holds.1 completes lease (List.mem_of_find?_eq_some look) fits.1.1.1 fits.1.1.2 fits.2 task present ?_
      cases reference : lease.taskID with
      | none =>
          rw [reference] at named
          exact absurd rfl named
      | some taskID =>
          rw [reference] at same
          exact congrArg some same.symm
  · have ends : Keeps (fun db => (status = bytes "completed" → Supported (orZero lease.taskID) db) ∧ Evidenced db)
        (updateLeases (·.id == lease.id) (endLease now status metadata) : Command Files Unit) :=
      Meets.write fun db holds => holds
    exact Meets.bind ends fun _ => Meets.pure fun db holds => holds

theorem releaseLease_evidenced (raw : ReleaseLeaseOptions) :
    Meets (fun db => CompletesProven db record.id raw.leaseID (textOr (bytes "released") raw.status) ∧ Evidenced db)
      (releaseLease env now record raw) fun _ => Evidenced := by
  unfold releaseLease
  refine once_meets ?_ ?_ evidenced_forgetting
  · intro files db files' created db' holds ran
    unfold reserve at ran
    split at ran
    · cases ran
      exact holds
    · cases ran
      exact holds
    · cases ran
  · refine Meets.bind (Meets.check fun _ _ holds _ => holds) fun worker => ?_
    refine Meets.bind releaseLeaseForWorker_supported fun released => ?_
    refine Meets.bind (Meets.consequence updateRunTaskStatus_evidenced (fun db holds => ⟨?_, holds.2⟩)
      fun _ _ holds => holds) fun _ => evidenced_of_extends
    intro succeeds
    refine holds.1 ?_
    unfold releasedTaskStatus at succeeds
    split at succeeds
    · assumption
    · cases succeeds

end Operations

section Finished

variable {Files : Type} {env : Env Files} {now : Time} {sequence : Nat} {record : ProjectRow}

/-- A call that completes a lease completes one whose task has evidence. -/
def Call.CompletesProven (record : ProjectRow) (db : Database) : Call → Prop
  | releaseLease options =>
      Project.CompletesProven db record.id options.leaseID (textOr (bytes "released") options.status)
  | _ => True

/-- Every call keeps the evidence of finished tasks, if it completes only leases whose task has evidence. -/
theorem Call.evidenced (call : Call) (seen : Database) :
    Meets (fun db => call.CompletesProven record db ∧ Evidenced db) (call.command env now sequence seen record)
      fun _ => Evidenced := by
  have only {A : Type} {command : Command Files A} (keeps : Keeps Evidenced command) :
      Meets (fun db => True ∧ Evidenced db) (ignoring command) fun _ => Evidenced :=
    Meets.consequence (Meets.bind keeps fun _ => Meets.pure fun _ holds => holds) (fun _ holds => holds.2)
      fun _ _ holds => holds
  have grows {A : Type} {command : Command Files A} [Moves Extends command] :
      Meets (fun db => True ∧ Evidenced db) (ignoring command) fun _ => Evidenced :=
    only evidenced_of_extends
  cases call with
  | releaseLease options => exact Meets.bind (releaseLease_evidenced options) fun _ => Meets.pure fun _ holds => holds
  | runWorkerOnce options => exact only (runWorkerOnce_evidenced options)
  | executeFixture options | writeApprovedArtifact options =>
      refine only (execute_evidenced fun _ _ project ofRun => ?_)
      exact applyToTask_evidenced fun _ => reportOn_proven project ofRun
  | verifyReadOnly options =>
      refine only (execute_evidenced fun scope task project ofRun => Meets.bind known_of_extends fun checked => ?_)
      cases checked with
      | error denial => exact evidenced_forgetting
      | ok fullPath =>
          refine applyToTask_evidenced fun lease => ?_
          unfold verifyFile
          exact Meets.bind known_of_extends fun image => reportOn_proven project ofRun
  | writeFixtureProject options => exact only (writeFileOf_evidenced .fixtureProjectWrite seen options)
  | writeManagedGenerated options => exact only (writeFileOf_evidenced .managedGeneratedWrite seen options)
  | _ => exact grows

/-- An event completes only leases whose task has evidence. -/
def WorkEvent.CompletesProven (world : World Files) : WorkEvent Files → Prop
  | .call _ _ _ projectKey asked =>
      ∀ record, world.db.getByKey projectKey = some record → asked.CompletesProven record world.db
  | _ => True

theorem workStep_evidenced (world : World Files) (event : WorkEvent Files) (holds : Evidenced world.db)
    (proven : event.CompletesProven world) : Evidenced (workStep env world event).1.db := by
  cases event with
  | call now sequence seen projectKey call =>
      unfold workStep
      dsimp only
      split
      · exact holds
      · rename_i record found
        exact Meets.commit (call.evidenced seen) (fun _ both => both.2) world.files ⟨proven record found, holds⟩
  | control now runID options =>
      exact Meets.commit evidenced_of_extends (fun _ kept => kept) world.files holds
  | elsewhere files after => exact holds

/-- In every run that completes only leases whose task has evidence, every task that succeeded has evidence. -/
theorem finished_tasks_have_evidence (env : Env Files) (files : Files) (events : List (WorkEvent Files))
    (proven : Run.Along (workStep env) (fun world event => event.CompletesProven world) ⟨files, {}⟩ events) :
    Evidenced (Run.final (workStep env) ⟨files, {}⟩ events).db := by
  refine Run.Along.invariant (fun world event => workStep_evidenced world event) ?_ proven
  intro task stored
  cases stored

end Finished

section Installation

/-- A dry-run task is previewed and finished by a worker. -/
def finishedPreview : List (WorkEvent Unit) :=
  [.elsewhere () smallTables, callAt 0 (.registerWorker { workerKey := bytes "w" }),
    callAt 0 (.previewRunner (bytes "v1") {}), callAt 0 (.runWorkerOnce { workerKey := bytes "w" })]

/-- A worker finishes a dry-run task, and the task has evidence. -/
theorem finishedPreview_has_evidence :
    (Run.final (workStep smallHost) ⟨(), {}⟩ finishedPreview).db.tasks.rows.map (·.status) = [.passed] ∧
      Evidenced (Run.final (workStep smallHost) ⟨(), {}⟩ finishedPreview).db :=
  ⟨by decide +kernel,
    finished_tasks_have_evidence smallHost () finishedPreview
      ⟨trivial, fun _ _ => trivial, fun _ _ => trivial, fun _ _ => trivial, trivial⟩⟩

/-- A worker that releases its lease as completed passes a task without any attempt. -/
theorem completedRelease_without_evidence :
    ¬ Evidenced (Run.final (workStep smallHost) ⟨(), {}⟩ (leasedFixture ++
      [callAt 0 (.releaseLease { workerKey := bytes "w", leaseID := 1, status := bytes "completed" })])).db := by
  decide +kernel

end Installation

end AreaFlow.Project
