import AreaFlow.Library.CleanPath
import AreaFlow.Proof.Terminal
import AreaFlow.Proof.Records

namespace AreaFlow.Project
open Go Tx

set_option synthInstance.maxSize 2048

namespace Board

variable {after board : Board} {task : TaskRow}

/-- A task waits for a worker, or somebody holds it still. -/
def Alive (board : Board) (task : TaskRow) : Prop :=
  task.status = .queued ∨ task.status = .needsRecovery ∨ board.held task.id = true

/-- A task is on the board, it neither waits nor is it held. -/
def Stuck (board : Board) (task : TaskRow) : Prop := task ∈ board.tasks ∧ ¬ board.Alive task

/-- A task that gets no new active lease is held after a step only if it was held before. -/
theorem held_of_leases {before : Board} {taskID : ID}
    (origin : ∀ lease ∈ after.leases, lease.active = true → lease ∈ before.leases) (held : after.held taskID = true) :
    before.held taskID = true := by
  obtain ⟨lease, holds⟩ := held_iff.mp held
  obtain ⟨present, refers, active⟩ := mem_holders.mp holds
  exact held_iff.mpr ⟨lease, mem_holders.mpr ⟨origin lease present active, refers, active⟩⟩

/-- A stuck task stays stuck while it keeps its row and gets no new active lease. -/
theorem Stuck.move (stuck : board.Stuck task) (unmoved : Unmoved task board after)
    (origin : ∀ lease ∈ after.leases, lease.active = true → lease ∈ board.leases) : after.Stuck task := by
  refine ⟨unmoved.kept stuck.1, fun alive => stuck.2 ?_⟩
  exact alive.imp id (Or.imp id (held_of_leases origin))

/-- The active leases of a stuck task are none. -/
theorem Stuck.not_subject (stuck : board.Stuck task) {leases : List LeaseRow}
    (active : ∀ lease ∈ leases, lease ∈ board.leases ∧ lease.active = true) : ¬ Subject leases task.id :=
  fun subject => stuck.2 (Or.inr (Or.inr (subject.held active)))

/-- Neither a recovery nor a worker finds a stuck task. -/
theorem Stuck.step {label : Label} (distinct : (board.tasks.map (·.id)).Nodup) (stuck : board.Stuck task)
    (helps : (∃ now projectID limit, label = .recover now projectID limit) ∨
      ∃ now projectID runID, label = .runOnce now projectID runID) (step : BoardStep board label after) :
    after.Stuck task := by
  cases step with
  | same => exact stuck
  | recovered now projectID limit metadata =>
      refine stuck.move (Unmoved.endAll now _ metadata .needsRecovery (stuck.not_subject fun _ => expired_active)) ?_
      intro lease present active
      unfold recoverAll at present
      rw [setStatuses_leases] at present
      exact (mem_of_active (by decide) present active).1
  | swept now projectID runID metadata =>
      refine stuck.move (Unmoved.changeLeases _ now _ metadata) fun lease present active => ?_
      exact (mem_of_active (by decide) present active).1
  | ran now projectID runID metadata done chosen lease waits project asked dry fresh =>
      have other : task.id ≠ chosen.id := by
        intro same
        have equal : task = chosen := List.inj_on_of_nodup_map distinct stuck.1 waits.1 same
        rw [equal] at stuck
        exact stuck.2 (waits.2.1.imp id Or.inl)
      have swept : Unmoved task board (board.sweep now projectID 50 metadata) := Unmoved.changeLeases _ now _ metadata
      refine stuck.move (swept.trans (Unmoved.finish fresh other now done .passed)) fun given present active => ?_
      exact (mem_of_active (by decide) (mem_of_finish present active) active).1
  | _ => rcases helps with ⟨_, _, _, named⟩ | ⟨_, _, _, named⟩ <;> cases named

/-- Every active lease belongs to a task of its project. -/
structure Owned (board : Board) : Prop where
  positive : ∀ task ∈ board.tasks, 0 < task.id
  owner : ∀ lease ∈ board.leases, lease.active = true →
    ∃ task ∈ board.tasks, lease.taskID = some task.id ∧ task.projectID = lease.projectID

namespace Owned

theorem changeRun (owned : board.Owned) (runID : ID) (change : RunRow → RunRow) : (board.changeRun runID change).Owned :=
  ⟨owned.positive, owned.owner⟩

theorem changeTasks (owned : board.Owned) (chosen : TaskRow → Bool) (status : TaskStatus) :
    (board.changeTasks chosen status).Owned where
  positive := by
    intro task present
    obtain ⟨old, stored, rfl⟩ := List.mem_map.mp present
    split <;> exact owned.positive old stored
  owner := by
    intro lease present active
    obtain ⟨task, stored, refers, project⟩ := owned.owner lease present active
    refine ⟨_, List.mem_map_of_mem stored, ?_⟩
    split <;> exact ⟨refers, project⟩

theorem setStatus (owned : board.Owned) (taskID : ID) (status : TaskStatus) : (board.setStatus taskID status).Owned := by
  unfold Board.setStatus
  split
  · exact owned
  · exact owned.changeTasks _ status

theorem recoverAll (owned : board.Owned) (leases : List LeaseRow) : (board.recoverAll leases).Owned := by
  unfold Board.recoverAll
  induction leases generalizing board with
  | nil => exact owned
  | cons first rest ih => exact ih (owned.setStatus _ .needsRecovery)

theorem changeLeases (owned : board.Owned) {chosen : LeaseRow → Bool} (now : Time) {status : GoString}
    (metadata : Metadata)
    (were : status = bytes "active" → ∀ lease ∈ board.leases, chosen lease = true → lease.active = true) :
    (board.changeLeases chosen (ended now status metadata)).Owned where
  positive := owned.positive
  owner := by
    intro lease present active
    obtain ⟨old, stored, rfl⟩ := List.mem_map.mp present
    split at active
    · rename_i picked
      rw [if_pos picked]
      exact owned.owner old stored (were (beq_iff_eq.mp active) old stored picked)
    · rename_i spared
      rw [if_neg spared]
      exact owned.owner old stored active

theorem sweep (owned : board.Owned) (now : Time) (projectID : ID) (limit : Int) (metadata : Metadata) :
    (board.sweep now projectID limit metadata).Owned :=
  owned.changeLeases now metadata fun same => absurd same (by decide)

theorem sweepIf (owned : board.Owned) (sweeps : Bool) (now : Time) (projectID : ID) (metadata : Metadata) :
    (board.sweepIf sweeps now projectID metadata).Owned := by
  unfold Board.sweepIf
  split
  · exact owned.sweep now projectID 50 metadata
  · exact owned

theorem grant (owned : board.Owned) {lease : LeaseRow} {task : TaskRow} (known : task ∈ board.tasks)
    (fresh : board.Fresh lease task) : (board.grant lease task.id).Owned := by
  have added : (board.addLease lease).Owned := by
    refine ⟨owned.positive, fun given present active => ?_⟩
    rcases List.mem_append.mp present with old | new
    · exact owned.owner given old active
    · rw [List.mem_singleton.mp new]
      exact ⟨task, known, fresh.2.1, fresh.2.2.1.symm⟩
  exact added.setStatus task.id .leased

theorem finish (owned : board.Owned) {lease : LeaseRow} {task : TaskRow} (known : task ∈ board.tasks)
    (fresh : board.Fresh lease task) (now : Time) (metadata : Metadata) (status : TaskStatus) :
    (board.finish lease task now metadata status).Owned :=
  ((owned.grant known fresh).changeLeases now metadata fun same => absurd same (by decide)).setStatus task.id status

/-- Every step leaves every active lease with a task of its project. -/
theorem step {after : Board} {label : Label} (owned : board.Owned) (distinct : (board.leases.map (·.id)).Nodup)
    (step : BoardStep board label after) : after.Owned := by
  cases step with
  | same => exact owned
  | added run task runNamed taskNamed belongs waits kind =>
      refine ⟨fun later present => ?_, fun lease present active => ?_⟩
      · rcases List.mem_append.mp present with old | new
        · exact owned.positive later old
        · rw [List.mem_singleton.mp new, taskNamed]
          exact freshID_pos _
      · obtain ⟨owner, stored, refers⟩ := owned.owner lease present active
        exact ⟨owner, List.mem_append_left _ stored, refers⟩
  | acquired now projectID sweeps metadata task lease known project positive free fresh =>
      refine (owned.sweepIf sweeps now projectID metadata).grant ?_ fresh
      rw [sweepIf_tasks]
      exact known
  | released projectID status now metadata lease known project active =>
      unfold endLease
      refine (owned.changeLeases now metadata fun _ old stored chosen => ?_).setStatus _ _
      have same : old = lease := List.inj_on_of_nodup_map distinct stored known (eq_of_beq chosen)
      rw [same]
      exact active
  | recovered now projectID limit metadata => exact (owned.sweep now projectID limit metadata).recoverAll _
  | swept now projectID runID metadata => exact owned.sweep now projectID 50 metadata
  | ran now projectID runID metadata done task lease waits project chosen dry fresh =>
      exact (owned.sweep now projectID 50 metadata).finish waits.1 fresh now done .passed
  | executed operation now done task lease change waits queued fresh keeps =>
      exact (owned.finish waits.1 fresh now done operation.taskDone).changeRun task.runID change
  | controlled run quote now options known allowed =>
      unfold Board.control
      dsimp only
      split
      · exact owned.changeRun run.id _
      · exact (owned.changeRun run.id _).changeTasks _ _

end Owned

end Board

section Ends

variable {Files : Type} {env : Env Files} {board : Board} {now : Time} {sequence : Nat} {record : ProjectRow}
  {projectID : ID} {worker : WorkerRow} {task : TaskRow} {metadata : Metadata} {workerKey : GoString}
  {before : Database → Prop}

instance {row : EventRow} : Always (insertEvent row : Command Files ID) := by
  unfold insertEvent
  infer_instance

instance {row : AuditRow} : Always (insertAuditEvent row : Command Files ID) := by
  unfold insertAuditEvent
  infer_instance

instance {new : Table.New AttemptRow (·.id)} : Always (insertRunAttempt new : Command Files AttemptRow) := by
  unfold insertRunAttempt
  infer_instance

instance {new : Table.New ArtifactRow (·.id)} : Always (insertArtifact new : Command Files ArtifactRow) := by
  unfold insertArtifact
  infer_instance

instance {taskID : ID} {status : TaskStatus} : Always (updateRunTaskStatus taskID status : Command Files Unit) := by
  unfold updateRunTaskStatus
  infer_instance

instance {new : Table.New LeaseRow (·.id)} : Always (insertLease new : Command Files LeaseRow) := by
  unfold insertLease
  infer_instance

instance {chosen : LeaseRow → Bool} {change : Table.Change LeaseRow (·.id)} :
    Always (updateLeases chosen change : Command Files Unit) := by
  unfold updateLeases
  infer_instance

instance {commandType idempotencyKey : GoString} {response : Metadata} :
    Always (complete projectID commandType idempotencyKey response : Command Files Unit) := by
  unfold complete
  infer_instance

instance {limit : Int} :
    Always (recoverExpiredLeases now projectID limit metadata : Command Files (List LeaseRow)) := by
  unfold recoverExpiredLeases
  infer_instance

instance {reason : GoString} {lease : LeaseRow} : Always (recoverTask record reason lease : Command Files Unit) := by
  unfold recoverTask
  infer_instance

/-- A task that nobody holds can be leased. -/
theorem insertLeaseForTask_ends {leaseKind : GoString} {capabilities : List GoString} {scope : Metadata}
    {timeoutSeconds : Int} (free : board.held task.id = false) :
    Ends board.Shown
      (insertLeaseForTask now projectID worker task leaseKind capabilities scope metadata timeoutSeconds :
        Command Files LeaseRow)
      fun lease db =>
        lease = newLease now projectID worker task leaseKind capabilities scope metadata timeoutSeconds
          (freshID (board.leases.map (·.id))) ∧ (board.addLease lease).Shown db := by
  refine Meets.ends (insertLeaseForTask_shown.consequence (fun _ shown => shown) fun _ _ facts => facts.2) ?_
  unfold insertLeaseForTask
  have look : Meets board.Shown (Tx.query fun db => hasActiveLease db task.id : Command Files Bool) fun taken _ =>
      taken = false ∧ True :=
    Meets.query fun db shown => ⟨by rw [← free, ← shown]; rfl, trivial⟩
  refine Ends.bind look.always fun taken => Ends.assuming fun isFree => ?_
  rw [isFree, if_neg Bool.false_ne_true]
  exact Always.ends

/-- A worker can end the lease it has. -/
theorem releaseLeaseForWorker_ends {lease : LeaseRow} {status : GoString} (known : lease ∈ board.leases)
    (project : lease.projectID = projectID) (given : lease.workerID = some worker.id) (active : lease.active = true) :
    Ends board.Shown (releaseLeaseForWorker now projectID worker lease.id status metadata : Command Files LeaseRow)
      fun _ => (board.changeLeases (·.id == lease.id) (ended now status metadata)).Shown := by
  refine Meets.ends completeLease_shown ?_
  unfold releaseLeaseForWorker
  refine Ends.bind (Ends.check fun db shown => ?_) fun found => Always.ends
  have stored : lease ∈ db.leases.rows := by
    rw [← shown] at known
    exact known
  cases look : leaseOfWorker db projectID worker.id lease.id with
  | none =>
      have missed := List.find?_eq_none.mp look lease stored
      simp [project, given, active] at missed
  | some other => exact ⟨other, rfl⟩

def reportName (taskID : ID) : GoString := bytes "run-task-" ++ Auth.sprintID taskID ++ bytes "-report.json"

/-- This is the path of the report of a worker about a task. -/
def reportPath (workerKey : GoString) (taskID : ID) : GoString :=
  pathJoin [bytes "workers", workerKey, bytes "run-once", reportName taskID]

/-- The directory for the reports of a worker stays below the project. -/
abbrev ReportsInside (workerKey : GoString) : Prop :=
  hasPrefix (pathJoin [bytes "workers", workerKey, bytes "run-once"]) (bytes "../") = false

theorem reportName_ordinary (taskID : ID) : Ordinary (reportName taskID) where
  nonempty := List.cons_ne_nil _ _
  notDot same := absurd (List.cons.inj same).1 (by decide)
  notUp same := absurd (List.cons.inj same).1 (by decide)
  clean := by
    have digits : slash ∉ Auth.sprintID taskID := by
      intro member
      rcases intString_letters taskID slash member with minus | digit
      · revert minus
        decide
      · revert digit
        decide
    rw [reportName, List.mem_append, List.mem_append]
    rintro ((first | number) | last)
    · revert first
      decide
    · exact digits number
    · revert last
      decide

/-- The check of artifact paths refuses a report exactly if its directory is above the project. -/
theorem reportPath_refused_iff (workerKey : GoString) (taskID : ID) :
    (pathClean (reportPath workerKey taskID) = bytes "." ∨ (pathClean (reportPath workerKey taskID)).head? = some slash ∨
      hasPrefix (pathClean (reportPath workerKey taskID)) (bytes "../") = true) ↔ ¬ ReportsInside workerKey := by
  have runs : Ordinary (bytes "run-once") := ⟨by decide, by decide, by decide, by decide⟩
  have ordinary := reportName_ordinary taskID
  obtain ⟨base, baseNormal, -, directory⟩ := pathJoin_name [workerKey] (by decide : bytes "workers" ≠ []) (by decide) runs
  obtain ⟨segments, normal, same, report⟩ :=
    pathJoin_name [workerKey, bytes "run-once"] (by decide : bytes "workers" ≠ []) (by decide) ordinary
  have parts : segments = base ++ [bytes "run-once"] :=
    (render_injective normal (baseNormal.append_names (by simpa using runs)) (same.symm.trans directory)).2
  have longer : Normal false (segments ++ [reportName taskID]) := normal.append_names (by simpa using ordinary)
  have clean : pathClean (reportPath workerKey taskID) = render false (segments ++ [reportName taskID]) := by
    rw [show reportPath workerKey taskID = _ from report, pathClean_eq_render, isRooted_render longer,
      pathSegments_render longer]
  have relative : (render false (segments ++ [reportName taskID])).head? ≠ some slash := by
    simpa [isRooted] using isRooted_render longer
  rw [clean, ReportsInside, show pathJoin _ = _ from same, Bool.not_eq_false, hasPrefix_render normal, hasPrefix_render longer,
    render_eq_dot longer, eq_false relative, false_or, parts]
  cases base with
  | nil => simp [show bytes "run-once" ≠ up by decide]
  | cons first rest => simp

/-- The configured backend stores the reports of a worker about a task. -/
def Env.StoresReports (env : Env Files) (record : ProjectRow) (workerKey : GoString) (taskID : ID) : Prop :=
  ∀ content files, ∃ files' stored,
    env.writeConfigured record (pathJoin [record.projectKey, pathClean (reportPath workerKey taskID)]) content
      (bytes "application/json") files = (files', .ok stored)

/-- The host takes the reports of a worker about a task. -/
def Env.TakesReports (env : Env Files) (record : ProjectRow) (workerKey : GoString) (taskID : ID) : Prop :=
  ∀ content, Always (writeProjectArtifact env record (reportPath workerKey taskID) content (bytes "application/json"))

theorem Env.StoresReports.takes {taskID : ID} (inside : ReportsInside workerKey)
    (stores : env.StoresReports record workerKey taskID) : env.TakesReports record workerKey taskID := by
  intro content
  have passes := mt (reportPath_refused_iff workerKey taskID).mp (not_not.mpr inside)
  unfold writeProjectArtifact
  dsimp only
  rw [if_neg passes]
  refine ⟨fun files db _ => ?_⟩
  obtain ⟨files', stored, written⟩ := stores content files
  refine ⟨files', stored, db, ?_, trivial⟩
  simp only [Tx.act, written]

/-- A worker finishes a task that nobody holds. -/
theorem runTaskOnce_ends {options : WorkerRunOnceOptions} (takes : env.TakesReports record worker.workerKey task.id)
    (project : task.projectID = record.id) (free : board.held task.id = false) :
    Ends board.Shown (runTaskOnce env now record worker task options) fun _ db =>
      ∃ lease done, board.Fresh lease task.bare ∧ (board.finish lease task.bare now done .passed).Shown db := by
  refine Meets.ends (runTaskOnce_shown project) ?_
  unfold runTaskOnce
  refine Ends.bind (insertLeaseForTask_ends free) fun lease => Ends.assuming fun made => ?_
  refine Ends.bind updateRunTaskStatus_shown.always fun _ => ?_
  have reports : Always (writeAndInsertWorkerRunOnceArtifact env now record worker task lease options) := by
    have stores := takes
    unfold Env.TakesReports reportPath reportName at stores
    unfold writeAndInsertWorkerRunOnceArtifact
    dsimp only
    infer_instance
  refine Ends.bind shown_of_same.always fun report => ?_
  refine Ends.bind shown_of_same.always fun attempt => ?_
  have given : lease ∈ ((board.addLease lease).setStatus task.id .leased).leases := by
    rw [Board.setStatus_leases]
    exact List.mem_append_right _ (List.mem_singleton_self lease)
  subst made
  exact Ends.bind (releaseLeaseForWorker_ends given rfl rfl rfl) fun _ => Always.ends

/-- A worker of the project has a key and the usual capabilities. -/
def Hired (record : ProjectRow) (workerKey : GoString) (db : Database) : Prop :=
  ∃ worker, db.workers.rows.find? (fun worker => worker.projectID == record.id && worker.workerKey == workerKey) =
    some worker ∧ ∀ capability ∈ defaultCapabilities, capability ∈ worker.capabilities

instance (record : ProjectRow) (workerKey : GoString) (db : Database) : Decidable (Hired record workerKey db) :=
  inferInstanceAs (Decidable (∃ worker ∈ db.workers.rows.find? _, _))

/-- A worker with the usual capabilities lacks none. -/
theorem missing_of_capable {capabilities : List GoString}
    (capable : ∀ capability ∈ defaultCapabilities, capability ∈ capabilities) :
    missingWorkerCapabilities capabilities (capabilitiesOr defaultCapabilities []) = [] := by
  have listed : normalizeCapabilityList (capabilitiesOr defaultCapabilities []) = defaultCapabilities := by decide
  have trimmed : ∀ capability ∈ defaultCapabilities, trimSpace capability = capability := by decide
  unfold missingWorkerCapabilities
  rw [listed, List.filter_eq_nil_iff]
  intro capability member
  rw [Bool.not_eq_true', Bool.not_eq_false, List.any_eq_true]
  exact ⟨capability, capable capability member, beq_iff_eq.mpr (trimmed capability member)⟩

theorem loadWorkerForUpdate_ends (named : trimSpace workerKey ≠ []) :
    Ends (fun db => board.Shown db ∧ Hired record workerKey db)
      (loadWorkerForUpdate record.id workerKey : Command Files WorkerRow) fun worker db =>
        (worker.workerKey = workerKey ∧ ∀ capability ∈ defaultCapabilities, capability ∈ worker.capabilities) ∧
          board.Shown db := by
  refine Meets.ends (Meets.check fun db worker both found => ⟨?_, both.1⟩) (Ends.check fun db both => ?_)
  · obtain ⟨shown, hired, look, capable⟩ := both
    rw [if_neg named, look] at found
    cases found
    have fits := List.find?_some look
    simp only [Bool.and_eq_true, beq_iff_eq] at fits
    exact ⟨fits.2, capable⟩
  · obtain ⟨shown, hired, look, capable⟩ := both
    rw [if_neg named, look]
    exact ⟨hired, rfl⟩

/-- A loaded worker is stored, and it has the key. -/
theorem loadWorkerForUpdate_found :
    Meets before (loadWorkerForUpdate projectID workerKey : Command Files WorkerRow) fun worker db =>
      (worker ∈ db.workers.rows ∧ worker.projectID = projectID ∧ worker.workerKey = workerKey) ∧ before db := by
  refine Meets.check fun db worker holds found => ⟨?_, holds⟩
  split at found
  · cases found
  split at found
  · cases found
  · rename_i look
    cases found
    have fits := List.find?_some look
    simp only [Bool.and_eq_true, beq_iff_eq] at fits
    exact ⟨List.mem_of_find?_eq_some look, fits⟩

/-- A worker whose reports are refused finishes no task. -/
theorem runTaskOnce_refused {options : WorkerRunOnceOptions} (outside : ¬ ReportsInside worker.workerKey) :
    Meets before (runTaskOnce env now record worker task options) fun _ _ => False := by
  have fails {lease : LeaseRow} : Meets (fun _ => True)
      (writeAndInsertWorkerRunOnceArtifact env now record worker task lease options) fun _ _ => False := by
    have refused := (reportPath_refused_iff worker.workerKey task.id).mpr outside
    unfold reportPath reportName at refused
    unfold writeAndInsertWorkerRunOnceArtifact writeProjectArtifact
    dsimp only
    rw [if_pos refused]
    exact Meets.bind Meets.fail fun _ _ _ _ _ _ never _ => never
  unfold runTaskOnce
  refine Meets.bind (fun _ _ _ _ _ _ _ => trivial) fun lease => Meets.bind (fun _ _ _ _ _ _ _ => trivial) fun _ => ?_
  exact Meets.bind fails fun _ _ _ _ _ _ never _ => never

theorem runWorkerOnce_refused {raw : WorkerRunOnceOptions} (outside : ¬ ReportsInside (trimSpace raw.workerKey)) :
    Meets board.Shown (runWorkerOnce env now record raw) fun _ db => db.board.tasks = board.tasks := by
  unfold runWorkerOnce
  have loads : Meets board.Shown (loadWorkerForUpdate record.id (trimSpace raw.workerKey) : Command Files WorkerRow)
      fun worker db => worker.workerKey = trimSpace raw.workerKey ∧ board.Shown db :=
    Meets.consequence loadWorkerForUpdate_found (fun _ shown => shown) fun _ _ both => ⟨both.1.2.2, both.2⟩
  refine Meets.bind loads fun worker => Meets.assuming fun key => ?_
  dsimp only
  split
  · exact Meets.consequence shown_of_same (fun _ shown => shown) fun _ _ shown => congrArg Board.tasks shown
  · refine Meets.bind recoverExpiredLeases_shown fun leases => Meets.assuming fun _ => ?_
    refine Meets.bind shown_of_same fun next => ?_
    cases next with
    | none =>
        refine Meets.consequence shown_of_same (fun _ shown => shown) fun _ _ shown => ?_
        exact (congrArg Board.tasks shown).trans rfl
    | some task => exact Meets.bind (runTaskOnce_refused (key ▸ outside)) fun _ _ _ _ _ _ never _ => never.elim

/-- A dry-run task that waits is found, or another one before it. -/
theorem nextDryRunTaskForLease_exists {db : Database} {task : TaskRow} (waits : db.board.Waiting task)
    (project : task.projectID = projectID) (dry : ∃ run ∈ db.board.runs, run.id = task.runID ∧ run.dryRun = true) :
    ∃ chosen, nextDryRunTaskForLease db projectID 0 = some chosen := by
  obtain ⟨present, status, free⟩ := waits
  obtain ⟨row, stored, rfl⟩ := List.mem_map.mp present
  obtain ⟨run, known, named, isDry⟩ := dry
  refine firstBy_exists createdFirst (x := row) (List.mem_filter.mpr ⟨stored, ?_⟩)
  unfold waitingDryRunTask
  have isHeld : hasActiveLease db row.id = false := free
  have dryRun : (db.runs.rows.any fun run => run.id == row.runID && run.dryRun) = true :=
    List.any_eq_true.mpr ⟨run, known, by rw [Bool.and_eq_true, beq_iff_eq]; exact ⟨named, isDry⟩⟩
  have same : row.projectID = projectID := project
  rw [same, isHeld, dryRun]
  rcases status with queued | recovering
  · rw [show row.status = .queued from queued]
    simp
  · rw [show row.status = .needsRecovery from recovering]
    simp

/-- The tables show the board after a sweep, with one waiting task of the project finished. -/
def Board.Worked (board : Board) (now : Time) (projectID : ID) (db : Database) : Prop :=
  ∃ metadata chosen lease done, (board.sweep now projectID 50 metadata).Waiting chosen ∧
    chosen.projectID = projectID ∧ (board.sweep now projectID 50 metadata).Fresh lease chosen ∧
      ((board.sweep now projectID 50 metadata).finish lease chosen now done .passed).Shown db

/-- A worker finishes some dry-run task as long as one waits. -/
theorem runWorkerOnce_ends (named : trimSpace workerKey ≠ [])
    (takes : ∀ task ∈ board.tasks, env.TakesReports record (trimSpace workerKey) task.id) (waits : board.Waiting task)
    (project : task.projectID = record.id) (dry : ∃ run ∈ board.runs, run.id = task.runID ∧ run.dryRun = true) :
    Ends (fun db => board.Shown db ∧ Hired record (trimSpace workerKey) db)
      (runWorkerOnce env now record { workerKey := workerKey }) fun _ => board.Worked now record.id := by
  unfold runWorkerOnce
  have trimmed : trimSpace (trimSpace workerKey) ≠ [] := by rwa [trimSpace_trimSpace]
  refine Ends.bind (loadWorkerForUpdate_ends trimmed) fun worker => Ends.assuming fun able => ?_
  have complete : missingWorkerCapabilities worker.capabilities
      (normalizeWorkerRunOnceOptions { workerKey := workerKey }).allowedCapabilities = [] := missing_of_capable able.2
  dsimp only
  rw [if_neg (not_not.mpr complete)]
  refine Ends.bind recoverExpiredLeases_shown.always fun _ => Ends.assuming fun _ => ?_
  have finds (metadata : Metadata) : Meets (board.sweep now record.id 50 metadata).Shown
      (Tx.query fun db => nextDryRunTaskForLease db record.id
        (normalizeWorkerRunOnceOptions { workerKey := workerKey }).runID : Command Files (Option TaskRow))
      fun next db => (∃ chosen, next = some chosen ∧ (board.sweep now record.id 50 metadata).Waiting chosen.bare ∧
        chosen.projectID = record.id) ∧ (board.sweep now record.id 50 metadata).Shown db := by
    have waitsStill : (board.sweep now record.id 50 metadata).Waiting task := by
      refine ⟨waits.1, waits.2.1, Bool.eq_false_iff.mpr fun held => ?_⟩
      have before := Board.held_of_leases (fun _ present active => (Board.mem_of_active (by decide) present active).1) held
      rw [waits.2.2] at before
      cases before
    intro files db files' next db' shown ran
    have facts := nextDryRunTaskForLease_shown files db files' next db' shown ran
    refine ⟨?_, facts.2⟩
    cases ran
    rw [← shown] at waitsStill
    have dryStill : ∃ run ∈ db.board.runs, run.id = task.runID ∧ run.dryRun = true := by
      rw [show db.board = _ from shown]
      exact dry
    obtain ⟨chosen, found⟩ := nextDryRunTaskForLease_exists waitsStill project dryStill
    have chosenFacts := facts.1 chosen found
    exact ⟨chosen, found, chosenFacts.1, chosenFacts.2.1⟩
  refine Ends.bind (finds _).always fun next => Ends.assuming fun found => ?_
  obtain ⟨chosen, rfl, waiting, ofProject⟩ := found
  have takesIt : env.TakesReports record worker.workerKey chosen.id := by
    rw [able.1]
    exact takes chosen.bare waiting.1
  refine Ends.bind (runTaskOnce_ends takesIt ofProject waiting.2.2) fun result => ?_
  refine Meets.always (Meets.pure fun db finished => ?_)
  obtain ⟨lease, done, fresh, shown⟩ := finished
  exact ⟨_, chosen.bare, lease, done, waiting, ofProject, fresh, shown⟩

theorem ignoring_ends {A : Type} {after : Database → Prop} {command : Command Files A}
    (main : Ends before command fun _ => after) : Ends before (ignoring command) fun _ => after :=
  Ends.bind main fun _ => Meets.always (Meets.pure fun _ holds => holds)

/-- A command with a new key runs its body. -/
theorem once_ends {A : Type} {after : A → Database → Prop} {commandType idempotencyKey hash : GoString}
    {body replay : Command Files A} (main : Ends board.Shown body after) :
    Ends (fun db => board.Shown db ∧ ∀ row ∈ db.commands, row.idempotencyKey ≠ idempotencyKey)
      (once projectID commandType idempotencyKey hash body replay) after := by
  intro files db both
  have absent : db.command projectID commandType idempotencyKey = none :=
    List.find?_eq_none.mpr fun row stored => by simp [both.2 row stored]
  obtain ⟨files', answer, final, ran, done⟩ :=
    main files (db.reserved projectID commandType idempotencyKey hash) both.1
  exact ⟨files', answer, final, (once_new absent files).trans ran, done⟩

/-- A recovery with a new key marks the expired leases and their tasks. -/
theorem recoverLeases_ends {raw : RecoverLeasesOptions} (trimmed : trimSpace raw.idempotencyKey = raw.idempotencyKey)
    (keyed : raw.idempotencyKey ≠ []) (positive : 0 < raw.limit) :
    Ends (fun db => board.Shown db ∧ ∀ row ∈ db.commands, row.idempotencyKey ≠ raw.idempotencyKey)
      (recoverLeases env now sequence record raw) fun _ =>
        ((board.sweep now record.id raw.limit raw.metadata).recoverAll (board.expired now record.id raw.limit)).Shown := by
  have key : (normalizeRecoverLeasesOptions raw).idempotencyKey = raw.idempotencyKey := trimmed
  have limit : (normalizeRecoverLeasesOptions raw).limit = raw.limit := if_neg (not_le.mpr positive)
  unfold recoverLeases
  dsimp only
  rw [key, limit]
  unfold keyOr
  rw [if_neg keyed]
  refine once_ends ?_
  refine Ends.bind recoverExpiredLeases_shown.always fun leases => Ends.assuming fun same => ?_
  subst same
  refine Ends.bind (recoverTasks_shown _).always fun _ => ?_
  rw [Board.recoverAll_ended]
  exact shown_of_same.always

end Ends

/-- A step leaves the projects and their workers. -/
def SameStaff (before after : Database) : Prop :=
  after.workers = before.workers ∧ after.identity.projects = before.identity.projects

instance : IsPreorder Database SameStaff where
  refl _ := ⟨rfl, rfl⟩
  trans _ _ _ first second := ⟨second.1.trans first.1, second.2.trans first.2⟩

section Staff

variable {Files : Type}

instance : Work Files SameStaff := .of_ignoring fun _ _ _ _ _ _ _ _ => ⟨rfl, rfl⟩

instance {commandType : GoString} : Once Files SameStaff commandType :=
  Once.of_commands fun _ _ => .of_ignoring fun _ _ => ⟨rfl, rfl⟩

end Staff

section Finishing

variable {Files : Type} {env : Env Files} {now : Time} {projectKey workerKey : GoString} {record : ProjectRow}
  {world : World Files} {task : TaskRow} {taskID : ID} {lease : LeaseRow} {metadata : Metadata} {board : Board}

/-- An event helps if it recovers leases or lets the worker run a task, not before a time. -/
def Helps (now : Time) (projectKey workerKey : GoString) : WorkEvent Files → Prop
  | .call time _ _ itsKey (.recoverExpiredLeases _) => now ≤ time ∧ itsKey = projectKey
  | .call time _ _ itsKey (.runWorkerOnce options) => now ≤ time ∧ itsKey = projectKey ∧ options.workerKey = workerKey
  | _ => False

/-- Recoveries and runs of the worker pass a task in the end. -/
def Finishes (env : Env Files) (now : Time) (projectKey workerKey : GoString) (world : World Files) (taskID : ID) : Prop :=
  ∃ events : List (WorkEvent Files), (∀ event ∈ events, Helps now projectKey workerKey event) ∧
    ∃ task ∈ (Run.final (workStep env) world events).db.tasks.rows, task.id = taskID ∧ task.status = .passed

/-- A helping event leaves a stuck task stuck. -/
theorem Board.Stuck.help {event : WorkEvent Files} (stuck : world.db.board.Stuck task)
    (helps : Helps now projectKey workerKey event) : (workStep env world event).1.db.board.Stuck task := by
  have step : BoardStep world.db.board (event.label world) (workStep env world event).1.db.board :=
    workStep_board world event
  unfold Helps at helps
  split at helps
  · rename_i time sequence seen itsKey options
    cases found : world.db.getByKey itsKey with
    | none =>
        rw [workStep_unknown found]
        exact stuck
    | some record =>
        refine stuck.step world.db.board_named.tasks (Or.inl ?_) step
        rw [WorkEvent.label, found]
        exact ⟨_, _, _, rfl⟩
  · rename_i time sequence seen itsKey options
    cases found : world.db.getByKey itsKey with
    | none =>
        rw [workStep_unknown found]
        exact stuck
    | some record =>
        refine stuck.step world.db.board_named.tasks (Or.inr ?_) step
        rw [WorkEvent.label, found]
        exact ⟨_, _, _, rfl⟩
  · exact helps.elim

/-- A task never passes if helping events keep a property that excludes it. -/
theorem not_finishes_of (invariant : World Files → Prop) (holds : invariant world)
    (keeps : ∀ world event, Helps now projectKey workerKey event → invariant world → invariant (workStep env world event).1)
    (excludes : ∀ world, invariant world → ∀ task ∈ world.db.board.tasks, task.id = taskID → task.status ≠ .passed) :
    ¬ Finishes env now projectKey workerKey world taskID := by
  rintro ⟨events, helps, later, present, named, passed⟩
  have still : invariant (Run.final (workStep env) world events) := by
    clear present
    induction events generalizing world with
    | nil => exact holds
    | cons event rest ih =>
        exact ih (keeps world event (helps event List.mem_cons_self) holds) fun next member =>
          helps next (List.mem_cons_of_mem _ member)
  exact excludes _ still later.bare (List.mem_map_of_mem present) named passed

/-- A stuck task that has not passed never passes. -/
theorem Board.Stuck.not_finishes (stuck : world.db.board.Stuck task) (unpassed : task.status ≠ .passed) :
    ¬ Finishes env now projectKey workerKey world task.id := by
  refine not_finishes_of (·.db.board.Stuck task) stuck (fun world event helps still => still.help helps) ?_
  intro world still later present named
  rw [List.inj_on_of_nodup_map world.db.board_named.tasks present still.1 named]
  exact unpassed

/-- No task passes by a worker whose reports are refused. -/
theorem not_finishes_of_refused (outside : ¬ ReportsInside (trimSpace workerKey))
    (unpassed : ∀ task ∈ world.db.board.tasks, task.id = taskID → task.status ≠ .passed) :
    ¬ Finishes env now projectKey workerKey world taskID := by
  refine not_finishes_of (fun world => ∀ task ∈ world.db.board.tasks, task.id = taskID → task.status ≠ .passed) unpassed ?_
    fun _ holds => holds
  intro world event helps holds
  have step : BoardStep world.db.board (event.label world) (workStep env world event).1.db.board :=
    workStep_board world event
  unfold Helps at helps
  split at helps
  · rename_i time sequence seen itsKey options
    cases found : world.db.getByKey itsKey with
    | none =>
        rw [workStep_unknown found]
        exact holds
    | some record =>
        rw [WorkEvent.label, found] at step
        generalize (workStep env world _).1.db.board = after at step ⊢
        cases step with
        | same => exact holds
        | recovered now projectID limit metadata =>
            intro later present named
            obtain ⟨old, there, rfl⟩ := Board.Sound.mem_endAll.mp present
            split
            · exact show TaskStatus.needsRecovery ≠ .passed by decide
            · rename_i other
              rw [if_neg other] at named
              exact holds old there named
  · rename_i time sequence seen itsKey options
    obtain ⟨-, -, rfl⟩ := helps
    cases found : world.db.getByKey itsKey with
    | none =>
        rw [workStep_unknown found]
        exact holds
    | some record =>
        have keeps : Meets world.db.board.Shown (Call.command env time sequence seen record (.runWorkerOnce options))
            fun _ db => db.board.tasks = world.db.board.tasks :=
          Meets.bind (runWorkerOnce_refused outside) fun _ => Meets.pure fun _ same => same
        rw [workStep_known found]
        have same : (world.apply _).db.board.tasks = world.db.board.tasks := keeps.commit (fun _ shown => congrArg Board.tasks shown) world.files rfl
        rw [same]
        exact holds
  · exact helps.elim

/-- The worker can run the task. -/
structure Ready (env : Env Files) (projectKey workerKey : GoString) (record : ProjectRow) (world : World Files)
    (task : TaskRow) : Prop where
  found : world.db.getByKey projectKey = some record
  hired : Hired record (trimSpace workerKey) world.db
  project : task.projectID = record.id
  dry : ∃ run ∈ world.db.board.runs, run.id = task.runID ∧ run.dryRun = true
  takes : ∀ task ∈ world.db.board.tasks, env.TakesReports record (trimSpace workerKey) task.id
  waits : world.db.board.Waiting task

/-- This is the number of tasks of a project that wait for a worker. -/
def Board.waiting (board : Board) (projectID : ID) : Nat :=
  board.tasks.countP fun task =>
    task.projectID == projectID && (task.status == .queued || task.status == .needsRecovery)

/-- Only the finished task gets another status. -/
theorem Board.finish_tasks (board : Board) {chosen : TaskRow} (positive : 0 < chosen.id) (status : TaskStatus) :
    (board.finish lease chosen now metadata status).tasks = board.tasks.map fun old =>
      if old.id = chosen.id then { old with status := status } else old := by
  have present : chosen.id ≠ 0 := positive.ne'
  have granted : (board.grant lease chosen.id).tasks = board.tasks.map fun old =>
      if chosen.id ≠ 0 ∧ old.id = chosen.id then { old with status := .leased } else old := setStatus_tasks _ _ _
  unfold finish
  rw [setStatus_tasks]
  show (board.grant lease chosen.id).tasks.map _ = _
  rw [granted, List.map_map]
  refine List.map_congr_left fun old _ => ?_
  by_cases picked : old.id = chosen.id
  · simp [picked, present]
  · simp [picked]

/-- A finished task waits no longer. -/
theorem Board.waiting_finish {chosen : TaskRow} (positive : 0 < chosen.id) (waits : board.Waiting chosen) :
    (board.finish lease chosen now metadata .passed).waiting chosen.projectID < board.waiting chosen.projectID := by
  unfold waiting
  rw [finish_tasks board positive, List.countP_map]
  refine countP_lt_of_mem (fun old counted => ?_) waits.1 ?_ ?_
  · dsimp only [Function.comp_apply] at counted
    split at counted
    · have never := (Bool.and_eq_true_iff.mp counted).2
      cases never
    · exact counted
  · rcases waits.2.1 with queued | recovering
    · simp [queued]
    · simp [recovering]
  · dsimp only [Function.comp_apply]
    rw [if_pos rfl]
    exact Bool.and_false _

/-- This is a run of the worker. -/
def runOf (now : Time) (projectKey workerKey : GoString) : WorkEvent Files :=
  .call now 0 {} projectKey (.runWorkerOnce { workerKey := workerKey })

/-- The project and the worker are there after a step that leaves them. -/
theorem Hired.move {db db' : Database} (hired : Hired record workerKey db) (same : SameStaff db db') :
    Hired record workerKey db' := by
  unfold Hired
  rw [same.1]
  exact hired

theorem SameStaff.getByKey {db db' : Database} (same : SameStaff db db') :
    db'.getByKey projectKey = db.getByKey projectKey := by
  unfold Database.getByKey
  rw [same.2]

/-- A call that ends leaves its postcondition, and it leaves the staff if its command does. -/
theorem call_ends (env : Env Files) (now : Time) (call : Call) {before after : Database → Prop}
    (found : world.db.getByKey projectKey = some record)
    (ends : Ends before (call.command env now 0 {} record) fun _ => after) (holds : before world.db)
    (moves : Moves SameStaff (call.command env now 0 {} record)) :
    after (workStep env world (.call now 0 {} projectKey call)).1.db ∧
      SameStaff world.db (workStep env world (.call now 0 {} projectKey call)).1.db := by
  rw [workStep_known found]
  obtain ⟨_, done⟩ := ends.commit world.files holds
  exact ⟨done, Moves.commit world.files world.db⟩

/-- A task that is passed after a helping event is passed in the end. -/
theorem Finishes.cons {event : WorkEvent Files} (helps : Helps now projectKey workerKey event)
    (finishes : Finishes env now projectKey workerKey (workStep env world event).1 taskID) :
    Finishes env now projectKey workerKey world taskID := by
  obtain ⟨events, later, finished⟩ := finishes
  exact ⟨event :: events, List.forall_mem_cons.mpr ⟨helps, later⟩, finished⟩

/-- A worker that runs once passes the task, or another task and leaves fewer of them. -/
theorem Ready.step (now : Time) (ready : Ready env projectKey workerKey record world task) (named : trimSpace workerKey ≠ [])
    (owned : world.db.board.Owned) :
    (∃ later ∈ (workStep env world (runOf now projectKey workerKey)).1.db.board.tasks,
      later.id = task.id ∧ later.status = .passed) ∨
    Ready env projectKey workerKey record (workStep env world (runOf now projectKey workerKey)).1 task ∧
      (workStep env world (runOf now projectKey workerKey)).1.db.board.waiting record.id <
        world.db.board.waiting record.id := by
  obtain ⟨⟨metadata, chosen, lease, done, waits, ofProject, fresh, shown⟩, staff⟩ :=
    call_ends env now (.runWorkerOnce { workerKey := workerKey }) ready.found
      (ignoring_ends (runWorkerOnce_ends named ready.takes ready.waits ready.project ready.dry)) ⟨rfl, ready.hired⟩
      (by unfold Call.command; infer_instance)
  have after : (workStep env world (runOf now projectKey workerKey)).1.db.board =
      (world.db.board.sweep now record.id 50 metadata).finish lease chosen now done .passed := shown
  have positive : 0 < chosen.id := owned.positive chosen waits.1
  rw [after]
  by_cases same : task.id = chosen.id
  · refine Or.inl ⟨{ task with status := .passed }, ?_, rfl, rfl⟩
    rw [Board.finish_tasks _ positive]
    exact List.mem_map.mpr ⟨task, ready.waits.1, if_pos same⟩
  · refine Or.inr ⟨⟨staff.getByKey.trans ready.found, ready.hired.move staff, ready.project, ?_, ?_, ?_⟩, ?_⟩
    · rw [after, Board.finish_runs]
      exact ready.dry
    · rw [after, Board.finish_tasks _ positive]
      intro later present
      obtain ⟨old, there, rfl⟩ := List.mem_map.mp present
      split <;> exact ready.takes old there
    · rw [after]
      have unmoved := Board.Unmoved.finish fresh same now done .passed
      refine ⟨unmoved.kept ready.waits.1, ready.waits.2.1, Bool.eq_false_iff.mpr fun held => ?_⟩
      have before : world.db.board.held task.id = true := Board.held_of_leases (fun given present active =>
        (Board.mem_of_active (by decide) (Board.mem_of_finish present active) active).1) held
      rw [ready.waits.2.2] at before
      cases before
    · have fewer : ((world.db.board.sweep now record.id 50 metadata).finish lease chosen now done .passed).waiting
          chosen.projectID < (world.db.board.sweep now record.id 50 metadata).waiting chosen.projectID :=
        Board.waiting_finish positive waits
      rw [ofProject] at fewer
      exact fewer

/-- A task that the worker can run is passed after some runs of the worker. -/
theorem Ready.finishes (ready : Ready env projectKey workerKey record world task) (named : trimSpace workerKey ≠ [])
    (owned : world.db.board.Owned) :
    Finishes env now projectKey workerKey world task.id := by
  -- every run of the worker that does not pass the task leaves fewer tasks that wait
  generalize left : world.db.board.waiting record.id = count
  induction count using Nat.strong_induction_on generalizing world with
  | _ count ih =>
      rcases ready.step now named owned with passed | ⟨again, fewer⟩
      · obtain ⟨later, present, same, isPassed⟩ := passed
        obtain ⟨row, stored, rfl⟩ := List.mem_map.mp present
        exact ⟨[runOf now projectKey workerKey], by simp [runOf, Helps], row, stored, same, isPassed⟩
      · have ownedStill : (workStep env world (runOf now projectKey workerKey)).1.db.board.Owned :=
          owned.step world.db.board_named.leases (workStep_board world _)
        have helps : Helps now projectKey workerKey (runOf now projectKey workerKey : WorkEvent Files) :=
          ⟨le_refl now, rfl, rfl⟩
        exact Finishes.cons helps (ih _ (left ▸ fewer) again ownedStill rfl)

/-- Every expired lease is found with a limit that is large enough. -/
theorem Board.mem_expired {projectID : ID} {limit : Int} (known : lease ∈ board.leases)
    (project : lease.projectID = projectID) (active : lease.active = true) (past : lease.expiresAt < now)
    (enough : (board.leases.length : Int) < limit) :
    lease ∈ board.expired now projectID limit := by
  have positive : positiveOr 20 limit = limit := if_neg (by omega)
  unfold expired
  rw [positive, List.take_of_length_le]
  · refine (List.mem_insertionSort _).mpr (List.mem_filter.mpr ⟨known, ?_⟩)
    simp [project, active, past]
  · rw [List.length_insertionSort]
    have bound := List.length_filter_le
      (fun lease : LeaseRow => lease.projectID == projectID && lease.active && decide (lease.expiresAt < now)) board.leases
    omega

/-- A recovery with a large limit makes a held task wait, once all its leases have expired. -/
theorem Board.Owned.recovered_waits (owned : board.Owned) (distinct : (board.tasks.map (·.id)).Nodup) {limit : Int}
    (known : task ∈ board.tasks) (project : task.projectID = record.id) (held : board.held task.id = true)
    (past : ∀ lease ∈ board.leases, lease.taskID = some task.id → lease.active = true → lease.expiresAt < now)
    (enough : (board.leases.length : Int) < limit) :
    ((board.sweep now record.id limit metadata).recoverAll (board.expired now record.id limit)).Waiting
      { task with status := .needsRecovery } := by
  have listed {lease : LeaseRow} (stored : lease ∈ board.leases) (refers : lease.taskID = some task.id)
      (active : lease.active = true) : lease ∈ board.expired now record.id limit := by
    obtain ⟨owner, there, named, same⟩ := owned.owner lease stored active
    have equal : owner = task :=
      List.inj_on_of_nodup_map distinct there known (Option.some.inj (named.symm.trans refers))
    exact mem_expired stored (by rw [← same, equal, project]) active (past lease stored refers active) enough
  refine ⟨?_, Or.inr rfl, Bool.eq_false_iff.mpr fun still => ?_⟩
  · obtain ⟨lease, holds⟩ := held_iff.mp held
    obtain ⟨stored, refers, active⟩ := mem_holders.mp holds
    refine Sound.mem_endAll.mpr ⟨task, known, if_pos ⟨(owned.positive task known).ne', lease, ?_⟩⟩
    exact ⟨listed stored refers active, by rw [refers]; rfl⟩
  · obtain ⟨lease, holds⟩ := held_iff.mp still
    obtain ⟨present, refers, active⟩ := mem_holders.mp holds
    unfold Board.recoverAll at present
    rw [setStatuses_leases] at present
    obtain ⟨stored, spared⟩ := mem_of_active (by decide) present active
    have chosen : ((board.expired now record.id limit).any (·.id == lease.id)) = true :=
      List.any_eq_true.mpr ⟨lease, listed stored refers active, beq_self_eq_true lease.id⟩
    rw [chosen] at spared
    cases spared

theorem Board.recoverAll_runs (board : Board) (leases : List LeaseRow) : (board.recoverAll leases).runs = board.runs :=
  setStatuses_runs board leases .needsRecovery

/-- A held task whose leases have all expired is passed after a recovery and some runs of the worker. -/
theorem finishes_of_held (named : trimSpace workerKey ≠ [])
    (takes : ∀ task ∈ world.db.board.tasks, env.TakesReports record (trimSpace workerKey) task.id)
    (owned : world.db.board.Owned) (found : world.db.getByKey projectKey = some record)
    (hired : Hired record (trimSpace workerKey) world.db) (known : task ∈ world.db.board.tasks)
    (project : task.projectID = record.id) (dry : ∃ run ∈ world.db.board.runs, run.id = task.runID ∧ run.dryRun = true)
    (held : world.db.board.held task.id = true)
    (past : ∀ lease ∈ world.db.board.leases, lease.taskID = some task.id → lease.active = true → lease.expiresAt < now) :
    Finishes env now projectKey workerKey world task.id := by
  obtain ⟨key, trimmed, keyed, unused⟩ := exists_trimmed_not_mem (world.db.commands.map (·.idempotencyKey))
  have fresh : ∀ row ∈ world.db.commands, row.idempotencyKey ≠ key :=
    fun row stored same => unused (same ▸ List.mem_map_of_mem stored)
  let options : RecoverLeasesOptions := { limit := world.db.board.leases.length + 1, idempotencyKey := key }
  have positive : 0 < options.limit := Int.lt_add_one_of_le (Int.natCast_nonneg _)
  obtain ⟨shown, staff⟩ := call_ends env now (.recoverExpiredLeases options) found
    (ignoring_ends (recoverLeases_ends trimmed keyed positive)) ⟨rfl, fresh⟩ (by unfold Call.command; infer_instance)
  have after : (workStep env world (.call now 0 {} projectKey (.recoverExpiredLeases options))).1.db.board =
      (world.db.board.sweep now record.id options.limit options.metadata).recoverAll
        (world.db.board.expired now record.id options.limit) := shown
  have ready : Ready env projectKey workerKey record
      (workStep env world (.call now 0 {} projectKey (.recoverExpiredLeases options))).1
      { task with status := .needsRecovery } := by
    refine ⟨staff.getByKey.trans found, hired.move staff, project, ?_, ?_, ?_⟩
    · rw [after, Board.recoverAll_runs]
      exact dry
    · rw [after]
      intro later present
      obtain ⟨old, there, rfl⟩ := Board.Sound.mem_endAll.mp present
      split <;> exact takes old there
    · rw [after]
      exact owned.recovered_waits world.db.board_named.tasks known project held past (Int.lt_succ _)
  have ownedStill : (workStep env world (.call now 0 {} projectKey (.recoverExpiredLeases options))).1.db.board.Owned :=
    owned.step world.db.board_named.leases (workStep_board world _)
  have helps : Helps now projectKey workerKey
      (.call now 0 {} projectKey (.recoverExpiredLeases options) : WorkEvent Files) := ⟨le_refl now, rfl⟩
  exact Finishes.cons helps (ready.finishes named ownedStill)

/-- A world is reached from empty tables. -/
def Reached (env : Env Files) (world : World Files) : Prop :=
  ∃ files events, Run.final (workStep env) ⟨files, {}⟩ events = world

theorem Reached.owned (reached : Reached env world) : world.db.board.Owned := by
  obtain ⟨files, events, rfl⟩ := reached
  have keeps (world : World Files) (event : WorkEvent Files) (owned : world.db.board.Owned) :
      (workStep env world event).1.db.board.Owned :=
    owned.step world.db.board_named.leases (workStep_board world event)
  have empty : (⟨files, {}⟩ : World Files).db.board.Owned :=
    ⟨fun _ present => absurd present List.not_mem_nil, fun _ present => absurd present List.not_mem_nil⟩
  exact Run.final_invariant keeps empty events

end Finishing

section Installation

/-- A worker leases the task of a preview. -/
def leasedPreview : List (WorkEvent Unit) :=
  [.elsewhere () smallTables, callAt 0 (.registerWorker { workerKey := bytes "w" }),
    callAt 0 (.previewRunner (bytes "v1") {}),
    callAt 0 (.acquireLease { workerKey := bytes "w", runTaskID := 1 })]

/-- The world after the worker leased the task. -/
def leasedWorld : World Unit := Run.final (workStep smallHost) ⟨(), {}⟩ leasedPreview

/-- The world after the worker looked for work when its own lease had expired. -/
def sweptWorld : World Unit :=
  Run.final (workStep smallHost) ⟨(), {}⟩
    (leasedPreview ++ [callAt (seconds 301) (.runWorkerOnce { workerKey := bytes "w" })])

/-- A leased task without a lease is stuck. -/
theorem stuck_of_leased {db : Database} {task : TaskRow} (stored : task ∈ db.tasks.rows) (status : task.status = .leased)
    (free : db.board.held task.id = false) : db.board.Stuck task.bare := by
  refine ⟨List.mem_map_of_mem stored, fun alive => ?_⟩
  rcases alive with queued | recovering | held
  · rw [show task.status = .queued from queued] at status
    cases status
  · rw [show task.status = .needsRecovery from recovering] at status
    cases status
  · rw [show db.board.held task.id = true from held] at free
    cases free

end Installation

end AreaFlow.Project
