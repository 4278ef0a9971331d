import AreaFlow.Proof.Board

namespace AreaFlow.Project
open Go Tx

set_option synthInstance.maxSize 2048

/-- This is what a step asks of the board. -/
inductive Label where
  | other
  | acquire (now : Time) (projectID taskID : ID) (sweeps : Bool)
  | release (projectID leaseID : ID) (status : GoString)
  | recover (now : Time) (projectID : ID) (limit : Int)
  | runOnce (now : Time) (projectID runID : ID)
  | execute (operation : Operation)
  | control (runID : ID) (action : GoString)
  deriving DecidableEq

/-- A task waits for a worker and nobody holds it. -/
def Board.Waiting (board : Board) (task : TaskRow) : Prop :=
  task ∈ board.tasks ∧ (task.status = .queued ∨ task.status = .needsRecovery) ∧ board.held task.id = false

/-- A new lease of a task is active and has a new identifier. -/
def Board.Fresh (board : Board) (lease : LeaseRow) (task : TaskRow) : Prop :=
  lease.id = freshID (board.leases.map (·.id)) ∧ lease.taskID = some task.id ∧ lease.projectID = task.projectID ∧
    lease.active = true

/-- This is the board after a lease of a task was given, completed and the task finished. -/
def Board.finish (board : Board) (lease : LeaseRow) (task : TaskRow) (now : Time) (metadata : Metadata)
    (status : TaskStatus) : Board :=
  ((board.grant lease task.id).changeLeases (·.id == lease.id) (ended now (bytes "completed") metadata)).setStatus
    task.id status

/-- This is the board after a sweep that was asked for. -/
def Board.sweepIf (board : Board) (sweeps : Bool) (now : Time) (projectID : ID) (metadata : Metadata) : Board :=
  if sweeps then board.sweep now projectID 50 metadata else board

/-- This is the board after a control action that was allowed. -/
def Board.control (board : Board) (run : RunRow) (now : Time) (status : RunStatus) (options : RunControlOptions) : Board :=
  let changed := board.changeRun run.id (controlledRun now status options)
  match cancelledTaskStatus options.action status with
  | none => changed
  | some taskStatus => changed.changeTasks (fun task => task.runID == run.id && task.status.waits) taskStatus

/-- This is everything that a step can do to the board. -/
inductive BoardStep (board : Board) : Label → Board → Prop where
  | same (label : Label) : BoardStep board label board
  | added (run : RunRow) (task : TaskRow) (runNamed : run.id = freshID (board.runs.map (·.id)))
      (taskNamed : task.id = freshID (board.tasks.map (·.id))) (belongs : task.runID = run.id)
      (waits : task.status = .queued)
      (kind : run.dryRun = false ∧ run.status = .queued ∨ run.dryRun = true ∧ run.status = .passed) :
      BoardStep board .other ((board.addRun run).addTask task)
  | acquired (now : Time) (projectID : ID) (sweeps : Bool) (metadata : Metadata) (task : TaskRow) (lease : LeaseRow)
      (known : task ∈ board.tasks) (project : task.projectID = projectID) (positive : 0 < task.id)
      (free : (board.sweepIf sweeps now projectID metadata).held task.id = false)
      (fresh : (board.sweepIf sweeps now projectID metadata).Fresh lease task) :
      BoardStep board (.acquire now projectID task.id sweeps)
        ((board.sweepIf sweeps now projectID metadata).grant lease task.id)
  | released (projectID : ID) (status : GoString) (now : Time) (metadata : Metadata) (lease : LeaseRow)
      (known : lease ∈ board.leases) (project : lease.projectID = projectID) (active : lease.active = true) :
      BoardStep board (.release projectID lease.id status)
        (board.endLease lease now status metadata (releasedTaskStatus status))
  | recovered (now : Time) (projectID : ID) (limit : Int) (metadata : Metadata) :
      BoardStep board (.recover now projectID limit)
        ((board.sweep now projectID limit metadata).recoverAll (board.expired now projectID limit))
  | swept (now : Time) (projectID runID : ID) (metadata : Metadata) :
      BoardStep board (.runOnce now projectID runID) (board.sweep now projectID 50 metadata)
  | ran (now : Time) (projectID runID : ID) (metadata done : Metadata) (task : TaskRow) (lease : LeaseRow)
      (waits : (board.sweep now projectID 50 metadata).Waiting task) (project : task.projectID = projectID)
      (chosen : runID = 0 ∨ task.runID = runID) (dry : ∃ run ∈ board.runs, run.id = task.runID ∧ run.dryRun = true)
      (fresh : (board.sweep now projectID 50 metadata).Fresh lease task) :
      BoardStep board (.runOnce now projectID runID)
        ((board.sweep now projectID 50 metadata).finish lease task now done .passed)
  | executed (operation : Operation) (now : Time) (done : Metadata) (task : TaskRow) (lease : LeaseRow)
      (change : RunRow → RunRow) (waits : board.Waiting task)
      (queued : ∃ run ∈ board.runs, run.id = task.runID ∧ run.dryRun = false ∧ run.status = .queued)
      (fresh : board.Fresh lease task) (keeps : ∀ run, (change run).id = run.id ∧ (change run).dryRun = run.dryRun) :
      BoardStep board (.execute operation)
        ((board.finish lease task now done operation.taskDone).changeRun task.runID change)
  | controlled (run : RunRow) (quote : GoString → GoString) (now : Time) (options : RunControlOptions)
      (known : run ∈ board.runs) (allowed : (evaluateRunControl quote run options.action).decision = .allowed) :
      BoardStep board (.control run.id options.action)
        (board.control run now (evaluateRunControl quote run options.action).status options)

section Operations

variable {Files A : Type} {env : Env Files} {board : Board} {now : Time} {sequence : Nat} {record : ProjectRow}
  {label : Label} {projectID : ID} {operation : Operation} {scope : Scope}

/-- A command makes a step with a label. -/
def Performs (board : Board) (label : Label) (command : Command Files A) : Prop :=
  Meets board.Shown command fun _ db => BoardStep board label db.board

theorem Performs.nothing {command : Command Files A} [Moves SameBoard command] :
    Performs board label command := by
  refine Meets.consequence shown_of_same (fun _ shown => shown) fun _ db shown => ?_
  rw [show db.board = board from shown]
  exact .same label

/-- A command that was reserved before has no effect on the board. -/
theorem Performs.once {commandType idempotencyKey hash : GoString} {body replay : Command Files A}
    [Moves SameBoard replay] (performs : Performs board label body) :
    Performs board label (once projectID commandType idempotencyKey hash body replay) :=
  once_meets shown_of_same performs Performs.nothing

/-- A step that leaves the board may come before. -/
theorem Performs.after {B : Type} {first : Command Files A} {next : A → Command Files B} [Moves SameBoard first]
    (performs : ∀ answer, Performs board label (next answer)) :
    Performs board label (first >>= next) :=
  Meets.bind shown_of_same performs

theorem Performs.ite {condition : Prop} [Decidable condition] {first second : Command Files A}
    (one : Performs board label first) (other : Performs board label second) :
    Performs board label (if condition then first else second) := by
  split
  · exact one
  · exact other

/-- Steps that leave the board may come after. -/
theorem Performs.then {B : Type} {command : Command Files A} {next : A → Command Files B}
    [∀ answer, Moves SameBoard (next answer)] (performs : Performs board label command) :
    Performs board label (command >>= next) := by
  refine Meets.bind performs fun answer => ?_
  intro files db files' value db' step run
  have same : SameBoard db db' := Moves.moves files db files' value db' run
  rw [show db'.board = db.board from same]
  exact step

/-- A new run with one waiting task is a step. -/
theorem newRun_performs {new : Table.New RunRow (·.id)} {newTask : RunRow → Table.New TaskRow (·.id)}
    {rest : RunRow → TaskRow → Command Files A} [∀ run task, Moves SameBoard (rest run task)]
    (kind : ∀ id, (new.make id).dryRun = false ∧ (new.make id).status = .queued ∨
      (new.make id).dryRun = true ∧ (new.make id).status = .passed)
    (belongs : ∀ run id, ((newTask run).make id).runID = run.id)
    (waits : ∀ run id, ((newTask run).make id).status = .queued) :
    Performs board .other (do
      let run ← insertRun new
      let task ← insertRunTask (newTask run)
      rest run task) := by
  refine Meets.bind insertRun_shown fun run => Meets.assuming fun runMade => ?_
  refine Meets.bind insertRunTask_shown fun task => Meets.assuming fun taskMade => ?_
  refine Meets.consequence shown_of_same (fun _ shown => shown) fun _ db shown => ?_
  rw [show db.board = (board.addRun run).addTask task.bare from shown]
  refine .added run task.bare ?_ ?_ ?_ ?_ ?_
  · rw [runMade]
    exact new.named _
  · rw [taskMade]
    exact (newTask run).named _
  · rw [taskMade]
    exact belongs run _
  · rw [taskMade]
    exact waits run _
  · rw [runMade]
    exact kind _

theorem queueRun_performs {version : VersionRow} {plan : QueuePlan} {options : QueueOptions}
    {extend : RunRow → TaskRow → Command Files Extension} [∀ run task, Moves SameBoard (extend run task)] :
    Performs board .other (queueRun env now record version plan options extend) := by
  unfold queueRun
  refine Performs.once ?_
  exact newRun_performs (fun _ => Or.inl ⟨rfl, rfl⟩) (fun _ _ => rfl) fun _ _ => rfl

theorem Board.sweepIf_tasks (sweeps : Bool) (projectID : ID) (metadata : Metadata) :
    (board.sweepIf sweeps now projectID metadata).tasks = board.tasks := by
  unfold Board.sweepIf
  split <;> rfl

theorem sweepIf_shown {condition : Bool} {metadata : Metadata} :
    Meets board.Shown (Tx.when condition (do
        let _ ← recoverExpiredLeases now projectID 50 metadata
        pure ()) : Command Files Unit) fun _ => (board.sweepIf condition now projectID metadata).Shown := by
  unfold Tx.when Board.sweepIf
  split
  · refine Meets.bind recoverExpiredLeases_shown fun _ => Meets.assuming fun _ => ?_
    exact Meets.pure fun _ shown => shown
  · exact Meets.pure fun _ shown => shown

theorem loadRunTaskForLease_shown {taskID : ID} :
    Meets board.Shown (loadRunTaskForLease projectID taskID : Command Files TaskRow) fun task db =>
      (task.bare ∈ board.tasks ∧ task.projectID = projectID ∧ task.id = taskID ∧ 0 < taskID) ∧ board.Shown db := by
  refine Meets.check fun db task shown found => ⟨?_, shown⟩
  split at found
  · cases found
  · rename_i positive
    split at found
    · cases found
    · rename_i look
      cases found
      have stored : task ∈ db.tasks.rows := List.mem_of_find?_eq_some look
      have fits := List.find?_some look
      simp only [Bool.and_eq_true, beq_iff_eq] at fits
      refine ⟨?_, fits.1, fits.2, not_le.mp positive⟩
      rw [← shown]
      exact List.mem_map_of_mem stored

theorem acquireLease_performs (raw : AcquireLeaseOptions) :
    Performs board (.acquire now record.id raw.runTaskID raw.recoverExpiredBefore) (acquireLease env now record raw) := by
  unfold acquireLease
  refine Performs.once (Performs.after fun worker => ?_)
  dsimp only
  split
  · exact Performs.nothing
  · refine Meets.bind sweepIf_shown fun _ => ?_
    refine Meets.bind loadRunTaskForLease_shown fun task => Meets.assuming fun found => ?_
    refine Meets.bind insertLeaseForTask_shown fun lease => Meets.assuming fun free => Meets.assuming fun made => ?_
    refine Meets.bind updateRunTaskStatus_shown fun _ => ?_
    refine Meets.consequence shown_of_same (fun _ shown => shown) fun _ db shown => ?_
    obtain ⟨known, project, same, positive⟩ := found
    have named : task.bare.id = raw.runTaskID := same
    rw [show db.board = _ from shown, ← named]
    rw [Board.sweepIf_tasks] at known
    refine .acquired now record.id raw.recoverExpiredBefore raw.metadata task.bare lease known project ?_ free ?_
    · rw [named]
      exact positive
    · rw [made]
      exact ⟨rfl, rfl, project.symm, rfl⟩

theorem releaseLease_performs (raw : ReleaseLeaseOptions) :
    Performs board (.release record.id raw.leaseID (textOr (bytes "released") raw.status))
      (releaseLease env now record raw) := by
  unfold releaseLease
  refine Performs.once (Performs.after fun worker => ?_)
  refine Meets.bind releaseLeaseForWorker_shown fun released => ?_
  refine Meets.choosing fun lease => Meets.assuming fun known => Meets.assuming fun facts => ?_
  refine Meets.assuming fun made => ?_
  subst made
  refine Meets.bind updateRunTaskStatus_shown fun _ => ?_
  refine Meets.consequence shown_of_same (fun _ shown => shown) fun _ db shown => ?_
  obtain ⟨project, named, _, active⟩ := facts
  rw [show db.board = _ from shown, show raw.leaseID = lease.id from named.symm]
  exact .released record.id _ now raw.metadata lease known project active

/-- Recovered leases mark their tasks one after another. -/
theorem recoverTasks_shown {reason : GoString} (leases : List LeaseRow) :
    Meets board.Shown (Tx.forEach (recoverTask record reason) leases : Command Files Unit) fun _ =>
      (board.recoverAll leases).Shown := by
  induction leases generalizing board with
  | nil => exact Meets.pure fun _ shown => shown
  | cons first rest ih =>
      unfold Tx.forEach recoverTask
      refine Meets.bind (Meets.bind updateRunTaskStatus_shown fun _ => shown_of_same) fun _ => ?_
      exact ih

/-- An ended lease names the same task. -/
theorem Board.recoverAll_ended (status : GoString) (metadata : Metadata) (leases : List LeaseRow) :
    board.recoverAll (leases.map (ended now status metadata)) = board.recoverAll leases :=
  List.foldl_map

theorem recoverLeases_performs (raw : RecoverLeasesOptions) :
    Performs board (.recover now record.id (positiveOr 20 raw.limit)) (recoverLeases env now sequence record raw) := by
  unfold recoverLeases
  refine Performs.once ?_
  refine Meets.bind recoverExpiredLeases_shown fun leases => Meets.assuming fun same => ?_
  subst same
  refine Meets.bind (recoverTasks_shown _) fun _ => ?_
  refine Meets.consequence shown_of_same (fun _ shown => shown) fun _ db shown => ?_
  rw [show db.board = _ from shown, Board.recoverAll_ended]
  exact .recovered now record.id _ raw.metadata

/-- Two statuses wait for a worker. -/
theorem waits_of_contains {status : TaskStatus} (listed : [TaskStatus.queued, .needsRecovery].contains status = true) :
    status = .queued ∨ status = .needsRecovery := by
  simpa using listed

/-- The next dry-run task is on the board and waits. -/
theorem nextDryRunTaskForLease_shown {runID : ID} :
    Meets board.Shown (Tx.query fun db => nextDryRunTaskForLease db projectID runID : Command Files (Option TaskRow))
      fun next db => (∀ task, next = some task →
        board.Waiting task.bare ∧ task.projectID = projectID ∧ (runID = 0 ∨ task.runID = runID) ∧
          ∃ run ∈ board.runs, run.id = task.runID ∧ run.dryRun = true) ∧ board.Shown db := by
  refine Meets.query fun db shown => ⟨fun task next => ?_, shown⟩
  obtain ⟨stored, fits⟩ := nextDryRunTaskForLease_waits next
  unfold waitingDryRunTask at fits
  simp only [Bool.and_eq_true, Bool.or_eq_true, beq_iff_eq, List.any_eq_true, Bool.not_eq_true'] at fits
  obtain ⟨⟨⟨⟨project, chosen⟩, run, known, named, dry⟩, status⟩, free⟩ := fits
  subst shown
  exact ⟨⟨List.mem_map_of_mem stored, waits_of_contains status, free⟩, project, chosen, run, known, named, dry⟩

/-- A lease with a known identifier is completed. -/
theorem completeLease_shown {leaseID : ID} {worker : WorkerRow} {status : GoString} {metadata : Metadata} :
    Meets board.Shown (releaseLeaseForWorker now projectID worker leaseID status metadata : Command Files LeaseRow)
      fun _ => (board.changeLeases (·.id == leaseID) (ended now status metadata)).Shown := by
  refine Meets.consequence releaseLeaseForWorker_shown (fun _ shown => shown) fun released db found => ?_
  obtain ⟨lease, known, facts, made, shown⟩ := found
  rw [← facts.2.1]
  exact shown

/-- A worker that runs a waiting task leases it, completes the lease and marks the task. -/
theorem runTaskOnce_shown {worker : WorkerRow} {task : TaskRow} {options : WorkerRunOnceOptions}
    (project : task.projectID = record.id) :
    Meets board.Shown (runTaskOnce env now record worker task options) fun _ db =>
      ∃ lease done, board.Fresh lease task.bare ∧ (board.finish lease task.bare now done .passed).Shown db := by
  unfold runTaskOnce
  refine Meets.bind insertLeaseForTask_shown fun lease => Meets.assuming fun free => Meets.assuming fun made => ?_
  have fresh : board.Fresh lease task.bare := by
    rw [made]
    exact ⟨rfl, rfl, project.symm, rfl⟩
  refine Meets.bind updateRunTaskStatus_shown fun _ => ?_
  refine Meets.bind shown_of_same fun report => ?_
  refine Meets.bind shown_of_same fun attempt => ?_
  refine Meets.bind completeLease_shown fun released => ?_
  refine Meets.bind updateRunTaskStatus_shown fun _ => ?_
  exact Meets.consequence shown_of_same (fun _ shown => shown) fun _ db shown => ⟨lease, _, fresh, shown⟩

theorem runWorkerOnce_performs (raw : WorkerRunOnceOptions) :
    Performs board (.runOnce now record.id (normalizeWorkerRunOnceOptions raw).runID)
      (runWorkerOnce env now record raw) := by
  unfold runWorkerOnce
  refine Performs.after fun worker => ?_
  dsimp only
  split
  · exact Performs.nothing
  · refine Meets.bind recoverExpiredLeases_shown fun leases => Meets.assuming fun same => ?_
    refine Meets.bind nextDryRunTaskForLease_shown fun next => Meets.assuming fun found => ?_
    cases next with
    | none =>
        refine Meets.consequence shown_of_same (fun _ shown => shown) fun _ db shown => ?_
        rw [show db.board = _ from shown]
        exact .swept now record.id _ _
    | some task =>
        obtain ⟨waits, project, chosen, dry⟩ := found task rfl
        refine Meets.bind (runTaskOnce_shown project) fun result => Meets.pure fun db stored => ?_
        obtain ⟨lease, done, fresh, shown⟩ := stored
        rw [show db.board = _ from shown]
        exact .ran now record.id _ _ done task.bare lease waits project chosen dry fresh

/-- An admitted task is on the board and waits in a queued run. -/
theorem admitTask_shown :
    Meets board.Shown (Tx.query fun db => admitTask env.codec operation scope db : Command Files (Except Denial TaskRow))
      fun admitted db => (∀ task, admitted = .ok task →
        board.Waiting task.bare ∧ task.projectID = scope.record.id ∧ task.runID = scope.run.id ∧
          ∃ run ∈ board.runs, run.id = task.runID ∧ run.dryRun = false ∧ run.status = .queued) ∧ board.Shown db := by
  refine Meets.query fun db shown => ⟨fun task admitted => ?_, shown⟩
  obtain ⟨stored, fits⟩ := admitTask_waits admitted
  unfold waitingTask at fits
  simp only [Bool.and_eq_true, beq_iff_eq, List.any_eq_true, Bool.not_eq_true'] at fits
  obtain ⟨⟨⟨⟨⟨project, chosen⟩, run, known, ⟨⟨named, real⟩, kind⟩, queued⟩, sort⟩, status⟩, free⟩ := fits
  subst shown
  exact ⟨⟨List.mem_map_of_mem stored, waits_of_contains status, free⟩, project, chosen, run, known, named, real, queued⟩

/-- A run is changed after one of its tasks; it stays the same kind of run. -/
theorem updateRunAfterTask_shown {done : Done} :
    Meets board.Shown (updateRunAfterTask now operation scope done : Command Files RunRow) fun _ db =>
      ∃ change : RunRow → RunRow, (∀ run, (change run).id = run.id ∧ (change run).dryRun = run.dryRun) ∧
        (board.changeRun scope.run.id change).Shown db := by
  unfold updateRunAfterTask
  refine Meets.bind shown_of_same fun finished => Meets.bind shown_of_same fun remaining => ?_
  refine Meets.bind updateRun_shown fun _ => Meets.pure fun db shown => ?_
  exact ⟨runAfterTask now operation scope finished remaining done, fun run => ⟨rfl, rfl⟩, shown⟩

/-- An operation on a waiting task of its run is a step. -/
theorem applyToTask_performs {task : TaskRow} {target : Metadata} {perform : LeaseRow → Command Files Done}
    [∀ lease, Moves SameBoard (perform lease)] (waits : board.Waiting task.bare)
    (project : task.projectID = scope.record.id) (ofRun : task.runID = scope.run.id)
    (queued : ∃ run ∈ board.runs, run.id = task.runID ∧ run.dryRun = false ∧ run.status = .queued) :
    Performs board (.execute operation) (applyToTask now operation scope task target perform) := by
  unfold applyToTask
  refine Meets.bind insertLeaseForTask_shown fun lease => Meets.assuming fun free => Meets.assuming fun made => ?_
  have fresh : board.Fresh lease task.bare := by
    rw [made]
    exact ⟨rfl, rfl, project.symm, rfl⟩
  refine Meets.bind updateRunTaskStatus_shown fun _ => ?_
  refine Meets.bind shown_of_same fun done => ?_
  refine Meets.bind completeLease_shown fun released => ?_
  refine Meets.bind updateRunTaskStatus_shown fun _ => ?_
  refine Meets.bind updateRunAfterTask_shown fun run => Meets.choosing fun change => Meets.assuming fun keeps => ?_
  refine Meets.consequence shown_of_same (fun _ shown => shown) fun _ db shown => ?_
  rw [show db.board = _ from shown, show scope.run.id = task.bare.runID from ofRun.symm]
  exact .executed operation now _ task.bare lease change waits queued fresh keeps

/-- An operation is a step if its work on an admitted task is one. -/
theorem execute_performs {seen : Database} {raw : ExecutionOptions}
    {perform : Scope → TaskRow → Command Files (Answer ExecutionResult)}
    (performs : ∀ scope task, board.Waiting task.bare → task.projectID = scope.record.id → task.runID = scope.run.id →
      (∃ run ∈ board.runs, run.id = task.runID ∧ run.dryRun = false ∧ run.status = .queued) →
      Performs board (.execute operation) (perform scope task)) :
    Performs board (.execute operation) (execute env operation seen record raw perform) := by
  unfold execute
  dsimp only
  split
  · exact Performs.nothing
  · refine Performs.after fun gate => Performs.after fun run => ?_
    split
    · exact Performs.nothing
    · refine Performs.after fun version => Performs.after fun worker => Performs.once ?_
      refine Meets.bind admitTask_shown fun admitted => Meets.assuming fun found => ?_
      cases admitted with
      | error denial => exact Performs.nothing
      | ok task =>
          obtain ⟨waits, project, ofRun, queued⟩ := found task rfl
          exact performs _ task waits project ofRun queued

theorem writeFileOf_performs (operation : Operation) (seen : Database) (raw : ExecutionOptions) :
    Performs board (.execute operation) (writeFileOf env now operation seen record raw) := by
  refine execute_performs fun scope task waits project ofRun queued => Performs.after fun checked => ?_
  cases checked with
  | error denial => exact Performs.nothing
  | ok change => exact applyToTask_performs waits project ofRun queued

theorem updateRunControlStatus_shown {run : RunRow} {status : RunStatus} {options : RunControlOptions} :
    Meets board.Shown (updateRunControlStatus now run status options : Command Files RunRow) fun _ =>
      (board.control run now status options).Shown := by
  unfold updateRunControlStatus
  refine Meets.bind updateRun_shown fun _ => ?_
  unfold Board.control
  cases cancelledTaskStatus options.action status with
  | none => exact Meets.pure fun _ shown => shown
  | some taskStatus => exact Meets.bind cancelTasks_shown fun _ => Meets.pure fun _ shown => shown

theorem loadRunForUpdate_shown {runID : ID} :
    Meets board.Shown (loadRunForUpdate runID : Command Files RunRow) fun run db =>
      (run ∈ board.runs ∧ run.id = runID) ∧ board.Shown db := by
  refine Meets.check fun db run shown found => ⟨?_, shown⟩
  subst shown
  split at found
  · cases found
  · rename_i look
    cases found
    have named := List.find?_some look
    exact ⟨List.mem_of_find?_eq_some look, beq_iff_eq.mp named⟩

theorem applyRunControl_performs {run : RunRow} {options : RunControlOptions} {action : GoString}
    (known : run ∈ board.runs) (same : options.action = action) :
    Performs board (.control run.id action) (applyRunControl env now record run options) := by
  subst same
  unfold applyRunControl
  dsimp only
  cases ruled : (evaluateRunControl env.quote run options.action).decision with
  | denied => exact Performs.nothing
  | allowed =>
      refine Meets.bind updateRunControlStatus_shown fun updated => ?_
      refine Meets.consequence shown_of_same (fun _ shown => shown) fun _ db shown => ?_
      rw [show db.board = _ from shown]
      exact .controlled run env.quote now options known ruled

theorem controlRun_performs (runID : ID) (raw : RunControlOptions) :
    Performs board (.control runID (normalizeRunControlOptions raw).action) (controlRun env now runID raw) := by
  unfold controlRun
  dsimp only
  split
  · exact Performs.nothing
  · refine Meets.bind loadRunForUpdate_shown fun run => Meets.assuming fun known => ?_
    rw [← known.2]
    exact Performs.after fun record => Performs.once (applyRunControl_performs known.1 rfl)

end Operations

section Steps

variable {Files : Type} {env : Env Files}

/-- This is what a call asks of the board. -/
def Call.label (now : Time) (projectID : ID) : Call → Label
  | acquireLease options => .acquire now projectID options.runTaskID options.recoverExpiredBefore
  | releaseLease options => .release projectID options.leaseID (textOr (bytes "released") options.status)
  | recoverExpiredLeases options => .recover now projectID (positiveOr 20 options.limit)
  | runWorkerOnce options => .runOnce now projectID (normalizeWorkerRunOnceOptions options).runID
  | executeFixture _ => .execute .fixtureExecution
  | verifyReadOnly _ => .execute .readOnlyVerify
  | writeApprovedArtifact _ => .execute .approvedArtifactWrite
  | writeFixtureProject _ => .execute .fixtureProjectWrite
  | writeManagedGenerated _ => .execute .managedGeneratedWrite
  | _ => .other

/-- This is what an event asks of the board; a call for an unknown project asks nothing. -/
def WorkEvent.label (world : World Files) : WorkEvent Files → Label
  | .call now _ _ projectKey asked =>
      match world.db.getByKey projectKey with
      | none => .other
      | some record => asked.label now record.id
  | .control _ runID options => .control runID (normalizeRunControlOptions options).action
  | .elsewhere _ _ => .other

theorem Call.performs {board : Board} (call : Call) (now : Time) (sequence : Nat) (seen : Database) (record : ProjectRow) :
    Performs board (call.label now record.id) (call.command env now sequence seen record) := by
  cases call with
  | registerWorker options => exact Performs.then (Performs.once Performs.nothing)
  | recordWorkerHeartbeat workerKey options =>
      exact Performs.then (Performs.ite Performs.nothing (Performs.once Performs.nothing))
  | acquireLease options => exact (acquireLease_performs options).then
  | releaseLease options => exact (releaseLease_performs options).then
  | recoverExpiredLeases options => exact (recoverLeases_performs options).then
  | previewRunner label options =>
      refine Performs.then (Performs.after fun version => Performs.ite Performs.nothing (Performs.once (Performs.then ?_)))
      exact newRun_performs (fun _ => Or.inr ⟨rfl, rfl⟩) (fun _ _ => rfl) fun _ _ => rfl
  | runWorkerOnce options => exact (runWorkerOnce_performs options).then
  | queueFixtureExecution label options | queueApprovedArtifactWrite label artifactLabel options =>
      exact Performs.then (Performs.after fun version => queueRun_performs)
  | queueReadOnlyVerify label targetPath options =>
      exact Performs.then (Performs.after fun version => Performs.ite Performs.nothing queueRun_performs)
  | queueFixtureProjectWrite label request options =>
      refine Performs.then (Performs.after fun version => Performs.ite Performs.nothing (Performs.ite Performs.nothing ?_))
      exact Performs.ite Performs.nothing queueRun_performs
  | queueManagedGeneratedWrite label request options =>
      refine Performs.then (Performs.after fun version => Performs.ite Performs.nothing (Performs.ite Performs.nothing ?_))
      exact Performs.ite Performs.nothing (Performs.ite Performs.nothing queueRun_performs)
  | executeFixture options | writeApprovedArtifact options =>
      refine Performs.then (execute_performs fun _ _ waits project ofRun queued => ?_)
      exact applyToTask_performs waits project ofRun queued
  | verifyReadOnly options =>
      refine Performs.then (execute_performs fun _ _ waits project ofRun queued => Performs.after fun checked => ?_)
      cases checked with
      | error denial => exact Performs.nothing
      | ok fullPath => exact applyToTask_performs waits project ofRun queued
  | writeFixtureProject options => exact (writeFileOf_performs .fixtureProjectWrite seen options).then
  | writeManagedGenerated options => exact (writeFileOf_performs .managedGeneratedWrite seen options).then

/-- A committed or rolled back command makes its step. -/
theorem Performs.commit {A : Type} {label : Label} {world : World Files} {command : Command Files A}
    (performs : Performs world.db.board label command) :
    BoardStep world.db.board label (world.apply command).db.board := by
  unfold World.apply Tx.commit
  split
  · exact .same label
  · rename_i files answer db ran
    exact performs world.files world.db files answer db rfl ran

/-- Every step of the system is a step of the board. -/
theorem workStep_board (world : World Files) (event : WorkEvent Files) :
    BoardStep world.db.board (event.label world) (workStep env world event).1.db.board := by
  cases event with
  | call now sequence seen projectKey call =>
      unfold WorkEvent.label
      dsimp only
      cases found : world.db.getByKey projectKey with
      | none =>
          rw [workStep_unknown found]
          exact .same _
      | some record =>
          have performs : Performs world.db.board _ (call.command env now sequence seen record) :=
            call.performs now sequence seen record
          rw [workStep_known found]
          exact performs.commit
  | control now runID options =>
      have performs : Performs world.db.board _ (controlRun env now runID options) := controlRun_performs runID options
      exact performs.commit
  | elsewhere files after => exact .same _

variable (env) in
/-- A step meets a condition if it changes the board. A call that is refused, fails or is repeated does not change it. -/
def OnEffect (condition : Board → Label → Prop) (world : World Files) (event : WorkEvent Files) : Prop :=
  (workStep env world event).1.db.board ≠ world.db.board → condition world.db.board (event.label world)

instance {condition : Board → Label → Prop} [∀ board, DecidablePred (condition board)] (world : World Files)
    (event : WorkEvent Files) : Decidable (OnEffect env condition world event) :=
  inferInstanceAs (Decidable (_ → _))

/-- A step keeps what a step that changes the board keeps. -/
theorem OnEffect.keeps {condition : Board → Label → Prop} {world : World Files} {event : WorkEvent Files}
    {invariant : Board → Prop} (meets : OnEffect env condition world event) (holds : invariant world.db.board)
    (step : condition world.db.board (event.label world) → invariant (workStep env world event).1.db.board) :
    invariant (workStep env world event).1.db.board := by
  by_cases same : (workStep env world event).1.db.board = world.db.board
  · rw [same]
    exact holds
  · exact step (meets same)

end Steps

end AreaFlow.Project
