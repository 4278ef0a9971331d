import AreaFlow.Library.Run
import AreaFlow.Proof.Frames

namespace AreaFlow.Project
open Go Tx

set_option synthInstance.maxSize 2048

/-- This is a task without its metadata. -/
def TaskRow.bare (task : TaskRow) : TaskRow := { task with metadata := [] }

/-- The board shows the runs, the tasks without their metadata, and the leases. -/
structure Board where
  runs : List RunRow
  tasks : List TaskRow
  leases : List LeaseRow
  deriving DecidableEq

def Database.board (db : Database) : Board := ⟨db.runs.rows, db.tasks.rows.map TaskRow.bare, db.leases.rows⟩

namespace Board

variable (board : Board)

/-- A task has an active lease on the board. -/
def held (taskID : ID) : Bool := board.leases.any fun lease => lease.taskID == some taskID && lease.active

def addRun (run : RunRow) : Board := { board with runs := board.runs ++ [run] }

def addTask (task : TaskRow) : Board := { board with tasks := board.tasks ++ [task] }

def addLease (lease : LeaseRow) : Board := { board with leases := board.leases ++ [lease] }

def changeRun (runID : ID) (change : RunRow → RunRow) : Board :=
  { board with runs := board.runs.map fun run => if run.id == runID then change run else run }

def changeTasks (chosen : TaskRow → Bool) (status : TaskStatus) : Board :=
  { board with tasks := board.tasks.map fun task => if chosen task then { task with status := status } else task }

def changeLeases (chosen : LeaseRow → Bool) (change : LeaseRow → LeaseRow) : Board :=
  { board with leases := board.leases.map fun lease => if chosen lease then change lease else lease }

/-- The status of the absent task is never set. -/
def setStatus (taskID : ID) (status : TaskStatus) : Board :=
  if taskID = 0 then board else board.changeTasks (·.id == taskID) status

/-- These are the active leases of a project whose time is over, up to a limit. -/
def expired (now : Time) (projectID : ID) (limit : Int) : List LeaseRow :=
  ((board.leases.filter fun lease => lease.projectID == projectID && lease.active && decide (lease.expiresAt < now))
    |>.insertionSort fun first second => expiresFirst first second).take (positiveOr 20 limit).toNat

/-- A sweep ends expired leases. -/
def sweep (now : Time) (projectID : ID) (limit : Int) (metadata : Metadata) : Board :=
  board.changeLeases (fun lease => (board.expired now projectID limit).any (·.id == lease.id))
    (ended now (bytes "needs_recovery") metadata)

/-- The tasks of some leases need recovery. -/
def recoverAll (leases : List LeaseRow) : Board :=
  leases.foldl (fun board lease => board.setStatus (orZero lease.taskID) .needsRecovery) board

/-- A lease is ended with a status, and its task gets a status. -/
def endLease (lease : LeaseRow) (now : Time) (leaseStatus : GoString) (metadata : Metadata) (status : TaskStatus) : Board :=
  (board.changeLeases (·.id == lease.id) (ended now leaseStatus metadata)).setStatus (orZero lease.taskID) status

/-- A new lease is given for a task. -/
def grant (lease : LeaseRow) (taskID : ID) : Board := (board.addLease lease).setStatus taskID .leased

end Board

/-- A step leaves the board. -/
def SameBoard (before after : Database) : Prop := after.board = before.board

instance : IsPreorder Database SameBoard where
  refl _ := rfl
  trans _ _ _ first second := second.trans first

/-- The metadata of a task is not on the board. -/
theorem board_taskMetadata (db : Database) (taskID : ID) (additions : Metadata) :
    ({ db with
        tasks := db.tasks.update (·.id == taskID)
          ⟨fun task => { task with metadata := setKeys task.metadata additions }, fun _ => rfl⟩ } : Database).board =
      db.board := by
  have same (task : TaskRow) : (if (task.id == taskID) = true
      then ({ task with metadata := setKeys task.metadata additions } : TaskRow) else task).bare = task.bare := by
    split <;> rfl
  simp only [Database.board, Table.update, List.map_map, Board.mk.injEq, true_and, and_true]
  exact List.map_congr_left fun task _ => same task

instance {Files : Type} {projectID : ID} {commandType idempotencyKey : GoString} :
    Commands Files SameBoard projectID commandType idempotencyKey :=
  .of_ignoring fun _ _ => rfl

instance {Files : Type} : Steps Files SameBoard where
  event _ := Moves.write fun _ => rfl
  audit _ := Moves.write fun _ => rfl
  attempt _ := Moves.write fun _ => rfl
  artifact _ := Moves.write fun _ => rfl
  taskMetadata taskID additions := Moves.write fun db => board_taskMetadata db taskID additions

instance {Files : Type} : Staff Files SameBoard := .of_ignoring fun _ _ _ _ => rfl

section Specs

variable {Files A B : Type} {board : Board} {now : Time} {projectID : ID}

/-- The tables show a board. -/
def Board.Shown (board : Board) (db : Database) : Prop := db.board = board

/-- A step that leaves the board keeps what is shown. -/
theorem shown_of_same {command : Command Files A} [Moves SameBoard command] : Keeps board.Shown command := by
  have carries (before after : Database) (same : SameBoard before after) (shown : board.Shown before) :
      board.Shown after :=
    Eq.trans same shown
  exact Moves.keeps carries

theorem insertRun_shown {new : Table.New RunRow (·.id)} :
    Meets board.Shown (insertRun new : Command Files RunRow) fun run db =>
      run = new.make (freshID (board.runs.map (·.id))) ∧ (board.addRun run).Shown db :=
  Meets.write fun db shown => by
    rw [← shown]
    exact ⟨rfl, rfl⟩

theorem insertRunTask_shown {new : Table.New TaskRow (·.id)} :
    Meets board.Shown (insertRunTask new : Command Files TaskRow) fun task db =>
      task = new.make (freshID (board.tasks.map (·.id))) ∧ (board.addTask task.bare).Shown db := by
  refine Meets.write fun db shown => ?_
  have ids : board.tasks.map (·.id) = db.tasks.rows.map (·.id) := by
    rw [← shown, Database.board, List.map_map]
    rfl
  refine ⟨by rw [ids]; rfl, ?_⟩
  rw [← shown]
  simp [Board.Shown, Database.board, Board.addTask, Table.insert]

theorem insertLease_shown {new : Table.New LeaseRow (·.id)} :
    Meets board.Shown (insertLease new : Command Files LeaseRow) fun lease db =>
      lease = new.make (freshID (board.leases.map (·.id))) ∧ (board.addLease lease).Shown db :=
  Meets.write fun db shown => by
    rw [← shown]
    exact ⟨rfl, rfl⟩

theorem updateRun_shown {runID : ID} {change : Table.Change RunRow (·.id)} :
    Meets board.Shown (updateRun runID change : Command Files Unit) fun _ => (board.changeRun runID change.apply).Shown :=
  Meets.write fun db shown => by
    rw [← shown]
    rfl

theorem updateLeases_shown {chosen : LeaseRow → Bool} {change : Table.Change LeaseRow (·.id)} :
    Meets board.Shown (updateLeases chosen change : Command Files Unit) fun _ =>
      (board.changeLeases chosen change.apply).Shown :=
  Meets.write fun db shown => by
    rw [← shown]
    rfl

/-- A change of statuses is seen on the board if the choice does not look at the metadata. -/
theorem board_setStatus (db : Database) (chosen : TaskRow → Bool) (status : TaskStatus)
    (bare : ∀ task, chosen task.bare = chosen task) :
    ({ db with tasks := db.tasks.update chosen (setStatus status) } : Database).board =
      db.board.changeTasks chosen status := by
  have same (task : TaskRow) : (if chosen task = true then (setStatus status).apply task else task).bare =
      if chosen task.bare = true then { task.bare with status := status } else task.bare := by
    rw [bare]
    split <;> rfl
  simp only [Database.board, Board.changeTasks, Table.update, List.map_map, Board.mk.injEq, true_and, and_true]
  exact List.map_congr_left fun task _ => same task

theorem updateRunTaskStatus_shown {taskID : ID} {status : TaskStatus} :
    Meets board.Shown (updateRunTaskStatus taskID status : Command Files Unit) fun _ =>
      (board.setStatus taskID status).Shown := by
  refine Meets.write fun db shown => ?_
  unfold Board.setStatus
  split
  · exact shown
  · rw [← shown]
    exact board_setStatus db (·.id == taskID) status fun _ => rfl

theorem cancelTasks_shown {runID : ID} {status : TaskStatus} :
    Meets board.Shown (cancelTasks runID status : Command Files Unit) fun _ =>
      (board.changeTasks (fun task => task.runID == runID && task.status.waits) status).Shown := by
  refine Meets.write fun db shown => ?_
  rw [← shown]
  exact board_setStatus db _ status fun _ => rfl

theorem insertLeaseForTask_shown {worker : WorkerRow} {task : TaskRow} {leaseKind : GoString}
    {capabilities : List GoString} {scope metadata : Metadata} {timeoutSeconds : Int} :
    Meets board.Shown
      (insertLeaseForTask now projectID worker task leaseKind capabilities scope metadata timeoutSeconds :
        Command Files LeaseRow)
      fun lease db => board.held task.id = false ∧
        lease = newLease now projectID worker task leaseKind capabilities scope metadata timeoutSeconds
          (freshID (board.leases.map (·.id))) ∧ (board.addLease lease).Shown db := by
  unfold insertLeaseForTask
  have look : Meets board.Shown (Tx.query fun db => hasActiveLease db task.id : Command Files Bool) fun taken db =>
      taken = board.held task.id ∧ board.Shown db :=
    Meets.query fun db shown => ⟨by rw [← shown]; rfl, shown⟩
  refine Meets.bind look fun taken => Meets.assuming fun same => ?_
  split
  · exact Meets.fail
  · rename_i free
    have notHeld : board.held task.id = false := by
      rw [← same]
      exact Bool.eq_false_iff.mpr free
    exact Meets.consequence insertLease_shown (fun _ shown => shown) fun lease db facts => ⟨notHeld, facts⟩

theorem releaseLeaseForWorker_shown {worker : WorkerRow} {leaseID : ID} {status : GoString} {metadata : Metadata} :
    Meets board.Shown (releaseLeaseForWorker now projectID worker leaseID status metadata : Command Files LeaseRow)
      fun released db => ∃ lease ∈ board.leases,
        (lease.projectID = projectID ∧ lease.id = leaseID ∧ lease.workerID = some worker.id ∧ lease.active = true) ∧
        released = ended now status metadata lease ∧
        (board.changeLeases (·.id == lease.id) (ended now status metadata)).Shown db := by
  unfold releaseLeaseForWorker
  refine Meets.bind (?_ : Meets board.Shown _ fun (lease : LeaseRow) db => (lease ∈ board.leases ∧
    (lease.projectID = projectID ∧ lease.id = leaseID ∧ lease.workerID = some worker.id ∧ lease.active = true)) ∧
      board.Shown db) fun lease => Meets.assuming fun facts => ?_
  · refine Meets.check fun db lease shown found => ⟨?_, shown⟩
    cases look : leaseOfWorker db projectID worker.id leaseID with
    | none =>
        rw [look] at found
        cases found
    | some other =>
        rw [look] at found
        cases found
        have stored : lease ∈ db.board.leases := List.mem_of_find?_eq_some look
        have fits := List.find?_some look
        rw [shown] at stored
        simp only [Bool.and_eq_true, beq_iff_eq] at fits
        exact ⟨stored, fits.1.1.1, fits.1.1.2, fits.1.2, fits.2⟩
  · refine Meets.bind updateLeases_shown fun _ => ?_
    exact Meets.pure fun db shown => ⟨lease, facts.1, facts.2, rfl, shown⟩

theorem recoverExpiredLeases_shown {limit : Int} {metadata : Metadata} :
    Meets board.Shown (recoverExpiredLeases now projectID limit metadata : Command Files (List LeaseRow))
      fun leases db => leases = (board.expired now projectID limit).map (ended now (bytes "needs_recovery") metadata) ∧
        (board.sweep now projectID limit metadata).Shown db := by
  unfold recoverExpiredLeases
  have look : Meets board.Shown (Tx.query fun db => expiredLeases db now projectID limit : Command Files (List LeaseRow))
      fun expired db => expired = board.expired now projectID limit ∧ board.Shown db :=
    Meets.query fun db shown => ⟨by rw [← shown]; rfl, shown⟩
  refine Meets.bind look fun expired => Meets.assuming fun same => ?_
  subst same
  refine Meets.bind updateLeases_shown fun _ => ?_
  exact Meets.pure fun db shown => ⟨rfl, shown⟩

end Specs

end AreaFlow.Project
