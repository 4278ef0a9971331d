import AreaFlow.Proof.Coherence
import AreaFlow.Proof.Evidence

namespace AreaFlow.Project
open Go Tx

/-- A task is over by its status. -/
def TaskStatus.terminal (status : TaskStatus) : Bool := status.succeeded || status == .cancelled

namespace Board

/-- A task keeps its row and gets no new lease. -/
structure Unmoved (task : TaskRow) (before after : Board) : Prop where
  kept : task ∈ before.tasks → task ∈ after.tasks
  old : ∀ lease ∈ after.leases, lease.taskID = some task.id →
    ∃ earlier ∈ before.leases, earlier.id = lease.id ∧ earlier.taskID = lease.taskID

namespace Unmoved

variable {task : TaskRow} {board : Board}

theorem refl (task : TaskRow) (board : Board) : Unmoved task board board :=
  ⟨fun stored => stored, fun lease present _ => ⟨lease, present, rfl, rfl⟩⟩

theorem trans {first second third : Board} (one : Unmoved task first second) (two : Unmoved task second third) :
    Unmoved task first third where
  kept := fun stored => two.kept (one.kept stored)
  old := by
    intro lease present refers
    obtain ⟨between, there, sameID, sameTask⟩ := two.old lease present refers
    obtain ⟨earlier, stored, id, reference⟩ := one.old between there (sameTask.trans refers)
    exact ⟨earlier, stored, id.trans sameID, reference.trans sameTask⟩

theorem addTask (run : RunRow) (other : TaskRow) : Unmoved task board ((board.addRun run).addTask other) :=
  ⟨fun stored => List.mem_append_left _ stored, (refl task board).old⟩

theorem changeRun (runID : ID) (change : RunRow → RunRow) : Unmoved task board (board.changeRun runID change) :=
  ⟨fun stored => stored, (refl task board).old⟩

theorem changeTasks {chosen : TaskRow → Bool} (status : TaskStatus) (spared : chosen task = false) :
    Unmoved task board (board.changeTasks chosen status) where
  kept := fun stored => List.mem_map.mpr ⟨task, stored, by simp [spared]⟩
  old := (refl task board).old

theorem setStatus {taskID : ID} (status : TaskStatus) (other : task.id ≠ taskID) :
    Unmoved task board (board.setStatus taskID status) where
  kept := fun stored => mem_setStatus.mpr ⟨task, stored, by simp [other]⟩
  old := by
    rw [setStatus_leases]
    exact (refl task board).old

/-- A lease keeps its identifier and its task when it is ended. -/
theorem changeLeases (chosen : LeaseRow → Bool) (now : Time) (status : GoString) (metadata : Metadata) :
    Unmoved task board (board.changeLeases chosen (ended now status metadata)) where
  kept := fun stored => stored
  old := by
    intro lease present refers
    obtain ⟨earlier, stored, rfl⟩ := List.mem_map.mp present
    refine ⟨earlier, stored, ?_⟩
    split <;> exact ⟨rfl, rfl⟩

/-- A lease is given for another task. -/
theorem grant {lease : LeaseRow} {taskID : ID} (refers : lease.taskID = some taskID) (other : task.id ≠ taskID) :
    Unmoved task board (board.grant lease taskID) := by
  have added : Unmoved task board (board.addLease lease) := by
    refine ⟨fun stored => stored, fun given present named => ?_⟩
    rcases List.mem_append.mp present with old | new
    · exact ⟨given, old, rfl, rfl⟩
    · rw [List.mem_singleton.mp new, refers] at named
      exact absurd (Option.some.inj named).symm other
  exact added.trans (setStatus .leased other)

theorem finish {lease : LeaseRow} {chosen : TaskRow} (fresh : board.Fresh lease chosen) (other : task.id ≠ chosen.id)
    (now : Time) (metadata : Metadata) (status : TaskStatus) :
    Unmoved task board (board.finish lease chosen now metadata status) := by
  have granted : Unmoved task board (board.grant lease chosen.id) := grant fresh.2.1 other
  exact (granted.trans (changeLeases _ now _ metadata)).trans (setStatus status other)

/-- Leases of other tasks are ended. -/
theorem endAll {leases : List LeaseRow} (now : Time) (leaseStatus : GoString) (metadata : Metadata) (status : TaskStatus)
    (other : ¬ Subject leases task.id) :
    Unmoved task board (board.endAll leases (ended now leaseStatus metadata) status) where
  kept := fun stored => Sound.mem_endAll.mpr ⟨task, stored, if_neg other⟩
  old := by
    unfold Board.endAll
    rw [setStatuses_leases]
    exact (changeLeases _ now leaseStatus metadata).old

theorem sweepIf (sweeps : Bool) (now : Time) (projectID : ID) (metadata : Metadata) :
    Unmoved task board (board.sweepIf sweeps now projectID metadata) := by
  unfold Board.sweepIf
  split
  · exact changeLeases _ now _ metadata
  · exact refl task board

end Unmoved

/-- A task with a listed active lease is held. -/
theorem Subject.held {board : Board} {leases : List LeaseRow} {taskID : ID} (subject : Subject leases taskID)
    (active : ∀ lease ∈ leases, lease ∈ board.leases ∧ lease.active = true) : board.held taskID = true := by
  obtain ⟨present, lease, listed, same⟩ := subject
  exact held_iff.mpr ⟨lease,
    mem_holders.mpr ⟨(active lease listed).1, (orZero_eq present).mp same, (active lease listed).2⟩⟩

/-- On a sound board no active lease belongs to a task that is over. -/
theorem Sound.not_subject {board : Board} (sound : board.Sound) {task : TaskRow} (stored : task ∈ board.tasks)
    (isOver : task.status.terminal = true) {leases : List LeaseRow}
    (active : ∀ lease ∈ leases, lease ∈ board.leases ∧ lease.active = true) : ¬ Subject leases task.id := by
  intro subject
  have leased := sound.leased task stored (subject.held active)
  rw [leased] at isOver
  cases isOver

/-- A task that waits is not over. -/
theorem ne_of_waiting {board : Board} {task chosen : TaskRow} (distinct : (board.tasks.map (·.id)).Nodup)
    (stored : task ∈ board.tasks) (isOver : task.status.terminal = true) (waits : board.Waiting chosen) :
    task.id ≠ chosen.id := by
  intro same
  have equal : task = chosen := List.inj_on_of_nodup_map distinct stored waits.1 same
  rw [equal] at isOver
  rcases waits.2.1 with queued | recovering
  · rw [queued] at isOver
    cases isOver
  · rw [recovering] at isOver
    cases isOver

/-- A step spares the tasks that are over if it neither leases one of them nor releases a lease as active. -/
def Spares (board : Board) : Label → Prop
  | .acquire _ projectID taskID _ =>
      ∀ task ∈ board.tasks, task.projectID = projectID → task.id = taskID → task.status.terminal = false
  | .release _ _ status => status ≠ bytes "active"
  | _ => True

instance (board : Board) : DecidablePred board.Spares
  | .acquire .. => inferInstanceAs (Decidable (∀ task ∈ board.tasks, _))
  | .release _ _ status => inferInstanceAs (Decidable (status ≠ bytes "active"))
  | .other | .recover .. | .runOnce .. | .execute _ | .control .. => instDecidableTrue

theorem Spares.releases {board : Board} {label : Label} (spares : board.Spares label) : Releases label := by
  cases label with
  | release projectID leaseID status => exact spares
  | _ => trivial

/-- A step that spares them leaves the tasks that are over. -/
theorem Unmoved.step {board after : Board} {label : Label} (sound : board.Sound)
    (distinct : (board.tasks.map (·.id)).Nodup) (spares : board.Spares label) (step : BoardStep board label after)
    {task : TaskRow} (stored : task ∈ board.tasks) (isOver : task.status.terminal = true) : Unmoved task board after := by
  cases step with
  | same => exact refl task board
  | added run other runNamed taskNamed belongs waits kind => exact addTask run other
  | acquired now projectID sweeps metadata chosen lease known project positive free fresh =>
      have other : task.id ≠ chosen.id := by
        intro same
        have equal : task = chosen := List.inj_on_of_nodup_map distinct stored known same
        rw [spares task stored (equal ▸ project) same] at isOver
        cases isOver
      exact (sweepIf sweeps now projectID metadata).trans (grant fresh.2.1 other)
  | released projectID status now metadata lease known project active =>
      rw [Sound.endLease_eq]
      refine endAll now status metadata _ (sound.not_subject stored isOver ?_)
      intro other listed
      rw [List.mem_singleton.mp listed]
      exact ⟨known, active⟩
  | recovered now projectID limit metadata =>
      exact endAll now _ metadata .needsRecovery (sound.not_subject stored isOver fun _ listed => expired_active listed)
  | swept now projectID runID metadata => exact changeLeases _ now _ metadata
  | ran now projectID runID metadata done chosen lease waits project asked dry fresh =>
      have swept : Unmoved task board (board.sweep now projectID 50 metadata) := changeLeases _ now _ metadata
      have distinctSwept : ((board.sweep now projectID 50 metadata).tasks.map (·.id)).Nodup := distinct
      have other : task.id ≠ chosen.id := ne_of_waiting distinctSwept (swept.kept stored) isOver waits
      exact swept.trans (finish fresh other now done .passed)
  | executed operation now done chosen lease change waits queued fresh keeps =>
      have other : task.id ≠ chosen.id := ne_of_waiting distinct stored isOver waits
      exact (finish fresh other now done operation.taskDone).trans (changeRun chosen.runID change)
  | controlled run quote now options known allowed =>
      unfold Board.control
      dsimp only
      split
      · exact changeRun run.id _
      · refine (changeRun run.id _).trans (changeTasks _ ?_)
        have moving : task.status.waits = false := by
          cases status : task.status <;> simp_all [TaskStatus.terminal, TaskStatus.succeeded, TaskStatus.waits]
        rw [moving, Bool.and_false]

end Board

/-- Every task that was over has its status still, and every lease of it was there before. -/
def TerminalKept (before after : Database) : Prop := ∀ task ∈ before.tasks.rows, task.status.terminal = true →
  (∃ later ∈ after.tasks.rows, later.id = task.id ∧ later.status = task.status) ∧
    ∀ lease ∈ after.leases.rows, lease.taskID = some task.id → ∃ earlier ∈ before.leases.rows, earlier.id = lease.id

instance (before after : Database) : Decidable (TerminalKept before after) :=
  inferInstanceAs (Decidable (∀ task ∈ before.tasks.rows, _))

section Runs

variable {Files : Type} {env : Env Files}

theorem spared_sound {world : World Files} {event : WorkEvent Files} (sound : world.db.board.Sound)
    (spares : OnEffect env Board.Spares world event) : (workStep env world event).1.db.board.Sound :=
  spares.keeps sound fun spares => sound.step spares.releases (workStep_board world event)

/-- A run that spares them leaves the tasks that are over. -/
theorem unmoved_of_run {world : World Files} {events : List (WorkEvent Files)} (sound : world.db.board.Sound)
    (spares : Run.Along (workStep env) (OnEffect env Board.Spares) world events)
    {task : TaskRow} (stored : task ∈ world.db.board.tasks) (isOver : task.status.terminal = true) :
    Board.Unmoved task world.db.board (Run.final (workStep env) world events).db.board := by
  induction events generalizing world with
  | nil => exact Board.Unmoved.refl task world.db.board
  | cons event rest ih =>
      obtain ⟨first, later⟩ := spares
      have moved : Board.Unmoved task world.db.board (workStep env world event).1.db.board :=
        first.keeps (Board.Unmoved.refl task _) fun spares =>
          Board.Unmoved.step sound world.db.board_named.tasks spares (workStep_board world event) stored isOver
      exact moved.trans (ih (spared_sound sound first) later (moved.kept stored))

/-- In every run in which no effective step leases a task that is over or releases a lease as active, the tasks that are
over at some time keep their status from then on and get no new lease. -/
theorem terminal_tasks_are_final (env : Env Files) (files : Files) (earlier later : List (WorkEvent Files))
    (spares : Run.Along (workStep env) (OnEffect env Board.Spares) ⟨files, {}⟩ (earlier ++ later)) :
    TerminalKept (Run.final (workStep env) ⟨files, {}⟩ earlier).db
      (Run.final (workStep env) ⟨files, {}⟩ (earlier ++ later)).db := by
  obtain ⟨before, after⟩ := Run.Along.append.mp spares
  have keeps (world : World Files) (event : WorkEvent Files) (sound : world.db.board.Sound)
      (spares : OnEffect env Board.Spares world event) : (workStep env world event).1.db.board.Sound :=
    spared_sound sound spares
  have sound := Run.Along.invariant keeps Board.sound_empty before
  rw [Run.final_append]
  intro task stored isOver
  have shown : task.bare ∈ (Run.final (workStep env) ⟨files, {}⟩ earlier).db.board.tasks := List.mem_map_of_mem stored
  have unmoved := unmoved_of_run sound after shown isOver
  refine ⟨?_, ?_⟩
  · obtain ⟨row, present, same⟩ := List.mem_map.mp (unmoved.kept shown)
    have id : row.bare.id = task.bare.id := by rw [same]
    have status : row.bare.status = task.bare.status := by rw [same]
    exact ⟨row, present, id, status⟩
  · intro lease present refers
    obtain ⟨old, there, same, _⟩ := unmoved.old lease present refers
    exact ⟨old, there, same⟩

end Runs

section Installation

/-- A finished dry-run task stays finished while another worker looks for work. -/
theorem finishedPreview_stays :
    (Run.final (workStep smallHost) ⟨(), {}⟩ finishedPreview).db.tasks.rows.map (·.status) = [.passed] ∧
    TerminalKept (Run.final (workStep smallHost) ⟨(), {}⟩ finishedPreview).db
      (Run.final (workStep smallHost) ⟨(), {}⟩ (finishedPreview ++
        [callAt (seconds 301) (.runWorkerOnce { workerKey := bytes "w" })])).db :=
  ⟨by decide +kernel, terminal_tasks_are_final smallHost () finishedPreview _ (by decide +kernel)⟩

/-- A finished task is leased again, and the release of that lease queues it. -/
theorem finishedPreview_leased_again :
    ¬ TerminalKept (Run.final (workStep smallHost) ⟨(), {}⟩ finishedPreview).db
      (Run.final (workStep smallHost) ⟨(), {}⟩ (finishedPreview ++
        [callAt 0 (.acquireLease { workerKey := bytes "w", runTaskID := 1 })])).db ∧
    (Run.final (workStep smallHost) ⟨(), {}⟩ (finishedPreview ++
        [callAt 0 (.acquireLease { workerKey := bytes "w", runTaskID := 1 }),
          callAt 0 (.releaseLease { workerKey := bytes "w", leaseID := 2 })])).db.tasks.rows.map (·.status) =
      [.queued] := by
  decide +kernel

end Installation

end AreaFlow.Project
