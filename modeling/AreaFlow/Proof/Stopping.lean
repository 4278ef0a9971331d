import AreaFlow.Proof.Coherence
import AreaFlow.Proof.Records

namespace AreaFlow.Project

open Go Tx

variable {action : GoString}

/-- A run was cancelled or drained, or it is about to be. -/
def RunStatus.stopped : RunStatus → Bool
  | cancelled | cancelling | draining | drained => true
  | _ => false

/-- Every move of a run is a start from the queue or a stop. -/
theorem runTransition_moves {quote : GoString → GoString} {status next : RunStatus} {message : GoString}
    (moves : runTransition quote status action = .moves next message) :
    (action = bytes "start" ∧ status = .queued) ∨ next.stopped = true := by
  unfold runTransition at moves
  dsimp only at moves
  split at moves
  · rename_i start
    cases status <;> cases moves
    exact Or.inl ⟨start, rfl⟩
  split at moves
  · cases status <;> cases moves
    exact Or.inr rfl
  split at moves
  · cases status <;> cases moves <;> exact Or.inr rfl
  · cases moves

/-- A cancel or drain that is already in effect finds a stopped run. -/
theorem runTransition_already {quote : GoString → GoString} {status : RunStatus} {message : GoString}
    (stops : action = bytes "cancel" ∨ action = bytes "drain")
    (already : runTransition quote status action = .already message) : status.stopped = true := by
  have other : action ≠ bytes "start" := by
    rcases stops with rfl | rfl
    · decide
    · decide
  unfold runTransition at already
  dsimp only at already
  rw [if_neg other] at already
  split at already
  · cases status <;> cases already <;> rfl
  split at already
  · cases status <;> cases already <;> rfl
  · cases already

section Allowed

variable {quote : GoString → GoString} {run : RunRow}
  (allowed : (evaluateRunControl quote run action).decision = .allowed)

include allowed

/-- An allowed action was already in effect or moves the run. -/
theorem evaluateRunControl_allowed :
    (∃ message, runTransition quote run.status action = .already message ∧
      (evaluateRunControl quote run action).status = run.status) ∨
    ∃ next message, runTransition quote run.status action = .moves next message ∧
      (evaluateRunControl quote run action).status = next := by
  unfold evaluateRunControl at allowed ⊢
  cases transition : runTransition quote run.status action with
  | already message => exact Or.inl ⟨message, rfl, rfl⟩
  | moves next message =>
      rw [transition] at allowed
      dsimp only at allowed ⊢
      split at allowed
      · rename_i dry
        rw [if_pos dry]
        exact Or.inr ⟨next, message, rfl, rfl⟩
      · cases allowed
  | blocked blocker =>
      rw [transition] at allowed
      cases allowed

/-- An allowed action leaves a stopped run stopped. -/
theorem evaluateRunControl_stopped (stopped : run.status.stopped = true) :
    (evaluateRunControl quote run action).status.stopped = true := by
  rcases evaluateRunControl_allowed allowed with ⟨message, already, same⟩ | ⟨next, message, moves, same⟩
  · rw [same]
    exact stopped
  · rw [same]
    rcases runTransition_moves moves with ⟨_, queued⟩ | stops
    · rw [queued] at stopped
      cases stopped
    · exact stops

/-- An allowed cancel or drain stops the run. -/
theorem evaluateRunControl_stops (stops : action = bytes "cancel" ∨ action = bytes "drain") :
    (evaluateRunControl quote run action).status.stopped = true := by
  rcases evaluateRunControl_allowed allowed with ⟨message, already, same⟩ | ⟨next, message, moves, same⟩
  · rw [same]
    exact runTransition_already stops already
  · rw [same]
    rcases runTransition_moves moves with ⟨start, _⟩ | isStopped
    · rw [start] at stops
      exact absurd stops (by decide)
    · exact isStopped

end Allowed

namespace Board

variable {board after before : Board} {runID : ID} {label : Label} {later : TaskRow} {lease : LeaseRow} {now : Time}
  {metadata : Metadata}

/-- The run is on the board and it is stopped. -/
def Stopped (board : Board) (runID : ID) : Prop := ∃ run ∈ board.runs, run.id = runID ∧ run.status.stopped = true

/-- A change of other runs leaves a run. -/
theorem mem_changeRun {run : RunRow} {change : RunRow → RunRow} (stored : run ∈ board.runs) (other : run.id ≠ runID) :
    run ∈ (board.changeRun runID change).runs :=
  List.mem_map.mpr ⟨run, stored, by simp [other]⟩

theorem control_runs (board : Board) (run : RunRow) (now : Time) (status : RunStatus) (options : RunControlOptions) :
    (board.control run now status options).runs = (board.changeRun run.id (controlledRun now status options)).runs := by
  unfold control
  dsimp only
  split <;> rfl

/-- A stopped run stays stopped. -/
theorem Stopped.step (distinct : (board.runs.map (·.id)).Nodup) (stopped : board.Stopped runID)
    (step : BoardStep board label after) : after.Stopped runID := by
  obtain ⟨run, stored, named, isStopped⟩ := stopped
  have kept {after : Board} (same : after.runs = board.runs) : after.Stopped runID :=
    ⟨run, same ▸ stored, named, isStopped⟩
  cases step with
  | same => exact kept rfl
  | added new task runNamed taskNamed belongs waits kind =>
      exact ⟨run, List.mem_append_left _ stored, named, isStopped⟩
  | acquired now projectID sweeps metadata task lease known project positive free fresh =>
      exact kept (by rw [grant_runs, sweepIf_runs])
  | released projectID status now metadata lease known project active => exact kept (setStatus_runs _ _ _)
  | recovered now projectID limit metadata => exact kept (setStatuses_runs _ _ _)
  | swept now projectID runID metadata => exact kept rfl
  | ran now projectID runID metadata done task lease waits project chosen dry fresh => exact kept (finish_runs _ _ _ _ _ _)
  | executed operation now done task lease change waits queued fresh keeps =>
      obtain ⟨other, known, sameRun, _, isQueued⟩ := queued
      have elsewhere : run.id ≠ task.runID := by
        intro same
        have equal : run = other := List.inj_on_of_nodup_map distinct stored known (same.trans sameRun.symm)
        rw [equal, isQueued] at isStopped
        cases isStopped
      refine ⟨run, mem_changeRun ?_ elsewhere, named, isStopped⟩
      rw [finish_runs]
      exact stored
  | controlled other quote now options known allowed =>
      unfold Stopped
      rw [control_runs]
      by_cases same : run.id = other.id
      · have equal : run = other := List.inj_on_of_nodup_map distinct stored known same
        subst equal
        refine ⟨_, List.mem_map_of_mem stored, ?_⟩
        rw [if_pos (beq_self_eq_true _)]
        exact ⟨named, evaluateRunControl_stopped allowed isStopped⟩
      · exact ⟨run, mem_changeRun stored same, named, isStopped⟩

/-- A reference names a task of a run. -/
def OfRun (board : Board) (runID : ID) (reference : Option ID) : Prop :=
  ∃ task ∈ board.tasks, task.runID = runID ∧ reference = some task.id

instance (board : Board) (runID : ID) (reference : Option ID) : Decidable (board.OfRun runID reference) :=
  inferInstanceAs (Decidable (∃ task ∈ board.tasks, _))

/-- These are the statuses of a task that is on its way. -/
def started : List TaskStatus := [.queued, .leased, .passed]

/-- A step leaves a run in peace: it gives none of its tasks a lease, it runs none of its waiting tasks, and it releases
the leases of its tasks as completed only. -/
def Leaves (board : Board) (runID : ID) : Label → Prop
  | .acquire _ projectID taskID _ =>
      ∀ task ∈ board.tasks, task.projectID = projectID → task.id = taskID → task.runID ≠ runID
  | .release projectID leaseID status => ∀ lease ∈ board.leases, lease.projectID = projectID → lease.id = leaseID →
      lease.active = true → (∃ task ∈ board.tasks, task.runID = runID ∧ lease.taskID = some task.id) →
        status = bytes "completed"
  | .runOnce _ projectID named => ∀ task ∈ board.tasks, task.runID = runID → task.projectID = projectID →
      (named = 0 ∨ named = runID) → task.status ≠ .queued ∧ task.status ≠ .needsRecovery
  | _ => True

instance (board : Board) (runID : ID) (label : Label) : Decidable (board.Leaves runID label) := by
  unfold Leaves
  split <;> infer_instance

/-- Only the leases that were active at some time hold tasks of a run, and a task of the run gets under way by the
completion of one of them only. -/
@[mk_iff]
structure Respects (runID : ID) (held : List LeaseRow) (before : Board) (label : Label) (after : Board) : Prop where
  leases : ∀ lease ∈ after.leases, lease.active = true → after.OfRun runID lease.taskID → lease ∈ held
  statuses : ∀ later ∈ after.tasks, later.runID = runID → later.status ∈ started →
    (∃ task ∈ before.tasks, task.id = later.id ∧ task.status = later.status) ∨
      ∃ lease ∈ held, lease ∈ before.leases ∧ lease.taskID = some later.id ∧
        label = .release lease.projectID lease.id (bytes "completed")

instance (runID : ID) (held : List LeaseRow) (before : Board) (label : Label) (after : Board) :
    Decidable (Respects runID held before label after) :=
  decidable_of_iff _ (respects_iff runID held before label after).symm

/-- A step traces the tasks and the active leases of a run back to those before it. -/
structure Traced (runID : ID) (before : Board) (label : Label) (after : Board) : Prop where
  task : ∀ later ∈ after.tasks, later.runID = runID → ∃ task ∈ before.tasks, task.id = later.id ∧ task.runID = runID ∧
    (later.status ∈ started → task.status = later.status ∨
      ∃ lease ∈ before.leases, lease.active = true ∧ lease.taskID = some later.id ∧
        label = .release lease.projectID lease.id (bytes "completed"))
  lease : ∀ lease ∈ after.leases, lease.active = true → after.OfRun runID lease.taskID → lease ∈ before.leases

theorem Traced.ofRun (traced : Traced runID before label after) {reference : Option ID}
    (named : after.OfRun runID reference) : before.OfRun runID reference := by
  obtain ⟨later, present, ofRun, refers⟩ := named
  obtain ⟨task, stored, same, kept, _⟩ := traced.task later present ofRun
  exact ⟨task, stored, kept, same ▸ refers⟩

/-- A traced step respects the run. -/
theorem Traced.respects {held : List LeaseRow} (traced : Traced runID before label after)
    (only : ∀ lease ∈ before.leases, lease.active = true → before.OfRun runID lease.taskID → lease ∈ held) :
    Respects runID held before label after where
  leases := fun lease present active named =>
    only lease (traced.lease lease present active named) active (traced.ofRun named)
  statuses := by
    intro later present ofRun moving
    obtain ⟨task, stored, same, kept, origin⟩ := traced.task later present ofRun
    rcases origin moving with status | ⟨lease, known, active, refers, release⟩
    · exact Or.inl ⟨task, stored, same, status⟩
    · exact Or.inr ⟨lease, only lease known active ⟨task, stored, kept, same ▸ refers⟩, known, refers, release⟩

/-- The tasks of a run keep their rows when the status of another task is set. -/
theorem mem_of_setStatus {taskID : ID} {status : TaskStatus}
    (other : ∀ task ∈ board.tasks, task.runID = runID → taskID ≠ 0 → task.id ≠ taskID)
    (present : later ∈ (board.setStatus taskID status).tasks) (ofRun : later.runID = runID) : later ∈ board.tasks := by
  obtain ⟨old, stored, rfl⟩ := mem_setStatus.mp present
  split at ofRun
  · rename_i picked
    exact absurd picked.2 (other old stored ofRun picked.1)
  · rename_i passed
    rw [if_neg passed]
    exact stored

/-- The tasks of a run keep their rows or leave their way. -/
theorem Traced.of_rows (rows : ∀ later ∈ after.tasks, later.runID = runID → later ∈ before.tasks ∨
      later.status ∉ started ∧ ∃ task ∈ before.tasks, task.id = later.id ∧ task.runID = runID)
    (leases : ∀ lease ∈ after.leases, lease.active = true → after.OfRun runID lease.taskID → lease ∈ before.leases) :
    Traced runID before label after where
  task := by
    intro later present ofRun
    rcases rows later present ofRun with same | ⟨still, task, stored, id, kept⟩
    · exact ⟨later, same, rfl, ofRun, fun _ => Or.inl rfl⟩
    · exact ⟨task, stored, id, kept, fun moving => absurd moving still⟩
  lease := leases

/-- The tasks of a run keep their rows when a task of another run is leased. -/
theorem row_of_grant {task : TaskRow} (other : ∀ old ∈ board.tasks, old.runID = runID → old.id ≠ task.id)
    (present : later ∈ (board.grant lease task.id).tasks) (ofRun : later.runID = runID) : later ∈ board.tasks := by
  have row : later ∈ (board.addLease lease).tasks :=
    mem_of_setStatus (fun old stored kept _ => other old stored kept) present ofRun
  exact row

/-- The tasks of a run keep their rows when a task of another run is finished. -/
theorem row_of_finish {task : TaskRow} {status : TaskStatus}
    (other : ∀ old ∈ board.tasks, old.runID = runID → old.id ≠ task.id)
    (present : later ∈ (board.finish lease task now metadata status).tasks) (ofRun : later.runID = runID) :
    later ∈ board.tasks := by
  have granted : later ∈ ((board.grant lease task.id).changeLeases (·.id == lease.id)
      (ended now (bytes "completed") metadata)).tasks :=
    mem_of_setStatus (fun old stored kept _ => other old (row_of_grant other stored kept) kept) present ofRun
  exact row_of_grant other granted ofRun

/-- The release of a lease traces the run. -/
theorem Traced.release {projectID : ID} {status : GoString} (distinct : (board.leases.map (·.id)).Nodup)
    (known : lease ∈ board.leases) (active : lease.active = true) (project : lease.projectID = projectID)
    (completes : board.OfRun runID lease.taskID → status = bytes "completed") :
    Traced runID board (.release projectID lease.id status)
      (board.endLease lease now status metadata (releasedTaskStatus status)) where
  task := by
    intro later present ofRun
    unfold endLease at present
    obtain ⟨old, stored, rfl⟩ := mem_setStatus.mp present
    refine ⟨old, stored, ?_⟩
    split
    · rename_i picked
      rw [if_pos picked] at ofRun
      have refers : lease.taskID = some old.id := (orZero_eq (picked.2 ▸ picked.1)).mp picked.2.symm
      have completed : status = bytes "completed" := completes ⟨old, stored, ofRun, refers⟩
      exact ⟨rfl, ofRun, fun _ => Or.inr ⟨lease, known, active, refers, by rw [project, completed]⟩⟩
    · rename_i passed
      rw [if_neg passed] at ofRun
      exact ⟨rfl, ofRun, fun _ => Or.inl rfl⟩
  lease := by
    intro later present isActive named
    have before : board.OfRun runID later.taskID := by
      obtain ⟨task, member, ofRun, refers⟩ := named
      unfold endLease at member
      obtain ⟨old, stored, rfl⟩ := mem_setStatus.mp member
      refine ⟨old, stored, ?_⟩
      split at refers
      · rename_i picked
        rw [if_pos picked] at ofRun
        exact ⟨ofRun, refers⟩
      · rename_i passed
        rw [if_neg passed] at ofRun
        exact ⟨ofRun, refers⟩
    unfold endLease at present
    rw [setStatus_leases] at present
    obtain ⟨old, stored, rfl⟩ := List.mem_map.mp present
    split at before
    · rename_i chosen
      have same : old = lease := List.inj_on_of_nodup_map distinct stored known (eq_of_beq chosen)
      rw [same] at before
      rw [completes before] at present isActive ⊢
      exact (mem_of_active (by decide) present isActive).1
    · rename_i spared
      rw [if_neg spared]
      exact stored

/-- A sweep with the recovery of its tasks traces the run. -/
theorem Traced.recover {projectID : ID} {limit : Int} :
    Traced runID board label
      ((board.sweep now projectID limit metadata).recoverAll (board.expired now projectID limit)) := by
  refine .of_rows (fun later present ofRun => ?_) fun lease present active _ => ?_
  · obtain ⟨old, stored, rfl⟩ := Sound.mem_endAll.mp present
    split at ofRun
    · rename_i subject
      rw [if_pos subject]
      exact Or.inr ⟨show TaskStatus.needsRecovery ∉ started by decide, old, stored, rfl, ofRun⟩
    · rename_i spared
      rw [if_neg spared]
      exact Or.inl stored
  · unfold recoverAll at present
    rw [setStatuses_leases] at present
    exact (mem_of_active (by decide) present active).1

/-- A control action traces the run. -/
theorem Traced.control {run : RunRow} {status : RunStatus} {options : RunControlOptions} :
    Traced runID board label (board.control run now status options) := by
  unfold Board.control
  dsimp only
  cases cancels : cancelledTaskStatus options.action status with
  | none => exact .of_rows (fun _ present _ => Or.inl present) fun _ present _ _ => present
  | some taskStatus =>
      have rests : taskStatus ∉ started := by
        unfold cancelledTaskStatus at cancels
        split at cancels
        · cases cancels
        · cases status <;> cases cancels <;> decide
      refine .of_rows (fun later present ofRun => ?_) fun _ present _ _ => present
      obtain ⟨old, stored, rfl⟩ := List.mem_map.mp present
      split at ofRun
      · rename_i chosen
        rw [if_pos chosen]
        exact Or.inr ⟨rests, old, stored, rfl, ofRun⟩
      · rename_i spared
        rw [if_neg spared]
        exact Or.inl stored

/-- A step that leaves a stopped run in peace traces its tasks and leases. -/
theorem Traced.step (named : board.Named) (stopped : board.Stopped runID) (leaves : board.Leaves runID label)
    (step : BoardStep board label after) :
    Traced runID board label after := by
  -- a task of another run has another identifier
  have apart {chosen : TaskRow} (known : chosen ∈ board.tasks) (other : chosen.runID ≠ runID) :
      ∀ old ∈ board.tasks, old.runID = runID → old.id ≠ chosen.id := by
    intro old stored ofRun same
    have equal : old = chosen := List.inj_on_of_nodup_map named.tasks stored known same
    exact other (equal ▸ ofRun)
  cases step with
  | same => exact .of_rows (fun _ present _ => Or.inl present) fun _ present _ _ => present
  | added run task runNamed taskNamed belongs waits kind =>
      refine .of_rows (fun later present ofRun => ?_) fun _ present _ _ => present
      rcases List.mem_append.mp present with old | new
      · exact Or.inl old
      · obtain ⟨stop, stored, called, _⟩ := stopped
        rw [List.mem_singleton.mp new, belongs, runNamed] at ofRun
        have taken : freshID (board.runs.map (·.id)) ∈ board.runs.map (·.id) := by
          rw [ofRun, ← called]
          exact List.mem_map_of_mem stored
        exact absurd taken (freshID_not_mem _)
  | acquired now projectID sweeps metadata chosen lease known project positive free fresh =>
      have other : chosen.runID ≠ runID := leaves chosen known project rfl
      have row {later : TaskRow}
          (present : later ∈ ((board.sweepIf sweeps now projectID metadata).grant lease chosen.id).tasks)
          (ofRun : later.runID = runID) : later ∈ board.tasks := by
        have before : later ∈ (board.sweepIf sweeps now projectID metadata).tasks := by
          refine row_of_grant ?_ present ofRun
          rw [sweepIf_tasks]
          exact apart known other
        rwa [sweepIf_tasks] at before
      refine .of_rows (fun later present ofRun => Or.inl (row present ofRun)) fun given present active called => ?_
      rw [grant_leases] at present
      rcases List.mem_append.mp present with old | new
      · unfold sweepIf at old
        split at old
        · exact (mem_of_active (by decide) old active).1
        · exact old
      · obtain ⟨later, member, ofRun, refers⟩ := called
        rw [List.mem_singleton.mp new, fresh.2.1] at refers
        exact absurd (Option.some.inj refers).symm (apart known other later (row member ofRun) ofRun)
  | released projectID status now metadata lease known project active =>
      exact .release named.leases known active project fun ofRun => leaves lease known project rfl active ofRun
  | recovered now projectID limit metadata => exact .recover
  | swept now projectID runID metadata =>
      exact .of_rows (fun _ present _ => Or.inl present) fun _ present active _ =>
        (mem_of_active (by decide) present active).1
  | ran now projectID asked metadata done chosen lease waits project picked dry fresh =>
      have known : chosen ∈ board.tasks := waits.1
      have other : chosen.runID ≠ runID := by
        intro ofRun
        have idle := leaves chosen known ofRun project (picked.imp id fun same => same.symm.trans ofRun)
        rcases waits.2.1 with queued | recovering
        · exact idle.1 queued
        · exact idle.2 recovering
      refine .of_rows (fun later present ofRun => Or.inl ?_) fun given present active _ => ?_
      · have swept : later ∈ (board.sweep now projectID 50 metadata).tasks :=
          row_of_finish (apart known other) present ofRun
        exact swept
      · exact (mem_of_active (by decide) (mem_of_finish present active) active).1
  | executed operation now done chosen lease change waits queued fresh keeps =>
      have other : chosen.runID ≠ runID := by
        intro ofRun
        obtain ⟨stop, stored, called, isStopped⟩ := stopped
        obtain ⟨run, there, same, _, isQueued⟩ := queued
        have equal : run = stop :=
          List.inj_on_of_nodup_map named.runs there stored ((same.trans ofRun).trans called.symm)
        rw [← equal, isQueued] at isStopped
        cases isStopped
      exact .of_rows (fun later present ofRun => Or.inl (row_of_finish (apart waits.1 other) present ofRun))
        fun given present active _ => mem_of_finish present active
  | controlled run quote now options known allowed => exact .control

end Board

/-- A control action leaves the leases. -/
theorem BoardStep.control_leases {board after : Board} {label : Label} {runID : ID} (step : BoardStep board label after)
    (controls : label = .control runID action) : after.leases = board.leases := by
  cases step with
  | same => rfl
  | controlled run quote now options known allowed =>
      unfold Board.control
      dsimp only
      split <;> rfl
  | _ => cases controls

/-- These commands stop a run. -/
def stopping (commandType : GoString) : Bool := commandType == bytes "run.cancel" || commandType == bytes "run.drain"

/-- A step leaves the commands that stop runs. -/
abbrev SameStops : Database → Database → Prop := SameCommands fun _ commandType _ => stopping commandType

/-- Every stop that is recorded as allowed is in effect. -/
def Board.Obeys (board : Board) (commands : List CommandRow) : Prop :=
  ∀ row ∈ commands, stopping row.commandType = true → row.completed = true →
    metadataString row.response (bytes "decision") = bytes "allowed" →
      board.Stopped (metadataInt64 row.response (bytes "run_id"))

/-- The tables show a board that obeys their commands. -/
def Board.Obeyed (board : Board) (db : Database) : Prop := board.Shown db ∧ board.Obeys db.commands

/-- A step that leaves the commands and the stopped runs keeps the stops in effect. -/
theorem Board.Obeys.move {board after : Board} {db db' : Database} (obeys : board.Obeys db.commands)
    (same : SameStops db db') (kept : ∀ runID, board.Stopped runID → after.Stopped runID) :
    after.Obeys db'.commands := by
  intro row stored stops completed allowed
  have before : row ∈ db.commands := (same.mem_iff stops).mp stored
  exact kept _ (obeys row before stops completed allowed)

section Controls

variable {Files A : Type} {env : Env Files} {board : Board} {now : Time} {record : ProjectRow} {projectID : ID}
  {commandType idempotencyKey : GoString} {run : RunRow} {options : RunControlOptions}

theorem obeyed_of_same {command : Command Files A} [Moves SameBoard command] [Moves SameStops command] :
    Keeps board.Obeyed command := by
  intro files db files' answer db' holds run
  have shown : SameBoard db db' := Moves.moves files db files' answer db' run
  have same : SameStops db db' := Moves.moves files db files' answer db' run
  exact ⟨Eq.trans shown holds.1, holds.2.move same fun _ stopped => stopped⟩

/-- A reserved command is not completed. -/
theorem reserve_obeyed {hash : GoString} :
    Keeps board.Obeyed (reserve projectID commandType idempotencyKey hash : Command Files Bool) := by
  intro files db files' created db' holds run
  unfold reserve at run
  split at run
  · rename_i commands reserved
    cases run
    unfold reserveCommandRequest at reserved
    split at reserved
    · cases reserved
      refine ⟨holds.1, fun row stored stops completed allowed => ?_⟩
      rcases List.mem_append.mp stored with old | new
      · exact holds.2 row old stops completed allowed
      · rw [List.mem_singleton.mp new] at completed
        cases completed
    · split at reserved <;> cases reserved
  · cases run
    exact holds
  · cases run

/-- A response that tells of a stop in effect may be stored. -/
theorem complete_obeyed {response : Metadata}
    (stopped : stopping commandType = true → metadataString response (bytes "decision") = bytes "allowed" →
      board.Stopped (metadataInt64 response (bytes "run_id"))) :
    Keeps board.Obeyed (complete projectID commandType idempotencyKey response : Command Files Unit) := by
  refine Meets.write fun db holds => ⟨holds.1, ?_⟩
  intro row stored stops completed allowed
  obtain ⟨old, before, rfl⟩ := List.mem_map.mp stored
  split at stops
  · rename_i named
    rw [if_pos named] at allowed ⊢
    exact stopped (named.2.1 ▸ stops) allowed
  · rename_i other
    rw [if_neg other] at completed allowed ⊢
    exact holds.2 old before stops completed allowed

theorem loadRunForUpdate_obeyed {runID : ID} :
    Meets board.Obeyed (loadRunForUpdate runID : Command Files RunRow) fun run db =>
      (run ∈ board.runs ∧ run.id = runID) ∧ board.Obeyed db := by
  intro files db files' run db' holds loaded
  have found := loadRunForUpdate_shown files db files' run db' holds.1 loaded
  exact ⟨found.1, obeyed_of_same files db files' run db' holds loaded⟩

/-- A stored response that tells of a stop is true. -/
theorem loadRunControlByCommandResponse_obeyed :
    Meets board.Obeyed (loadRunControlByCommandResponse record commandType idempotencyKey : Command Files RunControlResult)
      fun result db => (stopping commandType = true → result.decision = bytes "allowed" → board.Stopped result.run.id) ∧
        board.Obeyed db := by
  unfold loadRunControlByCommandResponse
  have stored : Meets board.Obeyed
      (Tx.check fun db => loadCommandResponse db record.id commandType idempotencyKey : Command Files Metadata)
      fun response db => (stopping commandType = true → metadataString response (bytes "decision") = bytes "allowed" →
        board.Stopped (metadataInt64 response (bytes "run_id"))) ∧ board.Obeyed db := by
    refine Meets.check fun db response holds loaded => ⟨fun stops allowed => ?_, holds⟩
    unfold loadCommandResponse at loaded
    split at loaded
    · cases loaded
    · rename_i row look
      split at loaded
      · rename_i completed
        cases loaded
        obtain ⟨known, -, named, -⟩ := Database.command_mem look
        exact holds.2 row known (named ▸ stops) completed allowed
      · cases loaded
  refine Meets.bind stored fun response => Meets.assuming fun tells => ?_
  refine Meets.bind loadRunForUpdate_obeyed fun run => Meets.assuming fun known => ?_
  refine Meets.pure fun db holds => ⟨fun stops allowed => ?_, holds⟩
  show board.Stopped run.id
  rw [known.2]
  exact tells stops allowed

/-- The type of a trimmed action tells whether it stops a run. -/
theorem stopping_runControlCommandType {action : GoString} (trimmed : trimSpace action = action) :
    stopping (runControlCommandType action) = true ↔ action = bytes "cancel" ∨ action = bytes "drain" := by
  unfold stopping runControlCommandType
  rw [trimmed, Bool.or_eq_true, beq_iff_eq, beq_iff_eq]
  have cancel : bytes "run.cancel" = bytes "run." ++ bytes "cancel" := by decide
  have drain : bytes "run.drain" = bytes "run." ++ bytes "drain" := by decide
  rw [cancel, drain, List.append_cancel_left_eq, List.append_cancel_left_eq]

/-- An allowed cancel or drain stops its run. -/
theorem control_stops {quote : GoString → GoString} (known : run ∈ board.runs)
    (allowed : (evaluateRunControl quote run options.action).decision = .allowed)
    (stops : options.action = bytes "cancel" ∨ options.action = bytes "drain") :
    (board.control run now (evaluateRunControl quote run options.action).status options).Stopped run.id := by
  unfold Board.Stopped
  rw [Board.control_runs]
  refine ⟨_, List.mem_map_of_mem known, ?_⟩
  rw [if_pos (beq_self_eq_true _)]
  exact ⟨rfl, evaluateRunControl_stops allowed stops⟩

theorem updateRunControlStatus_obeyed {quote : GoString → GoString} (distinct : (board.runs.map (·.id)).Nodup)
    (known : run ∈ board.runs) (allowed : (evaluateRunControl quote run options.action).decision = .allowed) :
    Meets board.Obeyed
      (updateRunControlStatus now run (evaluateRunControl quote run options.action).status options : Command Files RunRow)
      fun _ => (board.control run now (evaluateRunControl quote run options.action).status options).Obeyed := by
  intro files db files' updated db' holds ran
  have shown := updateRunControlStatus_shown files db files' updated db' holds.1 ran
  have same : SameStops db db' := Moves.moves files db files' updated db' ran
  exact ⟨shown, holds.2.move same fun _ stopped =>
    stopped.step distinct (.controlled run quote now options known allowed)⟩

/-- The updated run keeps its identifier. -/
theorem updateRunControlStatus_id {status : RunStatus} :
    Meets (fun _ => True) (updateRunControlStatus now run status options : Command Files RunRow) fun updated _ =>
      updated.id = run.id := by
  have anything (command : Command Files Unit) : Meets (fun _ => True) command fun _ _ => True :=
    fun _ _ _ _ _ _ _ => trivial
  unfold updateRunControlStatus
  refine Meets.bind (anything _) fun _ => ?_
  cases cancelledTaskStatus options.action status with
  | none => exact Meets.pure fun _ _ => rfl
  | some taskStatus => exact Meets.bind (anything _) fun _ => Meets.pure fun _ _ => rfl

theorem runControlCommandResponse_run (result : RunControlResult) :
    metadataInt64 (runControlCommandResponse result) (bytes "run_id") = result.run.id := rfl

/-- A control action is in effect when it is recorded. -/
theorem applyRunControl_obeyed (distinct : (board.runs.map (·.id)).Nodup) (known : run ∈ board.runs)
    (trimmed : trimSpace options.action = options.action) :
    Meets board.Obeyed (applyRunControl env now record run options) fun answer db => ∃ after : Board, after.Obeyed db ∧
      (stopping (runControlCommandType options.action) = true → answer.result.decision = bytes "allowed" →
        after.Stopped answer.result.run.id) := by
  unfold applyRunControl
  dsimp only
  cases ruled : (evaluateRunControl env.quote run options.action).decision with
  | denied =>
      have isDenied : Ruling.denied.name ≠ bytes "allowed" := by decide
      refine Meets.bind obeyed_of_same fun updated => ?_
      refine Meets.bind obeyed_of_same fun eventID => Meets.bind obeyed_of_same fun auditEventID => ?_
      refine Meets.bind (complete_obeyed fun _ allowed => absurd allowed isDenied) fun _ => ?_
      exact Meets.pure fun db holds => ⟨board, holds, fun _ allowed => absurd allowed isDenied⟩
  | allowed =>
      have updates : Meets board.Obeyed (updateRunControlStatus now run
          (evaluateRunControl env.quote run options.action).status options : Command Files RunRow) fun updated db =>
          updated.id = run.id ∧
            (board.control run now (evaluateRunControl env.quote run options.action).status options).Obeyed db := by
        intro files db files' updated db' holds ran
        exact ⟨updateRunControlStatus_id files db files' updated db' trivial ran,
          updateRunControlStatus_obeyed distinct known ruled files db files' updated db' holds ran⟩
      refine Meets.bind updates fun updated => Meets.assuming fun same => ?_
      have stopped (stops : stopping (runControlCommandType options.action) = true) :
          (board.control run now (evaluateRunControl env.quote run options.action).status options).Stopped updated.id := by
        rw [same]
        exact control_stops known ruled ((stopping_runControlCommandType trimmed).mp stops)
      refine Meets.bind obeyed_of_same fun eventID => Meets.bind obeyed_of_same fun auditEventID => ?_
      refine Meets.bind (complete_obeyed fun stops _ => ?_) fun _ => ?_
      · rw [runControlCommandResponse_run]
        exact stopped stops
      · exact Meets.pure fun db holds => ⟨_, holds, fun stops _ => stopped stops⟩

/-- A control action that answers with an allowed stop leaves a stopped run. -/
theorem controlRun_obeyed {runID : ID} {raw : RunControlOptions} (distinct : (board.runs.map (·.id)).Nodup) :
    Meets board.Obeyed (controlRun env now runID raw) fun answer db => ∃ after : Board, after.Obeyed db ∧
      (trimSpace raw.action = bytes "cancel" ∨ trimSpace raw.action = bytes "drain" →
        answer.result.decision = bytes "allowed" → after.Stopped answer.result.run.id) := by
  have trimmed : trimSpace (trimSpace raw.action) = trimSpace raw.action := trimSpace_trimSpace raw.action
  unfold controlRun
  dsimp only
  split
  · exact Meets.fail
  refine Meets.bind loadRunForUpdate_obeyed fun run => Meets.assuming fun known => ?_
  refine Meets.bind obeyed_of_same fun record => ?_
  refine once_meets reserve_obeyed ?_ ?_
  · refine Meets.consequence (applyRunControl_obeyed distinct known.1 trimmed) (fun _ holds => holds) ?_
    intro answer db holds
    obtain ⟨after, obeyed, stops⟩ := holds
    exact ⟨after, obeyed, fun asked => stops ((stopping_runControlCommandType trimmed).mpr asked)⟩
  · refine Meets.bind loadRunControlByCommandResponse_obeyed fun result => Meets.assuming fun tells => ?_
    exact Meets.pure fun db holds =>
      ⟨board, holds, fun asked => tells ((stopping_runControlCommandType trimmed).mpr asked)⟩

end Controls

/-- A command that stops a run is one of these operations. -/
theorem workCommand_of_stopping {row : CommandRow} (stops : stopping row.commandType = true) : workCommand row = true := by
  unfold workCommand
  unfold stopping at stops
  rw [Bool.or_eq_true, beq_iff_eq, beq_iff_eq] at stops
  rcases stops with cancel | drain
  · rw [cancel]
    decide
  · rw [drain]
    decide

/-- No call is recorded as a command that stops a run. -/
theorem Call.commandType_continues {call : Call} {commandType : GoString}
    (named : call.commandType = some commandType) : stopping commandType = false := by
  cases call <;> cases named <;> decide

section Runs

variable {Files : Type} {env : Env Files}

/-- The stops that are recorded as allowed stay in effect. -/
theorem workStep_obeys (world : World Files) (event : WorkEvent Files)
    (obeys : world.db.board.Obeys world.db.commands) :
    (workStep env world event).1.db.board.Obeys (workStep env world event).1.db.commands := by
  have kept (runID : ID) (stopped : world.db.board.Stopped runID) :
      (workStep env world event).1.db.board.Stopped runID :=
    stopped.step world.db.board_named.runs (workStep_board world event)
  cases event with
  | call now sequence seen projectKey call =>
      have same : SameStops world.db (workStep env world (.call now sequence seen projectKey call)).1.db := by
        cases found : world.db.getByKey projectKey with
        | none =>
            rw [workStep_unknown found]
            exact refl world.db
        | some record =>
            rw [workStep_known found]
            have moves : Moves SameStops (call.command env now sequence seen record) :=
              call.moves fun commandType named =>
                Once.of_commands fun _ _ => SameCommands.commands (Call.commandType_continues named)
            exact Moves.commit world.files world.db
      exact obeys.move same kept
  | control now runID options =>
      have main : Meets world.db.board.Obeyed (controlRun env now runID options) fun _ db =>
          db.board.Obeys db.commands := by
        refine Meets.consequence (controlRun_obeyed world.db.board_named.runs) (fun _ holds => holds) ?_
        intro answer db holds
        obtain ⟨after, obeyed, _⟩ := holds
        exact obeyed.1 ▸ obeyed.2
      exact main.commit (fun db holds => holds.1 ▸ holds.2) world.files ⟨rfl, obeys⟩
  | elsewhere files after => exact obeys.move (SameCommands.outside fun _ stops => workCommand_of_stopping stops) kept

/-- Steps that leave a stopped run in peace respect the stop. -/
theorem respects_of_run {world : World Files} {events : List (WorkEvent Files)} {runID : ID} {held : List LeaseRow}
    (stopped : world.db.board.Stopped runID)
    (only : ∀ lease ∈ world.db.board.leases, lease.active = true → world.db.board.OfRun runID lease.taskID → lease ∈ held)
    (leaves : Run.Along (workStep env) (fun world event => world.db.board.Leaves runID (event.label world)) world events) :
    Run.Along (workStep env) (fun world event =>
      Board.Respects runID held world.db.board (event.label world) (workStep env world event).1.db.board) world events := by
  induction events generalizing world with
  | nil => exact trivial
  | cons event rest ih =>
      have step : BoardStep world.db.board (event.label world) (workStep env world event).1.db.board :=
        workStep_board world event
      have traced := Board.Traced.step world.db.board_named stopped leaves.1 step
      have respects := traced.respects only
      exact ⟨respects, ih (stopped.step world.db.board_named.runs step) respects.leases leaves.2⟩

/-- This is the world after a control action, together with the answer of the action. -/
def controlled (env : Env Files) (world : World Files) (now : Time) (runID : ID) (options : RunControlOptions) :
    World Files × Except StoreError (Answer RunControlResult) :=
  ((workStep env world (.control now runID options)).1,
    ((controlRun env now runID options).commit world.files world.db).2)

end Runs

section Installation

/-- A dry run is under way, with one queued task and one worker. -/
def runningFixture : World Unit where
  files := ()
  db := { smallTables with
    runs := { rows := [{
      id := 1, projectID := some 1, versionID := some 1, runType := .runnerPreview, executionKind := true,
      status := .running, riskLevel := bytes "low", riskPolicy := bytes "pause", dryRun := true, summary := [],
      metadata := [], startedAt := 0, finishedAt := none }] }
    tasks := { rows := [{
      id := 1, projectID := 1, versionID := some 1, itemID := none, runID := 1, taskKey := bytes "t",
      taskKind := .workflowItemPreview, status := .queued, riskLevel := bytes "low", sequence := 1, metadata := [],
      createdAt := 0 }] } }

/-- A worker registers and leases the task of the run. -/
def leasedRunning : List (WorkEvent Unit) :=
  [callAt 0 (.registerWorker { workerKey := bytes "w" }),
    callAt 0 (.acquireLease { workerKey := bytes "w", runTaskID := 1 })]

end Installation

end AreaFlow.Project
