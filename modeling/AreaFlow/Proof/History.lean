import AreaFlow.Proof.ControlLaw

namespace AreaFlow.Project
open Go Tx

/-- A sweep of a project at a time passes a lease over. -/
def LeaseRow.Lasting (lease : LeaseRow) (now : Time) (projectID : ID) : Prop :=
  lease.active = false ∨ lease.projectID ≠ projectID ∨ now ≤ lease.expiresAt

instance (lease : LeaseRow) (now : Time) (projectID : ID) : Decidable (lease.Lasting now projectID) :=
  inferInstanceAs (Decidable (lease.active = false ∨ lease.projectID ≠ projectID ∨ now ≤ lease.expiresAt))

namespace Board

/-- A step does not release a lease, and it sweeps its project only before the lease is over. -/
def LeavesLease (lease : LeaseRow) : Label → Prop
  | .release _ leaseID _ => lease.active = true → leaseID ≠ lease.id
  | .acquire now projectID _ sweeps => sweeps = true → lease.Lasting now projectID
  | .recover now projectID _ | .runOnce now projectID _ => lease.Lasting now projectID
  | .other | .execute _ | .control _ _ => True

instance (lease : LeaseRow) : DecidablePred (LeavesLease lease)
  | .release _ leaseID _ => inferInstanceAs (Decidable (lease.active = true → leaseID ≠ lease.id))
  | .acquire now projectID _ sweeps => inferInstanceAs (Decidable (sweeps = true → lease.Lasting now projectID))
  | .recover now projectID _ | .runOnce now projectID _ => inferInstanceAs (Decidable (lease.Lasting now projectID))
  | .other | .execute _ | .control _ _ => instDecidableTrue

instance : DecidablePred Releases
  | .release _ _ status => inferInstanceAs (Decidable (status ≠ bytes "active"))
  | .other | .acquire .. | .recover .. | .runOnce .. | .execute _ | .control .. => instDecidableTrue

/-- Every step leaves a lease that has ended. -/
theorem leavesLease_ended {lease : LeaseRow} (ended : lease.active = false) (label : Label) : LeavesLease lease label := by
  cases label with
  | release projectID leaseID status =>
      intro active
      rw [ended] at active
      cases active
  | acquire now projectID taskID sweeps => exact fun _ => Or.inl ended
  | recover now projectID limit | runOnce now projectID runID => exact Or.inl ended
  | other | execute operation | control runID action => trivial

variable {board after : Board} {lease : LeaseRow} {label : Label}

theorem mem_changeLeases {chosen : LeaseRow → Bool} {change : LeaseRow → LeaseRow} (stored : lease ∈ board.leases)
    (spared : chosen lease = false) : lease ∈ (board.changeLeases chosen change).leases :=
  List.mem_map.mpr ⟨lease, stored, by simp [spared]⟩

/-- A sweep leaves the leases that last. -/
theorem mem_sweep (named : board.Named) (stored : lease ∈ board.leases) {now : Time} {projectID : ID}
    (lasts : lease.Lasting now projectID) (limit : Int) (metadata : Metadata) :
    lease ∈ (board.sweep now projectID limit metadata).leases := by
  refine mem_changeLeases stored (Bool.eq_false_iff.mpr fun swept => ?_)
  obtain ⟨other, listed, same⟩ := List.any_eq_true.mp swept
  obtain ⟨known, fits⟩ := List.mem_filter.mp ((List.mem_insertionSort _).mp (List.mem_of_mem_take listed))
  have equal : other = lease := List.inj_on_of_nodup_map named.leases known stored (beq_iff_eq.mp same)
  subst equal
  simp only [Bool.and_eq_true, beq_iff_eq, decide_eq_true_eq] at fits
  rcases lasts with ended | foreign | early
  · exact Bool.false_ne_true (ended.symm.trans fits.1.2)
  · exact foreign fits.1.1
  · exact absurd fits.2 (Nat.not_lt.mpr early)

/-- A lease that is given and completed is a new one. -/
theorem mem_finish (stored : lease ∈ board.leases) {new : LeaseRow} {task : TaskRow} (fresh : board.Fresh new task)
    (now : Time) (metadata : Metadata) (status : TaskStatus) : lease ∈ (board.finish new task now metadata status).leases := by
  unfold finish
  rw [setStatus_leases]
  refine mem_changeLeases ?_ (beq_eq_false_iff_ne.mpr fun same => ?_)
  · rw [grant_leases]
    exact List.mem_append_left _ stored
  · refine freshID_not_mem (board.leases.map (·.id)) ?_
    rw [← fresh.1, ← same]
    exact List.mem_map_of_mem stored

/-- A step that leaves a lease keeps its row. -/
theorem mem_step (named : board.Named) (stored : lease ∈ board.leases) (leaves : LeavesLease lease label)
    (step : BoardStep board label after) : lease ∈ after.leases := by
  cases step with
  | same | added => exact stored
  | acquired now projectID sweeps metadata task new known project positive free fresh =>
      rw [grant_leases]
      refine List.mem_append_left _ ?_
      unfold sweepIf
      split
      · rename_i asked
        exact mem_sweep named stored (leaves asked) 50 metadata
      · exact stored
  | released projectID status now metadata other known project active =>
      unfold endLease
      rw [setStatus_leases]
      refine mem_changeLeases stored (beq_eq_false_iff_ne.mpr fun same => ?_)
      have equal : lease = other := List.inj_on_of_nodup_map named.leases stored known same
      exact leaves (equal ▸ active) same.symm
  | recovered now projectID limit metadata =>
      unfold recoverAll
      rw [setStatuses_leases]
      exact mem_sweep named stored leaves limit metadata
  | swept now projectID runID metadata => exact mem_sweep named stored leaves 50 metadata
  | ran now projectID runID metadata done task new waits project chosen dry fresh =>
      exact mem_finish (mem_sweep named stored leaves 50 metadata) fresh now done .passed
  | executed operation now done task new change waits queued fresh keeps =>
      exact mem_finish stored fresh now done operation.taskDone
  | controlled run quote now options known allowed =>
      unfold control
      dsimp only
      split <;> exact stored

/-- These are the runs of the board and the runs of its tasks. -/
def links (board : Board) : List ID × List ID := (board.runs.map (·.id), board.tasks.map (·.runID))

theorem links_changeTasks (chosen : TaskRow → Bool) (status : TaskStatus) :
    (board.changeTasks chosen status).links = board.links := by
  refine Prod.ext rfl (List.map_map.trans (List.map_congr_left fun task _ => ?_))
  dsimp only [Function.comp_apply]
  split <;> rfl

theorem links_setStatus (taskID : ID) (status : TaskStatus) : (board.setStatus taskID status).links = board.links := by
  unfold setStatus
  split
  · rfl
  · exact links_changeTasks _ status

theorem links_recoverAll (leases : List LeaseRow) : (board.recoverAll leases).links = board.links := by
  unfold recoverAll
  induction leases generalizing board with
  | nil => rfl
  | cons first rest ih => exact ih.trans (links_setStatus _ .needsRecovery)

theorem links_changeRun {runID : ID} {change : RunRow → RunRow} (keeps : ∀ run, (change run).id = run.id) :
    (board.changeRun runID change).links = board.links := by
  refine Prod.ext (List.map_map.trans (List.map_congr_left fun run _ => ?_)) rfl
  dsimp only [Function.comp_apply]
  split
  · exact keeps run
  · rfl

theorem links_finish (new : LeaseRow) (task : TaskRow) (now : Time) (metadata : Metadata) (status : TaskStatus) :
    (board.finish new task now metadata status).links = board.links :=
  (links_setStatus _ status).trans (links_setStatus _ .leased)

/-- A step adds a run with its task, or it leaves the runs and the runs of the tasks. -/
theorem links_step (step : BoardStep board label after) :
    after.links = board.links ∨ ∃ runID, after.links = (board.links.1 ++ [runID], board.links.2 ++ [runID]) := by
  cases step with
  | same => exact Or.inl rfl
  | added run task runNamed taskNamed belongs waits kind =>
      exact Or.inr ⟨run.id, by simp [links, addRun, addTask, belongs]⟩
  | acquired now projectID sweeps metadata task new known project positive free fresh =>
      refine Or.inl ((links_setStatus _ .leased).trans ?_)
      unfold sweepIf
      split <;> rfl
  | released projectID status now metadata other known project active => exact Or.inl (links_setStatus _ _)
  | recovered now projectID limit metadata => exact Or.inl (links_recoverAll _)
  | swept now projectID runID metadata => exact Or.inl rfl
  | ran now projectID runID metadata done task new waits project chosen dry fresh =>
      exact Or.inl (links_finish new task now done .passed)
  | executed operation now done task new change waits queued fresh keeps =>
      exact Or.inl ((links_changeRun fun run => (keeps run).1).trans (links_finish new task now done operation.taskDone))
  | controlled run quote now options known allowed =>
      left
      unfold control
      dsimp only
      split
      · exact links_changeRun fun _ => rfl
      · exact (links_changeTasks _ _).trans (links_changeRun fun _ => rfl)

/-- These are the executions that are no longer queued, with their statuses. -/
def settled (board : Board) : List (ID × RunStatus) :=
  (board.runs.filter fun run => !run.dryRun && run.status != .queued).map fun run => (run.id, run.status)

theorem settled_changeRun {runID : ID} {change : RunRow → RunRow}
    (keeps : ∀ run ∈ board.runs, run.id = runID → run.dryRun = false → run.status ≠ .queued →
      (change run).id = run.id ∧ (change run).dryRun = false ∧ (change run).status = run.status) :
    board.settled ⊆ (board.changeRun runID change).settled := by
  intro entry member
  obtain ⟨run, listed, rfl⟩ := List.mem_map.mp member
  obtain ⟨stored, fits⟩ := List.mem_filter.mp listed
  refine List.mem_map.mpr ⟨_, List.mem_filter.mpr ⟨List.mem_map_of_mem stored, ?_⟩, ?_⟩
  all_goals
    simp only [Bool.and_eq_true, Bool.not_eq_true', bne_iff_ne, ne_eq] at fits ⊢
    split
    · rename_i same
      simp [keeps run stored (beq_iff_eq.mp same) fits.1 fits.2, fits.2]
    · simp [fits]

/-- Only dry runs are moved by a control action that is allowed. -/
theorem evaluateRunControl_execution {quote : GoString → GoString} {run : RunRow} {action : GoString}
    (execution : run.dryRun = false) (allowed : (evaluateRunControl quote run action).decision = .allowed) :
    (evaluateRunControl quote run action).status = run.status := by
  cases follows : run.status.follows action with
  | true => exact (evaluateRunControl_follows quote follows).2
  | false =>
      have dry := (evaluateRunControl_moves allowed follows).1
      rw [execution] at dry
      cases dry

/-- An execution that is no longer queued keeps its status. -/
theorem settled_step (named : board.Named) (step : BoardStep board label after) : board.settled ⊆ after.settled := by
  have same {other : Board} (runs : other.runs = board.runs) : board.settled ⊆ other.settled := by
    unfold settled
    rw [runs]
    exact List.Subset.refl _
  cases step with
  | same | swept => exact same rfl
  | added run task runNamed taskNamed belongs waits kind =>
      intro entry member
      obtain ⟨old, listed, rfl⟩ := List.mem_map.mp member
      exact List.mem_map_of_mem (List.mem_filter.mpr
        ⟨List.mem_append_left _ (List.mem_filter.mp listed).1, (List.mem_filter.mp listed).2⟩)
  | acquired now projectID sweeps metadata task new known project positive free fresh =>
      exact same ((grant_runs _ new task.id).trans (sweepIf_runs board sweeps now projectID metadata))
  | released projectID status now metadata other known project active => exact same (setStatus_runs _ _ _)
  | recovered now projectID limit metadata => exact same (setStatuses_runs _ _ _)
  | ran now projectID runID metadata done task new waits project chosen dry fresh =>
      exact same (finish_runs _ new task now done .passed)
  | executed operation now done task new change waits queued fresh keeps =>
      have runs := finish_runs board new task now done operation.taskDone
      refine List.Subset.trans (same runs) (settled_changeRun fun run stored ofTask _ left => ?_)
      obtain ⟨waiting, known, asked, _, status⟩ := queued
      rw [runs] at stored
      have equal : run = waiting := List.inj_on_of_nodup_map named.runs stored known (ofTask.trans asked.symm)
      exact absurd (equal ▸ status) left
  | controlled run quote now options known allowed =>
      have kept : board.settled ⊆ (board.changeRun run.id
          (controlledRun now (evaluateRunControl quote run options.action).status options)).settled := by
        refine settled_changeRun fun other stored asked execution _ => ?_
        have equal : other = run := List.inj_on_of_nodup_map named.runs stored known asked
        subst equal
        exact ⟨rfl, execution, evaluateRunControl_execution execution allowed⟩
      unfold control
      dsimp only
      split <;> exact kept

end Board

section Runs

variable {Files : Type} (env : Env Files)

/-- Every run of the system is a run of the board. -/
theorem runs_refine_board (world : World Files) (events : List (WorkEvent Files)) :
    Relation.ReflTransGen (fun before after => ∃ label, BoardStep before label after) world.db.board
      (Run.final (workStep env) world events).db.board := by
  induction events generalizing world with
  | nil => exact .refl
  | cons event rest ih => exact .head ⟨event.label world, workStep_board world event⟩ (ih _)

theorem lease_kept (world : World Files) (events : List (WorkEvent Files)) {lease : LeaseRow}
    (stored : lease ∈ world.db.leases.rows)
    (leaves : Run.Along (workStep env) (fun world event => Board.LeavesLease lease (event.label world)) world events) :
    lease ∈ (Run.final (workStep env) world events).db.leases.rows := by
  have keeps (world : World Files) (event : WorkEvent Files) (stored : lease ∈ world.db.leases.rows)
      (leaves : Board.LeavesLease lease (event.label world)) : lease ∈ (workStep env world event).1.db.leases.rows :=
    Board.mem_step world.db.board_named stored leaves (workStep_board world event)
  exact Run.Along.invariant keeps stored leaves

/-- A task has no other active lease until its lease is released or a sweep finds it expired. -/
theorem leases_exclude (files : Files) (earlier later : List (WorkEvent Files)) {lease : LeaseRow} {taskID : ID}
    (releases : Run.Along (workStep env) (fun world event => Board.Releases (event.label world)) ⟨files, {}⟩ (earlier ++ later))
    (stored : lease ∈ (Run.final (workStep env) ⟨files, {}⟩ earlier).db.leases.rows) (active : lease.active = true)
    (refers : lease.taskID = some taskID)
    (leaves : Run.Along (workStep env) (fun world event => Board.LeavesLease lease (event.label world))
      (Run.final (workStep env) ⟨files, {}⟩ earlier) later) :
    ((Run.final (workStep env) ⟨files, {}⟩ (earlier ++ later)).db.leases.rows.filter fun other =>
      other.taskID == some taskID && other.active) = [lease] := by
  have keeps (world : World Files) (event : WorkEvent Files) (sound : world.db.board.Sound)
      (releases : Board.Releases (event.label world)) : (workStep env world event).1.db.board.Sound :=
    sound.step releases (workStep_board world event)
  have sound := Run.Along.invariant keeps Board.sound_empty releases
  have kept := lease_kept env _ later stored leaves
  rw [← Run.final_append] at kept
  have holder : lease ∈ (Run.final (workStep env) ⟨files, {}⟩ (earlier ++ later)).db.board.holders taskID :=
    Board.mem_holders.mpr ⟨kept, refers, active⟩
  obtain ⟨only, holds⟩ := List.length_eq_one_iff.mp (le_antisymm (sound.single taskID) (List.length_pos_of_mem holder))
  rw [holds] at holder
  exact holds.trans (congrArg (fun lease => [lease]) (List.mem_singleton.mp holder).symm)

theorem leases_exclude_leasedFixture :
    ∃ lease ∈ (Run.final (workStep smallHost) ⟨(), {}⟩ leasedFixture).db.leases.rows,
      ((Run.final (workStep smallHost) ⟨(), {}⟩ (leasedFixture ++
        [callAt (seconds 300) (.recoverExpiredLeases {}), callAt (seconds 300) (.runWorkerOnce { workerKey := bytes "w" })])
        ).db.leases.rows.filter fun other => other.taskID == some 1 && other.active) = [lease] := by
  have held : ∃ lease ∈ (Run.final (workStep smallHost) ⟨(), {}⟩ leasedFixture).db.leases.rows,
      lease.active = true ∧ lease.taskID = some 1 ∧
      Run.Along (workStep smallHost) (fun world event => Board.LeavesLease lease (event.label world))
        (Run.final (workStep smallHost) ⟨(), {}⟩ leasedFixture)
        [callAt (seconds 300) (.recoverExpiredLeases {}), callAt (seconds 300) (.runWorkerOnce { workerKey := bytes "w" })] := by
    decide +kernel
  obtain ⟨lease, stored, active, refers, leaves⟩ := held
  exact ⟨lease, stored, leases_exclude smallHost () leasedFixture _ (by decide +kernel) stored active refers leaves⟩

/-- A lease that has ended is never changed and never given again. -/
theorem ended_leases_final (world : World Files) (events : List (WorkEvent Files)) :
    world.db.leases.rows.filter (!·.active) ⊆ (Run.final (workStep env) world events).db.leases.rows.filter (!·.active) := by
  intro lease member
  obtain ⟨stored, ended⟩ := List.mem_filter.mp member
  refine List.mem_filter.mpr ⟨?_, ended⟩
  have leaves := Board.leavesLease_ended ((Bool.not_eq_true' _).mp ended)
  exact lease_kept env world events stored (Run.Along.always (fun world event => leaves (event.label world)) world events)

/-- In every state that these operations reach, every run has one task and every task has its run. -/
theorem runs_have_one_task (files : Files) (events : List (WorkEvent Files)) :
    (Run.final (workStep env) ⟨files, {}⟩ events).db.tasks.rows.map (·.runID) =
      (Run.final (workStep env) ⟨files, {}⟩ events).db.runs.rows.map (·.id) := by
  have keeps (world : World Files) (event : WorkEvent Files) (paired : world.db.board.links.2 = world.db.board.links.1) :
      (workStep env world event).1.db.board.links.2 = (workStep env world event).1.db.board.links.1 := by
    rcases Board.links_step (workStep_board world event) with same | ⟨runID, added⟩
    · rw [same, paired]
    · rw [added, paired]
  have paired := Run.final_invariant keeps (rfl : (World.mk files {}).db.board.links.2 = []) events
  have tasks (db : Database) : db.board.links.2 = db.tasks.rows.map (·.runID) := List.map_map
  exact (tasks _).symm.trans paired

/-- An execution leaves the queue at most once: its status never changes again. -/
theorem executions_settle_once (world : World Files) (events : List (WorkEvent Files)) :
    world.db.board.settled ⊆ (Run.final (workStep env) world events).db.board.settled := by
  induction events generalizing world with
  | nil => exact List.Subset.refl _
  | cons event rest ih =>
      exact List.Subset.trans (Board.settled_step world.db.board_named (workStep_board world event)) (ih _)

end Runs

end AreaFlow.Project
