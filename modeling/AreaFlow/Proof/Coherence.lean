import AreaFlow.Proof.Effects

namespace AreaFlow.Project
open Go Tx

/-- A present reference is read as itself. -/
theorem orZero_eq {reference : Option ID} {id : ID} (present : id ≠ 0) : orZero reference = id ↔ reference = some id := by
  cases reference with
  | none => simp [orZero, Ne.symm present]
  | some other => simp [orZero]

namespace Board

variable {board : Board} {taskID projectID : ID} {lease : LeaseRow} {now : Time}

/-- These are the active leases of a task. -/
def holders (board : Board) (taskID : ID) : List LeaseRow :=
  board.leases.filter fun lease => lease.taskID == some taskID && lease.active

theorem mem_holders :
    lease ∈ board.holders taskID ↔ lease ∈ board.leases ∧ lease.taskID = some taskID ∧ lease.active = true := by
  simp [holders]

theorem held_iff : board.held taskID = true ↔ ∃ lease, lease ∈ board.holders taskID := by
  simp [held, mem_holders]

@[simp] theorem setStatus_leases (board : Board) (taskID : ID) (status : TaskStatus) :
    (board.setStatus taskID status).leases = board.leases := by
  unfold setStatus
  split <;> rfl

theorem setStatus_tasks (board : Board) (taskID : ID) (status : TaskStatus) :
    (board.setStatus taskID status).tasks = board.tasks.map fun old =>
      if taskID ≠ 0 ∧ old.id = taskID then { old with status := status } else old := by
  unfold setStatus
  split
  · rename_i absent
    simp [absent]
  · rename_i present
    simp [changeTasks, present]

theorem mem_setStatus {status : TaskStatus} {task : TaskRow} :
    task ∈ (board.setStatus taskID status).tasks ↔
      ∃ old ∈ board.tasks, task = if taskID ≠ 0 ∧ old.id = taskID then { old with status := status } else old := by
  rw [setStatus_tasks, List.mem_map]
  exact exists_congr fun old => and_congr Iff.rfl eq_comm

/-- This is the board after some leases were ended and their tasks got a status. -/
def endAll (board : Board) (leases : List LeaseRow) (change : LeaseRow → LeaseRow) (status : TaskStatus) : Board :=
  leases.foldl (fun board lease => board.setStatus (orZero lease.taskID) status)
    (board.changeLeases (fun lease => leases.any (·.id == lease.id)) change)

/-- A task is the subject of one of the leases. -/
def Subject (leases : List LeaseRow) (taskID : ID) : Prop := taskID ≠ 0 ∧ ∃ lease ∈ leases, orZero lease.taskID = taskID

instance (leases : List LeaseRow) (taskID : ID) : Decidable (Subject leases taskID) :=
  inferInstanceAs (Decidable (_ ∧ ∃ lease ∈ leases, _))

theorem subject_cons {first : LeaseRow} {rest : List LeaseRow} :
    Subject (first :: rest) taskID ↔
      (orZero first.taskID ≠ 0 ∧ taskID = orZero first.taskID) ∨ Subject rest taskID := by
  unfold Subject
  constructor
  · intro both
    obtain ⟨present, lease, member, same⟩ := both
    rcases List.mem_cons.mp member with head | later
    · rw [head] at same
      exact Or.inl ⟨same ▸ present, same.symm⟩
    · exact Or.inr ⟨present, lease, later, same⟩
  · intro either
    rcases either with ⟨present, same⟩ | ⟨present, lease, member, same⟩
    · exact ⟨same ▸ present, first, List.mem_cons_self, same.symm⟩
    · exact ⟨present, lease, List.mem_cons_of_mem _ member, same⟩

/-- The tasks of some leases get a status, the others keep theirs. -/
theorem setStatuses_tasks (board : Board) (leases : List LeaseRow) (status : TaskStatus) :
    (leases.foldl (fun board lease => board.setStatus (orZero lease.taskID) status) board).tasks =
      board.tasks.map fun old => if Subject leases old.id then { old with status := status } else old := by
  induction leases generalizing board with
  | nil => simp [Subject]
  | cons first rest ih =>
      rw [List.foldl_cons, ih, setStatus_tasks, List.map_map]
      refine List.map_congr_left fun old _ => ?_
      by_cases picked : orZero first.taskID ≠ 0 ∧ old.id = orZero first.taskID
      · have subject : Subject (first :: rest) old.id := subject_cons.mpr (Or.inl picked)
        simp only [Function.comp_apply, if_pos picked, if_pos subject]
        split <;> rfl
      · have same : Subject (first :: rest) old.id ↔ Subject rest old.id := by
          rw [subject_cons, or_iff_right picked]
        simp only [Function.comp_apply, if_neg picked, same]

theorem setStatuses_leases (board : Board) (leases : List LeaseRow) (status : TaskStatus) :
    (leases.foldl (fun board lease => board.setStatus (orZero lease.taskID) status) board).leases = board.leases := by
  induction leases generalizing board with
  | nil => rfl
  | cons first rest ih => rw [List.foldl_cons, ih, setStatus_leases]

@[simp] theorem setStatus_runs (board : Board) (taskID : ID) (status : TaskStatus) :
    (board.setStatus taskID status).runs = board.runs := by
  unfold setStatus
  split <;> rfl

theorem setStatuses_runs (board : Board) (leases : List LeaseRow) (status : TaskStatus) :
    (leases.foldl (fun board lease => board.setStatus (orZero lease.taskID) status) board).runs = board.runs := by
  induction leases generalizing board with
  | nil => rfl
  | cons first rest ih => rw [List.foldl_cons, ih, setStatus_runs]

theorem grant_runs (board : Board) (lease : LeaseRow) (taskID : ID) : (board.grant lease taskID).runs = board.runs :=
  setStatus_runs _ _ _

theorem sweepIf_runs (board : Board) (sweeps : Bool) (now : Time) (projectID : ID) (metadata : Metadata) :
    (board.sweepIf sweeps now projectID metadata).runs = board.runs := by
  unfold sweepIf
  split <;> rfl

theorem finish_runs (board : Board) (lease : LeaseRow) (task : TaskRow) (now : Time) (metadata : Metadata)
    (status : TaskStatus) : (board.finish lease task now metadata status).runs = board.runs := by
  unfold finish
  rw [setStatus_runs]
  exact grant_runs board lease task.id

/-- A task keeps its place under a change of status. -/
theorem exists_mem_setStatus (board : Board) {old : TaskRow} (stored : old ∈ board.tasks) (taskID : ID)
    (status : TaskStatus) : ∃ task ∈ (board.setStatus taskID status).tasks, task.id = old.id := by
  refine ⟨_, mem_setStatus.mpr ⟨old, stored, rfl⟩, ?_⟩
  split <;> rfl

@[simp] theorem grant_leases (board : Board) (lease : LeaseRow) (taskID : ID) :
    (board.grant lease taskID).leases = board.leases ++ [lease] :=
  setStatus_leases _ _ _

/-- A new active lease holds its task, and nothing else changes. -/
theorem holders_grant (refers : lease.taskID = some taskID) (active : lease.active = true) (id : ID) :
    (board.grant lease taskID).holders id = board.holders id ++ if id = taskID then [lease] else [] := by
  unfold holders
  rw [grant_leases, List.filter_append, List.filter_singleton]
  by_cases same : id = taskID
  · simp [refers, active, same]
  · have other : (taskID == id) = false := beq_eq_false_iff_ne.mpr (Ne.symm same)
    simp [refers, same, other]

/-- Ended leases hold no task any more; the others hold what they held. -/
theorem holders_changeLeases {chosen : LeaseRow → Bool} {change : LeaseRow → LeaseRow}
    (ends : ∀ lease, (change lease).active = false) (taskID : ID) :
    (board.changeLeases chosen change).holders taskID = (board.holders taskID).filter fun lease => !chosen lease := by
  unfold holders changeLeases
  rw [List.filter_filter]
  induction board.leases with
  | nil => rfl
  | cons first rest ih =>
      by_cases picked : chosen first = true
      · simp only [List.map_cons, List.filter_cons, picked, if_true, ends, Bool.and_false, Bool.not_true, Bool.false_and,
          Bool.false_eq_true, if_false, ih]
      · simp only [List.map_cons, List.filter_cons, picked, Bool.false_eq_true, if_false, Bool.not_false, Bool.true_and, ih]

/-- On a sound board every active lease belongs to a stored task, no task has two of them, and every task with one is
leased. -/
structure Sound (board : Board) : Prop where
  distinct : (board.leases.map (·.id)).Nodup
  positive : ∀ task ∈ board.tasks, 0 < task.id
  known : ∀ lease ∈ board.leases, lease.active = true → ∃ task ∈ board.tasks, lease.taskID = some task.id
  single : ∀ taskID, (board.holders taskID).length ≤ 1
  leased : ∀ task ∈ board.tasks, board.held task.id = true → task.status = .leased

/-- On an orderly board only the tasks with an active lease are leased. -/
structure Orderly (board : Board) : Prop extends Sound board where
  held : ∀ task ∈ board.tasks, task.status = .leased → board.held task.id = true

namespace Sound

variable {task : TaskRow} {change : LeaseRow → LeaseRow} {leases : List LeaseRow}

/-- Two active leases of one task are the same. -/
theorem holder_unique (sound : board.Sound) {taskID : ID} {first second : LeaseRow}
    (one : first ∈ board.holders taskID) (two : second ∈ board.holders taskID) : first = second := by
  have few := sound.single taskID
  match held : board.holders taskID, one, two, few with
  | [only], one, two, _ =>
      rw [List.mem_singleton] at one two
      exact one.trans two.symm
  | _ :: _ :: _, _, _, few => exact absurd few (by simp)

/-- A new task waits and nobody holds it. -/
theorem addTask (sound : board.Sound) {run : RunRow} (named : task.id = freshID (board.tasks.map (·.id))) :
    ((board.addRun run).addTask task).Sound where
  distinct := sound.distinct
  positive := by
    intro stored member
    rcases List.mem_append.mp member with old | new
    · exact sound.positive stored old
    · rw [List.mem_singleton.mp new, named]
      exact freshID_pos _
  known := by
    intro lease member active
    obtain ⟨old, stored, refers⟩ := sound.known lease member active
    exact ⟨old, List.mem_append_left _ stored, refers⟩
  single := sound.single
  leased := by
    intro stored member held
    rcases List.mem_append.mp member with old | new
    · exact sound.leased stored old held
    · obtain ⟨lease, holds⟩ := held_iff.mp held
      obtain ⟨present, refers, active⟩ := mem_holders.mp holds
      obtain ⟨old, there, same⟩ := sound.known lease present active
      have taken : stored.id ∈ board.tasks.map (·.id) := by
        rw [Option.some.inj (refers.symm.trans same)]
        exact List.mem_map_of_mem there
      rw [List.mem_singleton.mp new, named] at taken
      exact absurd taken (freshID_not_mem _)

theorem changeRun (sound : board.Sound) (runID : ID) (change : RunRow → RunRow) : (board.changeRun runID change).Sound :=
  ⟨sound.distinct, sound.positive, sound.known, sound.single, sound.leased⟩

/-- Tasks that are not leased may get any status. -/
theorem changeTasks (sound : board.Sound) {chosen : TaskRow → Bool} (status : TaskStatus)
    (free : ∀ task, chosen task = true → task.status ≠ .leased) : (board.changeTasks chosen status).Sound where
  distinct := sound.distinct
  positive := by
    intro task member
    obtain ⟨old, stored, rfl⟩ := List.mem_map.mp member
    split <;> exact sound.positive old stored
  known := by
    intro lease member active
    obtain ⟨old, stored, refers⟩ := sound.known lease member active
    refine ⟨_, List.mem_map_of_mem stored, ?_⟩
    split <;> exact refers
  single := sound.single
  leased := by
    intro task member held
    obtain ⟨old, stored, rfl⟩ := List.mem_map.mp member
    split at held
    · rename_i picked
      exact absurd (sound.leased old stored held) (free old picked)
    · rename_i passed
      rw [if_neg passed]
      exact sound.leased old stored held

/-- A lease is given for a stored task that nobody holds. -/
theorem grant (sound : board.Sound) (stored : task ∈ board.tasks) (free : board.held task.id = false)
    (fresh : board.Fresh lease task) : (board.grant lease task.id).Sound := by
  obtain ⟨named, refers, _, active⟩ := fresh
  have none : board.holders task.id = [] := by
    rw [List.eq_nil_iff_forall_not_mem]
    intro holder holds
    rw [held_iff.mpr ⟨holder, holds⟩] at free
    cases free
  constructor
  · rw [grant_leases]
    exact Table.nodup_append_fresh sound.distinct (named ▸ freshID_not_mem _)
  · intro later member
    obtain ⟨old, known, rfl⟩ := mem_setStatus.mp member
    split <;> exact sound.positive old known
  · intro other member isActive
    have owned : ∃ old ∈ board.tasks, other.taskID = some old.id := by
      rw [grant_leases] at member
      rcases List.mem_append.mp member with old | new
      · exact sound.known other old isActive
      · rw [List.mem_singleton.mp new]
        exact ⟨task, stored, refers⟩
    obtain ⟨old, known, owns⟩ := owned
    obtain ⟨later, there, same⟩ := exists_mem_setStatus (board.addLease lease) known task.id .leased
    exact ⟨later, there, same ▸ owns⟩
  · intro taskID
    rw [holders_grant refers active]
    split
    · rename_i same
      rw [same, none]
      exact le_refl 1
    · rw [List.append_nil]
      exact sound.single taskID
  · intro later member held
    obtain ⟨old, known, rfl⟩ := mem_setStatus.mp member
    split at held
    · rename_i picked
      rw [if_pos picked]
    · rename_i passed
      have other : old.id ≠ task.id := fun same => passed ⟨(sound.positive task stored).ne', same⟩
      rw [held_iff, holders_grant refers active, if_neg other, List.append_nil, ← held_iff] at held
      rw [if_neg passed]
      exact sound.leased old known held

/-- Leases are ended beside their tasks. -/
theorem changeLeases (sound : board.Sound) {chosen : LeaseRow → Bool} (keeps : ∀ lease, (change lease).id = lease.id)
    (ends : ∀ lease, (change lease).active = false) :
    (board.changeLeases chosen change).Sound where
  distinct := by
    refine Table.nodup_map ?_ sound.distinct
    intro lease
    split
    · exact keeps lease
    · rfl
  positive := sound.positive
  known := by
    intro lease member active
    obtain ⟨before, present, rfl⟩ := List.mem_map.mp member
    split at active
    · rw [ends] at active
      cases active
    · rename_i spared
      rw [if_neg spared]
      exact sound.known before present active
  single := by
    intro taskID
    rw [holders_changeLeases ends]
    exact le_trans (List.length_filter_le _ _) (sound.single taskID)
  leased := by
    intro task member held
    obtain ⟨lease, holds⟩ := held_iff.mp held
    rw [holders_changeLeases ends] at holds
    exact sound.leased task member (held_iff.mpr ⟨lease, (List.mem_filter.mp holds).1⟩)

/-- Exactly the leases that are not ended hold their tasks. -/
theorem holder_endAll (sound : board.Sound) {status : TaskStatus} (stored : ∀ lease ∈ leases, lease ∈ board.leases)
    (ends : ∀ lease, (change lease).active = false) {taskID : ID} :
    lease ∈ (board.endAll leases change status).holders taskID ↔ lease ∈ board.holders taskID ∧ lease ∉ leases := by
  have same : (board.endAll leases change status).holders taskID =
      (board.changeLeases (fun lease => leases.any (·.id == lease.id)) change).holders taskID := by
    unfold Board.holders Board.endAll
    rw [setStatuses_leases]
  rw [same, holders_changeLeases ends, List.mem_filter]
  refine and_congr_right fun holds => ?_
  -- the leases are chosen by their identifiers, which are distinct
  have chosen_iff : leases.any (·.id == lease.id) = true ↔ lease ∈ leases := by
    rw [List.any_eq_true]
    constructor
    · intro found
      obtain ⟨other, listed, twin⟩ := found
      have equal : other = lease :=
        List.inj_on_of_nodup_map sound.distinct (stored other listed) (mem_holders.mp holds).1 (beq_iff_eq.mp twin)
      exact equal ▸ listed
    · intro listed
      exact ⟨lease, listed, beq_self_eq_true _⟩
  rw [← chosen_iff]
  simp

theorem mem_endAll {status : TaskStatus} :
    task ∈ (board.endAll leases change status).tasks ↔
      ∃ old ∈ board.tasks, (if Subject leases old.id then { old with status := status } else old) = task := by
  unfold Board.endAll
  rw [setStatuses_tasks, List.mem_map]
  rfl

/-- Active leases are ended and their tasks get another status. -/
theorem endAll (sound : board.Sound) {status : TaskStatus}
    (stored : ∀ lease ∈ leases, lease ∈ board.leases ∧ lease.active = true)
    (keeps : ∀ lease, (change lease).id = lease.id) (ends : ∀ lease, (change lease).active = false) :
    (board.endAll leases change status).Sound := by
  have swept : (board.changeLeases (fun lease => leases.any (·.id == lease.id)) change).Sound :=
    sound.changeLeases keeps ends
  have leasesAfter : (board.endAll leases change status).leases =
      (board.changeLeases (fun lease => leases.any (·.id == lease.id)) change).leases := setStatuses_leases _ _ _
  constructor
  · rw [leasesAfter]
    exact swept.distinct
  · intro task member
    obtain ⟨old, known, rfl⟩ := mem_endAll.mp member
    split <;> exact sound.positive old known
  · intro lease member active
    rw [leasesAfter] at member
    obtain ⟨old, known, refers⟩ := swept.known lease member active
    refine ⟨_, mem_endAll.mpr ⟨old, known, rfl⟩, ?_⟩
    split <;> exact refers
  · intro taskID
    unfold Board.holders
    rw [leasesAfter]
    exact swept.single taskID
  · intro task member held
    obtain ⟨old, known, rfl⟩ := mem_endAll.mp member
    obtain ⟨lease, holds⟩ := held_iff.mp held
    split at holds
    · rename_i subject
      obtain ⟨before, spared⟩ := (sound.holder_endAll (fun lease listed => (stored lease listed).1) ends).mp holds
      obtain ⟨present, other, listed, same⟩ := subject
      have holder : other ∈ board.holders old.id :=
        mem_holders.mpr ⟨(stored other listed).1, (orZero_eq present).mp same, (stored other listed).2⟩
      exact absurd (sound.holder_unique holder before ▸ listed) spared
    · rename_i spared
      obtain ⟨before, _⟩ := (sound.holder_endAll (fun lease listed => (stored lease listed).1) ends).mp holds
      rw [if_neg spared]
      exact sound.leased old known (held_iff.mpr ⟨lease, before⟩)

theorem endLease_eq (lease : LeaseRow) (now : Time) (leaseStatus : GoString) (metadata : Metadata) (status : TaskStatus) :
    board.endLease lease now leaseStatus metadata status =
      board.endAll [lease] (ended now leaseStatus metadata) status := by
  have chosen : (fun other : LeaseRow => other.id == lease.id) = fun other => [lease].any (·.id == other.id) := by
    funext other
    simp [Bool.beq_comm]
  unfold Board.endLease Board.endAll
  rw [chosen]
  rfl

theorem ended_inactive (now : Time) {status : GoString} (metadata : Metadata) (past : status ≠ bytes "active")
    (lease : LeaseRow) : (ended now status metadata lease).active = false :=
  beq_eq_false_iff_ne.mpr past

/-- An active lease is ended with a status that is not active, and its task gets a status. -/
theorem endLease (sound : board.Sound) (stored : lease ∈ board.leases) (active : lease.active = true) (now : Time)
    {leaseStatus : GoString} (metadata : Metadata) (status : TaskStatus) (past : leaseStatus ≠ bytes "active") :
    (board.endLease lease now leaseStatus metadata status).Sound := by
  rw [endLease_eq]
  refine sound.endAll ?_ (fun _ => rfl) (ended_inactive now metadata past)
  intro other listed
  rw [List.mem_singleton.mp listed]
  exact ⟨stored, active⟩

theorem finish_eq (fresh : board.Fresh lease task) (now : Time) (metadata : Metadata) (status : TaskStatus) :
    board.finish lease task now metadata status =
      (board.grant lease task.id).endLease lease now (bytes "completed") metadata status := by
  unfold Board.finish Board.endLease
  rw [fresh.2.1]
  rfl

theorem granted_mem (board : Board) (lease : LeaseRow) (taskID : ID) : lease ∈ (board.grant lease taskID).leases := by
  rw [grant_leases]
  exact List.mem_append_right _ (List.mem_singleton_self lease)

/-- A task that nobody holds is leased, and the lease is completed at once. -/
theorem finish (sound : board.Sound) (stored : task ∈ board.tasks) (free : board.held task.id = false)
    (fresh : board.Fresh lease task) (now : Time) (metadata : Metadata) (status : TaskStatus) :
    (board.finish lease task now metadata status).Sound := by
  rw [finish_eq fresh]
  exact (sound.grant stored free fresh).endLease (granted_mem board lease task.id) fresh.2.2.2 now metadata status
    (by decide)

theorem control (sound : board.Sound) (run : RunRow) (now : Time) (status : RunStatus) (options : RunControlOptions) :
    (board.control run now status options).Sound := by
  unfold Board.control
  dsimp only
  split
  · exact sound.changeRun run.id _
  · refine (sound.changeRun run.id _).changeTasks _ ?_
    intro task chosen leased
    simp [leased, TaskStatus.waits] at chosen

end Sound

/-- A lease that is active after a sweep was not swept. -/
theorem mem_of_active {chosen : LeaseRow → Bool} {status : GoString} {metadata : Metadata}
    (past : status ≠ bytes "active") (present : lease ∈ (board.changeLeases chosen (ended now status metadata)).leases)
    (active : lease.active = true) :
    lease ∈ board.leases ∧ chosen lease = false := by
  obtain ⟨old, stored, rfl⟩ := List.mem_map.mp present
  split at active
  · rw [Sound.ended_inactive now metadata past] at active
    cases active
  · rename_i spared
    rw [if_neg spared]
    exact ⟨stored, Bool.eq_false_iff.mpr spared⟩

/-- A lease that is active after another one was given and completed was there before. -/
theorem mem_of_finish {task : TaskRow} {other : LeaseRow} {metadata : Metadata} {status : TaskStatus}
    (present : other ∈ (board.finish lease task now metadata status).leases) (active : other.active = true) :
    other ∈ board.leases := by
  unfold finish at present
  rw [setStatus_leases] at present
  obtain ⟨granted, spared⟩ := mem_of_active (by decide) present active
  rw [grant_leases] at granted
  rcases List.mem_append.mp granted with old | new
  · exact old
  · rw [List.mem_singleton.mp new] at spared
    exact absurd (beq_self_eq_true lease.id) (Bool.eq_false_iff.mp spared)

/-- The rows of a board have distinct identifiers. -/
structure Named (board : Board) : Prop where
  runs : (board.runs.map (·.id)).Nodup
  tasks : (board.tasks.map (·.id)).Nodup
  leases : (board.leases.map (·.id)).Nodup

/-- Expired leases are stored and active. -/
theorem expired_active {limit : Int} (member : lease ∈ board.expired now projectID limit) :
    lease ∈ board.leases ∧ lease.active = true := by
  have sorted := List.mem_of_mem_take member
  rw [List.mem_insertionSort] at sorted
  obtain ⟨stored, fits⟩ := List.mem_filter.mp sorted
  simp only [Bool.and_eq_true] at fits
  exact ⟨stored, fits.1.2⟩

theorem Sound.sweep (sound : board.Sound) (now : Time) (projectID : ID) (limit : Int) (metadata : Metadata) :
    (board.sweep now projectID limit metadata).Sound :=
  sound.changeLeases (fun _ => rfl) (ended_inactive now metadata (by decide))

theorem Sound.sweepIf (sound : board.Sound) (sweeps : Bool) (now : Time) (projectID : ID) (metadata : Metadata) :
    (board.sweepIf sweeps now projectID metadata).Sound := by
  unfold Board.sweepIf
  split
  · exact sound.sweep now projectID 50 metadata
  · exact sound

/-- No lease is released as active. -/
def Releases : Label → Prop
  | .release _ _ status => status ≠ bytes "active"
  | _ => True

/-- A step that releases no lease as active keeps the board sound. -/
theorem Sound.step {after : Board} {label : Label} (sound : board.Sound) (releases : Releases label)
    (step : BoardStep board label after) : after.Sound := by
  cases step with
  | same => exact sound
  | added run task runNamed taskNamed belongs waits kind => exact sound.addTask taskNamed
  | acquired now projectID sweeps metadata task lease known project positive free fresh =>
      have present : task ∈ (board.sweepIf sweeps now projectID metadata).tasks := by
        rw [sweepIf_tasks]
        exact known
      exact (sound.sweepIf sweeps now projectID metadata).grant present free fresh
  | released projectID status now metadata lease known project active =>
      exact sound.endLease known active now metadata _ releases
  | recovered now projectID limit metadata =>
      exact sound.endAll (fun _ listed => expired_active listed) (fun _ => rfl) (ended_inactive now metadata (by decide))
  | swept now projectID runID metadata => exact sound.sweep now projectID 50 metadata
  | ran now projectID runID metadata done task lease waits project chosen dry fresh =>
      exact (sound.sweep now projectID 50 metadata).finish waits.1 waits.2.2 fresh now done .passed
  | executed operation now done task lease change waits queued fresh keeps =>
      exact (sound.finish waits.1 waits.2.2 fresh now done operation.taskDone).changeRun task.runID change
  | controlled run quote now options known allowed => exact sound.control run now _ options

theorem sound_empty : (Database.board {}).Sound where
  distinct := List.nodup_nil
  positive := fun _ member => absurd member List.not_mem_nil
  known := fun _ member => absurd member List.not_mem_nil
  single := fun taskID => by simp [holders, Database.board]
  leased := fun _ member => absurd member List.not_mem_nil

namespace Orderly

variable {task : TaskRow} {status : TaskStatus}

/-- A task is leased exactly if one active lease refers to it. -/
theorem leased_iff (orderly : board.Orderly) (stored : task ∈ board.tasks) :
    task.status = .leased ↔ (board.holders task.id).length = 1 := by
  have few := orderly.single task.id
  have pairs : task.status = .leased ↔ board.held task.id = true :=
    ⟨orderly.held task stored, orderly.leased task stored⟩
  rw [pairs, held_iff, ← List.length_pos_iff_exists_mem]
  omega

theorem addTask (orderly : board.Orderly) {run : RunRow} (named : task.id = freshID (board.tasks.map (·.id)))
    (waits : task.status = .queued) :
    ((board.addRun run).addTask task).Orderly where
  toSound := orderly.toSound.addTask named
  held := by
    intro stored member leased
    rcases List.mem_append.mp member with old | new
    · exact orderly.held stored old leased
    · rw [List.mem_singleton.mp new, waits] at leased
      cases leased

theorem changeRun (orderly : board.Orderly) (runID : ID) (change : RunRow → RunRow) :
    (board.changeRun runID change).Orderly :=
  ⟨orderly.toSound.changeRun runID change, orderly.held⟩

theorem grant (orderly : board.Orderly) (stored : task ∈ board.tasks) (free : board.held task.id = false)
    (fresh : board.Fresh lease task) : (board.grant lease task.id).Orderly where
  toSound := orderly.toSound.grant stored free fresh
  held := by
    intro later member leased
    obtain ⟨old, known, rfl⟩ := mem_setStatus.mp member
    rw [held_iff, holders_grant fresh.2.1 fresh.2.2.2]
    split
    · rename_i picked
      simp [picked.2]
    · rename_i passed
      rw [if_neg passed] at leased
      obtain ⟨holder, holds⟩ := held_iff.mp (orderly.held old known leased)
      exact ⟨holder, List.mem_append_left _ holds⟩

theorem endAll (orderly : board.Orderly) {leases : List LeaseRow} {change : LeaseRow → LeaseRow}
    (stored : ∀ lease ∈ leases, lease ∈ board.leases ∧ lease.active = true)
    (keeps : ∀ lease, (change lease).id = lease.id) (ends : ∀ lease, (change lease).active = false)
    (idle : status ≠ .leased) : (board.endAll leases change status).Orderly where
  toSound := orderly.toSound.endAll stored keeps ends
  held := by
    intro task member leased
    obtain ⟨old, known, rfl⟩ := Sound.mem_endAll.mp member
    split at leased
    · exact absurd leased idle
    · rename_i spared
      rw [if_neg spared]
      have present : old.id ≠ 0 := (orderly.positive old known).ne'
      obtain ⟨lease, holds⟩ := held_iff.mp (orderly.held old known leased)
      refine held_iff.mpr ⟨lease, ?_⟩
      rw [orderly.holder_endAll (fun lease listed => (stored lease listed).1) ends]
      refine ⟨holds, fun listed => spared ?_⟩
      exact ⟨present, lease, listed, (orZero_eq present).mpr (mem_holders.mp holds).2.1⟩

theorem endLease (orderly : board.Orderly) (stored : lease ∈ board.leases) (active : lease.active = true) (now : Time)
    {leaseStatus : GoString} (metadata : Metadata) (past : leaseStatus ≠ bytes "active") (idle : status ≠ .leased) :
    (board.endLease lease now leaseStatus metadata status).Orderly := by
  rw [Sound.endLease_eq]
  refine orderly.endAll ?_ (fun _ => rfl) (Sound.ended_inactive now metadata past) idle
  intro other listed
  rw [List.mem_singleton.mp listed]
  exact ⟨stored, active⟩

theorem finish (orderly : board.Orderly) (stored : task ∈ board.tasks) (free : board.held task.id = false)
    (fresh : board.Fresh lease task) (now : Time) (metadata : Metadata) (idle : status ≠ .leased) :
    (board.finish lease task now metadata status).Orderly := by
  rw [Sound.finish_eq fresh]
  exact (orderly.grant stored free fresh).endLease (Sound.granted_mem board lease task.id) fresh.2.2.2 now metadata
    (by decide) idle

theorem changeTasks (orderly : board.Orderly) {chosen : TaskRow → Bool}
    (free : ∀ task, chosen task = true → task.status ≠ .leased) (idle : status ≠ .leased) :
    (board.changeTasks chosen status).Orderly where
  toSound := orderly.toSound.changeTasks status free
  held := by
    intro task member leased
    obtain ⟨old, stored, rfl⟩ := List.mem_map.mp member
    split at leased
    · exact absurd leased idle
    · rename_i passed
      rw [if_neg passed]
      exact orderly.held old stored leased

theorem control (orderly : board.Orderly) (run : RunRow) (now : Time) (status : RunStatus)
    (options : RunControlOptions) : (board.control run now status options).Orderly := by
  unfold Board.control
  dsimp only
  split
  · exact orderly.changeRun run.id _
  · rename_i taskStatus cancels
    refine (orderly.changeRun run.id _).changeTasks ?_ ?_
    · intro task chosen leased
      simp [leased, TaskStatus.waits] at chosen
    · unfold cancelledTaskStatus at cancels
      split at cancels
      · cases cancels
      · split at cancels <;> cases cancels <;> decide

end Orderly

/-- No lease of a project has run out at a time. -/
def NoneExpired (board : Board) (now : Time) (projectID : ID) : Prop :=
  ∀ lease ∈ board.leases, lease.projectID = projectID → lease.active = true → now ≤ lease.expiresAt

instance (board : Board) (now : Time) (projectID : ID) : Decidable (board.NoneExpired now projectID) :=
  inferInstanceAs (Decidable (∀ lease ∈ board.leases, _))

theorem expired_of_noneExpired (none : board.NoneExpired now projectID) (limit : Int) :
    board.expired now projectID limit = [] := by
  have empty : (board.leases.filter fun lease =>
      lease.projectID == projectID && lease.active && decide (lease.expiresAt < now)) = [] := by
    rw [List.filter_eq_nil_iff]
    intro lease member fits
    simp only [Bool.and_eq_true, beq_iff_eq, decide_eq_true_eq] at fits
    exact absurd fits.2 (not_lt.mpr (none lease member fits.1.1 fits.1.2))
  unfold expired
  rw [empty]
  simp

/-- A sweep finds nothing if no lease has run out. -/
theorem sweep_of_noneExpired (none : board.NoneExpired now projectID) (limit : Int) (metadata : Metadata) :
    board.sweep now projectID limit metadata = board := by
  unfold sweep changeLeases
  rw [expired_of_noneExpired none]
  simp

/-- A step is calm if it does not sweep away a lease beside its task and does not release a lease as active. -/
def Calm (board : Board) : Label → Prop
  | .acquire now projectID _ sweeps => sweeps = true → board.NoneExpired now projectID
  | .runOnce now projectID _ => board.NoneExpired now projectID
  | .release _ _ status => status ≠ bytes "active"
  | _ => True

instance (board : Board) : DecidablePred board.Calm
  | .acquire now projectID _ sweeps => inferInstanceAs (Decidable (sweeps = true → board.NoneExpired now projectID))
  | .runOnce now projectID _ => inferInstanceAs (Decidable (board.NoneExpired now projectID))
  | .release _ _ status => inferInstanceAs (Decidable (status ≠ bytes "active"))
  | .other | .recover .. | .execute _ | .control .. => instDecidableTrue

theorem sweepIf_of_calm {sweeps : Bool} (calm : sweeps = true → board.NoneExpired now projectID) (metadata : Metadata) :
    board.sweepIf sweeps now projectID metadata = board := by
  unfold sweepIf
  split
  · rename_i asked
    exact sweep_of_noneExpired (calm asked) 50 metadata
  · rfl

theorem releasedTaskStatus_ne_leased (status : GoString) : releasedTaskStatus status ≠ .leased := by
  unfold releasedTaskStatus
  split <;> decide

/-- A calm step keeps the board orderly. -/
theorem Orderly.step {after : Board} {label : Label} (orderly : board.Orderly) (calm : board.Calm label)
    (step : BoardStep board label after) : after.Orderly := by
  cases step with
  | same => exact orderly
  | added run task runNamed taskNamed belongs waits kind => exact orderly.addTask taskNamed waits
  | acquired now projectID sweeps metadata task lease known project positive free fresh =>
      rw [sweepIf_of_calm calm] at free fresh ⊢
      exact orderly.grant known free fresh
  | released projectID status now metadata lease known project active =>
      exact orderly.endLease known active now metadata calm (releasedTaskStatus_ne_leased status)
  | recovered now projectID limit metadata =>
      exact orderly.endAll (fun _ listed => expired_active listed) (fun _ => rfl)
        (Sound.ended_inactive now metadata (by decide)) nofun
  | swept now projectID runID metadata =>
      rw [sweep_of_noneExpired calm]
      exact orderly
  | ran now projectID runID metadata done task lease waits project chosen dry fresh =>
      rw [sweep_of_noneExpired calm] at waits fresh ⊢
      exact orderly.finish waits.1 waits.2.2 fresh now done nofun
  | executed operation now done task lease change waits queued fresh keeps =>
      refine (orderly.finish waits.1 waits.2.2 fresh now done ?_).changeRun task.runID change
      cases operation <;> decide
  | controlled run quote now options known allowed => exact orderly.control run now _ options

theorem orderly_empty : (Database.board {}).Orderly where
  toSound := sound_empty
  held := fun _ member => absurd member List.not_mem_nil

end Board

theorem Database.board_named (db : Database) : db.board.Named where
  runs := db.runs.distinct
  tasks := by
    unfold Database.board
    rw [List.map_map]
    exact db.tasks.distinct
  leases := db.leases.distinct

/-- A task is leased if and only if exactly one active lease refers to it. -/
def LeasesCoherent (db : Database) : Prop := ∀ task ∈ db.tasks.rows,
  task.status = .leased ↔ db.leases.rows.countP (fun lease => lease.taskID == some task.id && lease.active) = 1

instance (db : Database) : Decidable (LeasesCoherent db) :=
  inferInstanceAs (Decidable (∀ task ∈ db.tasks.rows, _))

theorem leasesCoherent_of_orderly {db : Database} (orderly : db.board.Orderly) : LeasesCoherent db := by
  intro task stored
  have shown : task.bare ∈ db.board.tasks := List.mem_map_of_mem stored
  have leased := orderly.leased_iff shown
  rw [List.countP_eq_length_filter]
  exact leased

/-- In every run whose effective steps are calm, the leased tasks are those with exactly one active lease. -/
theorem calm_runs_keep_leases_coherent {Files : Type} (env : Env Files) (files : Files) (events : List (WorkEvent Files))
    (calm : Run.Along (workStep env) (OnEffect env Board.Calm) ⟨files, {}⟩ events) :
    LeasesCoherent (Run.final (workStep env) ⟨files, {}⟩ events).db := by
  have keeps (world : World Files) (event : WorkEvent Files) (orderly : world.db.board.Orderly)
      (calm : OnEffect env Board.Calm world event) : (workStep env world event).1.db.board.Orderly :=
    calm.keeps orderly fun calm => orderly.step calm (workStep_board world event)
  have orderly := Run.Along.invariant keeps Board.orderly_empty calm
  exact leasesCoherent_of_orderly orderly

section Installation

/-- An expired lease is recovered together with its task. -/
theorem recoveredFixture_coherent :
    (Run.final (workStep smallHost) ⟨(), {}⟩ (leasedFixture ++
      [callAt (seconds 301) (.recoverExpiredLeases {})])).db.tasks.rows.map (·.status) = [.needsRecovery] ∧
    LeasesCoherent (Run.final (workStep smallHost) ⟨(), {}⟩ (leasedFixture ++
      [callAt (seconds 301) (.recoverExpiredLeases {})])).db :=
  ⟨by decide +kernel, calm_runs_keep_leases_coherent smallHost () _ (by decide +kernel)⟩

/-- A sweep of a worker ends an expired lease beside its task, and a lease that is released as active stays active
beside a queued task. -/
theorem sweptFixture_incoherent :
    ¬ LeasesCoherent (Run.final (workStep smallHost) ⟨(), {}⟩ (leasedFixture ++
      [callAt (seconds 301) (.runWorkerOnce { workerKey := bytes "w" })])).db ∧
    ¬ LeasesCoherent (Run.final (workStep smallHost) ⟨(), {}⟩ (leasedFixture ++
      [callAt 0 (.releaseLease { workerKey := bytes "w", leaseID := 1, status := bytes "active" })])).db := by
  decide +kernel

end Installation

end AreaFlow.Project
