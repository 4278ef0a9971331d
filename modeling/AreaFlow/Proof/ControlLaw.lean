import AreaFlow.Proof.Stopping

namespace AreaFlow.Project
open Go Tx

/-- A control action at a time. -/
structure ControlCall where
  now : Time
  runID : ID
  options : RunControlOptions
  deriving DecidableEq

/-- A run moves along these pairs of statuses. -/
def RunStatus.moves : RunStatus → RunStatus → Bool
  | .queued, .running => true
  | .running, .draining => true
  | .queued, .cancelled => true
  | .running, .cancelling => true
  | .draining, .cancelling => true
  | _, _ => false

/-- An action is in effect on a run with this status. -/
def RunStatus.follows : RunStatus → GoString → Bool
  | .running, action => action == bytes "start"
  | .draining, action => action == bytes "drain"
  | .drained, action => action == bytes "drain"
  | .cancelling, action => action == bytes "cancel"
  | .cancelled, action => action == bytes "cancel"
  | _, _ => false

section Rules

variable {quote : GoString → GoString} {status next : RunStatus} {action message : GoString} {run : RunRow}

/-- The rules call an action already done exactly if it is in effect. -/
theorem runTransition_already_iff :
    (∃ message, runTransition quote status action = .already message) ↔ status.follows action = true := by
  unfold runTransition
  dsimp only
  split
  · rename_i start
    subst start
    cases status <;> simp [RunStatus.follows] <;> decide
  split
  · rename_i drain
    subst drain
    cases status <;> simp [RunStatus.follows] <;> decide
  split
  · rename_i cancel
    subst cancel
    cases status <;> simp [RunStatus.follows] <;> decide
  · rename_i start drain cancel
    cases status <;> simp [RunStatus.follows, start, drain, cancel]

/-- The rules move a run along the pairs of statuses only. -/
theorem runTransition_moves_along (moves : runTransition quote status action = .moves next message) :
    status.moves next = true := by
  unfold runTransition at moves
  dsimp only at moves
  split at moves
  · cases status <;> cases moves
    rfl
  split at moves
  · cases status <;> cases moves
    rfl
  split at moves
  · cases status <;> cases moves <;> rfl
  · cases moves

/-- An action in effect is allowed and leaves the status. -/
theorem evaluateRunControl_follows (quote : GoString → GoString) (follows : run.status.follows action = true) :
    (evaluateRunControl quote run action).decision = .allowed ∧
      (evaluateRunControl quote run action).status = run.status := by
  obtain ⟨message, already⟩ : ∃ message, runTransition quote run.status action = .already message :=
    runTransition_already_iff.mpr follows
  unfold evaluateRunControl
  rw [already]
  exact ⟨rfl, rfl⟩

/-- Any other action is allowed for dry runs only, and it moves the run. -/
theorem evaluateRunControl_moves (allowed : (evaluateRunControl quote run action).decision = .allowed)
    (moves : run.status.follows action = false) :
    run.dryRun = true ∧ run.status.moves (evaluateRunControl quote run action).status = true := by
  unfold evaluateRunControl at allowed ⊢
  cases transition : runTransition quote run.status action with
  | already message =>
      have follows := runTransition_already_iff.mp ⟨message, transition⟩
      rw [moves] at follows
      cases follows
  | moves next message =>
      rw [transition] at allowed
      have along := runTransition_moves_along transition
      cases dry : run.dryRun with
      | false =>
          rw [dry] at allowed
          cases allowed
      | true => exact ⟨rfl, along⟩
  | blocked blocker =>
      rw [transition] at allowed
      cases allowed

end Rules

section Law

variable {Files : Type} (env : Env Files)

/-- This is the run of a control action with its project; without them the action fails. -/
def controlTarget (db : Database) (runID : ID) : Option (RunRow × ProjectRow) :=
  if runID ≤ 0 then none
  else
    (db.runs.rows.find? (·.id == runID)).bind fun run =>
      (loadProjectRecordByID db run.projectID).toOption.map fun record => (run, record)

/-- These are the options of a control action with its key. -/
def controlOptions (runID : ID) (raw : RunControlOptions) : RunControlOptions :=
  let normalized := normalizeRunControlOptions raw
  { normalized with
    idempotencyKey := keyOr normalized.idempotencyKey
      (runControlIdempotencyKey runID normalized (runControlRequestHash env.codec runID normalized)) }

/-- No command with the key of the action is stored. -/
def FreshControl (world : World Files) (call : ControlCall) : Prop :=
  ∀ target ∈ controlTarget world.db call.runID,
    world.db.command target.2.id (runControlCommandType (controlOptions env call.runID call.options).action)
      (controlOptions env call.runID call.options).idempotencyKey = none

instance (world : World Files) (call : ControlCall) : Decidable (FreshControl env world call) :=
  Option.decidableForallMem _

/-- This is a step of a sequence of control actions. -/
def controlStep (world : World Files) (call : ControlCall) :
    World Files × Except StoreError (Answer RunControlResult) :=
  controlled env world call.now call.runID call.options

/-- Only dry runs are controlled, a run moves along the pairs of statuses, and an action that is in effect leaves the
status and the end of the run, and every task. -/
structure ControlLaw (world : World Files) (call : ControlCall) : Prop where
  dryRun : ∀ answer, (controlStep env world call).2 = .ok answer → answer.result.decision = bytes "allowed" →
    ∀ run ∈ world.db.runs.rows, run.id = call.runID → run.dryRun = true
  moves : ∀ run ∈ world.db.runs.rows, ∃ after ∈ (controlStep env world call).1.db.runs.rows, after.id = run.id ∧
    (after.status = run.status ∨ run.status.moves after.status = true)
  still : ∀ run ∈ world.db.runs.rows, run.id = call.runID →
    run.status.follows (trimSpace call.options.action) = true →
    (∃ after ∈ (controlStep env world call).1.db.runs.rows,
      after.id = run.id ∧ after.status = run.status ∧ after.finishedAt = run.finishedAt) ∧
    (controlStep env world call).1.db.tasks.rows = world.db.tasks.rows

/-- An action that is in effect meets a dry run that has not ended or ends now, and a cancel meets no waiting task. -/
def SettledRun (world : World Files) (call : ControlCall) : Prop :=
  ∀ target ∈ controlTarget world.db call.runID, target.1.status.follows (trimSpace call.options.action) = true →
    target.1.dryRun = true ∧
    (target.1.status = .cancelled ∨ target.1.status = .drained → target.1.finishedAt = some call.now) ∧
    (trimSpace call.options.action = bytes "cancel" →
      ∀ task ∈ world.db.tasks.rows, task.runID = call.runID → task.status.waits = false)

instance (world : World Files) (call : ControlCall) : Decidable (SettledRun world call) :=
  Option.decidableForallMem _

variable {env} {world : World Files} {call : ControlCall} {run : RunRow} {record : ProjectRow}

/-- These are the runs after a ruling. -/
def ruledRuns (now : Time) (run : RunRow) (options : RunControlOptions) (ruling : RunControlRuling)
    (runs : Table RunRow (·.id)) : Table RunRow (·.id) :=
  match ruling.decision with
  | .allowed => runs.update (·.id == run.id) ⟨controlledRun now ruling.status options, fun _ => rfl⟩
  | .denied => runs

/-- These are the tasks after a ruling. -/
def ruledTasks (run : RunRow) (action : GoString) (ruling : RunControlRuling) (tasks : Table TaskRow (·.id)) :
    Table TaskRow (·.id) :=
  match ruling.decision, cancelledTaskStatus action ruling.status with
  | .allowed, some status => tasks.update (fun task => task.runID == run.id && task.status.waits) (setStatus status)
  | _, _ => tasks

/-- An action with a new key is answered by the ruling on its run. -/
theorem applyRunControl_ruled (now : Time) (options : RunControlOptions) (files : Files) (db : Database) :
    ∃ answer after, applyRunControl env now record run options files db = (files, .ok (answer, after)) ∧
      answer.result.decision = (evaluateRunControl env.quote run options.action).decision.name ∧
      after.runs = ruledRuns now run options (evaluateRunControl env.quote run options.action) db.runs ∧
      after.tasks = ruledTasks run options.action (evaluateRunControl env.quote run options.action) db.tasks := by
  unfold applyRunControl ruledRuns ruledTasks
  dsimp only
  cases ruled : (evaluateRunControl env.quote run options.action).decision with
  | denied => exact ⟨_, _, rfl, rfl, rfl, rfl⟩
  | allowed =>
      unfold updateRunControlStatus
      cases cancelledTaskStatus options.action (evaluateRunControl env.quote run options.action).status with
      | none => exact ⟨_, _, rfl, rfl, rfl, rfl⟩
      | some status => exact ⟨_, _, rfl, rfl, rfl, rfl⟩

/-- The target of an action is stored under its number. -/
theorem controlTarget_found {db : Database} {runID : ID} (target : controlTarget db runID = some (run, record)) :
    0 < runID ∧ db.runs.rows.find? (·.id == runID) = some run ∧ loadProjectRecordByID db run.projectID = .ok record := by
  unfold controlTarget at target
  split at target
  · cases target
  · rename_i positive
    obtain ⟨found, look, loaded⟩ := Option.bind_eq_some_iff.mp target
    obtain ⟨project, read, same⟩ := Option.map_eq_some_iff.mp loaded
    cases same
    exact ⟨not_le.mp positive, look, Except.ok_of_toOption read⟩

/-- An action without a target fails. -/
theorem controlRun_missed {files : Files} {db : Database} {runID : ID} (now : Time) (options : RunControlOptions)
    (missed : controlTarget db runID = none) :
    ∃ failure, controlRun env now runID options files db = (files, .error failure) := by
  unfold controlTarget at missed
  unfold controlRun
  dsimp only
  split
  · exact ⟨_, rfl⟩
  · rename_i positive
    rw [if_neg positive] at missed
    cases look : db.runs.rows.find? (·.id == runID) with
    | none => exact ⟨_, check_bind_error (by rw [look]) _ _⟩
    | some run =>
        cases outcome : loadProjectRecordByID db run.projectID with
        | error failure => exact ⟨failure, (check_bind_ok (by rw [look]) _ _).trans (check_bind_error (by exact outcome) _ _)⟩
        | ok record =>
            rw [look, Option.bind_some, outcome] at missed
            cases missed

/-- An action without a target fails and changes nothing. -/
theorem controlStep_missed (missed : controlTarget world.db call.runID = none) :
    ∃ failure, controlStep env world call = (world, .error failure) := by
  obtain ⟨failure, failed⟩ : ∃ failure, controlRun env call.now call.runID call.options world.files world.db =
      (world.files, .error failure) := controlRun_missed call.now call.options missed
  refine ⟨failure, ?_⟩
  unfold controlStep controlled workStep World.apply Tx.commit
  dsimp only
  rw [failed]

/-- An action with a target and a new key is answered by the ruling on its run. -/
theorem controlStep_ruled (target : controlTarget world.db call.runID = some (run, record))
    (fresh : FreshControl env world call) :
    ∃ answer, (controlStep env world call).2 = .ok answer ∧
      answer.result.decision = (evaluateRunControl env.quote run (trimSpace call.options.action)).decision.name ∧
      (controlStep env world call).1.db.runs = ruledRuns call.now run (controlOptions env call.runID call.options)
        (evaluateRunControl env.quote run (trimSpace call.options.action)) world.db.runs ∧
      (controlStep env world call).1.db.tasks = ruledTasks run (trimSpace call.options.action)
        (evaluateRunControl env.quote run (trimSpace call.options.action)) world.db.tasks := by
  obtain ⟨positive, look, loaded⟩ := controlTarget_found target
  have absent := fresh _ target
  have starts : controlRun env call.now call.runID call.options world.files world.db =
      applyRunControl env call.now record run (controlOptions env call.runID call.options) world.files
        (world.db.reserved record.id (runControlCommandType (controlOptions env call.runID call.options).action)
          (controlOptions env call.runID call.options).idempotencyKey
          (runControlRequestHash env.codec call.runID (normalizeRunControlOptions call.options))) := by
    unfold controlRun
    dsimp only
    rw [if_neg (not_le.mpr positive)]
    apply (check_bind_ok (by rw [look]) _ _).trans
    apply (check_bind_ok (by exact loaded) _ _).trans
    exact once_new absent world.files
  obtain ⟨answer, after, applied, decided, runs, tasks⟩ :=
    @applyRunControl_ruled Files env run record call.now (controlOptions env call.runID call.options) world.files
      (world.db.reserved record.id (runControlCommandType (controlOptions env call.runID call.options).action)
        (controlOptions env call.runID call.options).idempotencyKey
        (runControlRequestHash env.codec call.runID (normalizeRunControlOptions call.options)))
  rw [applied] at starts
  unfold controlStep controlled workStep World.apply Tx.commit
  dsimp only
  rw [starts]
  exact ⟨answer, rfl, decided, runs, tasks⟩

/-- A run is a row of its own number after a ruling. -/
theorem mem_ruledRuns (now : Time) (run : RunRow) (options : RunControlOptions) (ruling : RunControlRuling)
    {row : RunRow} {runs : Table RunRow (·.id)} (stored : row ∈ runs.rows) :
    (ruling.decision = .allowed ∧ row.id = run.id ∧
      controlledRun now ruling.status options row ∈ (ruledRuns now run options ruling runs).rows) ∨
    ((ruling.decision = .denied ∨ row.id ≠ run.id) ∧ row ∈ (ruledRuns now run options ruling runs).rows) := by
  unfold ruledRuns
  cases ruling.decision with
  | denied => exact Or.inr ⟨Or.inl rfl, stored⟩
  | allowed =>
      by_cases named : row.id = run.id
      · exact Or.inl ⟨rfl, named, List.mem_map.mpr ⟨row, stored, by simp [named]⟩⟩
      · exact Or.inr ⟨Or.inr named, List.mem_map.mpr ⟨row, stored, by simp [named]⟩⟩

/-- A control action moves runs along the pairs of statuses, whatever it meets. -/
theorem controlStep_moves (fresh : FreshControl env world call) {row : RunRow} (stored : row ∈ world.db.runs.rows) :
    ∃ after ∈ (controlStep env world call).1.db.runs.rows, after.id = row.id ∧
      (after.status = row.status ∨ row.status.moves after.status = true) := by
  cases target : controlTarget world.db call.runID with
  | none =>
      obtain ⟨failure, failed⟩ : ∃ failure, controlStep env world call = (world, .error failure) := controlStep_missed target
      rw [failed]
      exact ⟨row, stored, rfl, Or.inl rfl⟩
  | some found =>
      obtain ⟨run, record⟩ := found
      obtain ⟨answer, answered, decided, runs, tasks⟩ := controlStep_ruled target fresh
      rw [runs]
      rcases mem_ruledRuns call.now run (controlOptions env call.runID call.options)
        (evaluateRunControl env.quote run (trimSpace call.options.action)) stored with ⟨allowed, named, changed⟩ | ⟨_, kept⟩
      · have same : row = run := world.db.runs.unique stored (List.mem_of_find?_eq_some (controlTarget_found target).2.1) named
        subst same
        refine ⟨_, changed, rfl, ?_⟩
        cases follows : row.status.follows (trimSpace call.options.action) with
        | true => exact Or.inl (evaluateRunControl_follows env.quote follows).2
        | false => exact Or.inr (evaluateRunControl_moves allowed follows).2
      · exact ⟨row, kept, rfl, Or.inl rfl⟩

/-- A control action leaves the end of a run that keeps its status exactly if the run has not ended or ends now. -/
theorem controlledFinish_same {now : Time} :
    controlledFinish now run.status run = run.finishedAt ↔
      (run.status = .cancelled ∨ run.status = .drained → run.finishedAt = some now) := by
  unfold controlledFinish
  split
  · rename_i ended
    exact ⟨fun same _ => same.symm, fun ends => (ends ended).symm⟩
  · rename_i runs
    simp [runs]

/-- A cancel that is in effect sets waiting tasks to a status that does not wait. -/
theorem cancelledTaskStatus_follows {status : RunStatus} (follows : status.follows (bytes "cancel") = true) :
    ∃ next, cancelledTaskStatus (bytes "cancel") status = some next ∧ next.waits = false := by
  revert follows
  cases status with
  | cancelled => exact fun _ => ⟨.cancelled, rfl, rfl⟩
  | cancelling => exact fun _ => ⟨.cancelRequested, rfl, rfl⟩
  | _ => decide

/-- Setting the status of the waiting tasks of a run leaves the tasks exactly if none waits. -/
theorem setWaiting_same {runID : ID} {next : TaskStatus} (idle : next.waits = false) (tasks : Table TaskRow (·.id)) :
    (tasks.update (fun task => task.runID == runID && task.status.waits) (setStatus next)).rows = tasks.rows ↔
      ∀ task ∈ tasks.rows, task.runID = runID → task.status.waits = false := by
  have pointwise : (tasks.update (fun task => task.runID == runID && task.status.waits) (setStatus next)).rows =
      tasks.rows ↔ ∀ task ∈ tasks.rows,
        (if (task.runID == runID && task.status.waits) = true then (setStatus next).apply task else task) = id task := by
    rw [← List.map_inj_left, List.map_id]
    rfl
  rw [pointwise]
  apply forall₂_congr
  intro task _
  constructor
  · intro same named
    by_contra waits
    rw [if_pos (by simpa [named] using waits)] at same
    rw [show task.status = next from (congrArg TaskRow.status same).symm] at waits
    exact waits idle
  · intro still
    rw [if_neg (by simpa using still)]
    rfl

/-- An action that is in effect leaves the tasks exactly if it is not a cancel or none of the run waits. -/
theorem ruledTasks_same {action : GoString} {ruling : RunControlRuling} {tasks : Table TaskRow (·.id)}
    (allowed : ruling.decision = .allowed) (follows : ruling.status.follows action = true) :
    (ruledTasks run action ruling tasks).rows = tasks.rows ↔
      (action = bytes "cancel" → ∀ task ∈ tasks.rows, task.runID = run.id → task.status.waits = false) := by
  unfold ruledTasks
  rw [allowed]
  by_cases cancel : action = bytes "cancel"
  · subst cancel
    obtain ⟨next, chosen, idle⟩ := cancelledTaskStatus_follows follows
    rw [chosen]
    exact (setWaiting_same idle tasks).trans ⟨fun none _ => none, fun none => none rfl⟩
  · have keeps : cancelledTaskStatus action ruling.status = none := if_pos cancel
    rw [keeps]
    exact ⟨fun _ cancels => absurd cancels cancel, fun _ => rfl⟩

theorem Ruling.eq_allowed_of_name {ruling : Ruling} (allowed : ruling.name = bytes "allowed") : ruling = .allowed := by
  cases ruling with
  | allowed => rfl
  | denied => exact absurd allowed (by decide)

/-- An action that is in effect leaves the run and the tasks exactly if the run has not ended or ends now, and no task
waits for a cancel. -/
theorem controlStep_still_iff (target : controlTarget world.db call.runID = some (run, record))
    (fresh : FreshControl env world call) (follows : run.status.follows (trimSpace call.options.action) = true) :
    ((∃ after ∈ (controlStep env world call).1.db.runs.rows,
        after.id = run.id ∧ after.status = run.status ∧ after.finishedAt = run.finishedAt) ∧
      (controlStep env world call).1.db.tasks.rows = world.db.tasks.rows) ↔
    (run.status = .cancelled ∨ run.status = .drained → run.finishedAt = some call.now) ∧
    (trimSpace call.options.action = bytes "cancel" →
      ∀ task ∈ world.db.tasks.rows, task.runID = run.id → task.status.waits = false) := by
  obtain ⟨answer, answered, decided, runs, tasks⟩ := controlStep_ruled target fresh
  obtain ⟨_, look, _⟩ := controlTarget_found target
  obtain ⟨allowed, kept⟩ := evaluateRunControl_follows env.quote follows
  rw [runs, tasks]
  refine and_congr ?_ (ruledTasks_same allowed (kept.symm ▸ follows))
  rcases mem_ruledRuns call.now run (controlOptions env call.runID call.options)
    (evaluateRunControl env.quote run (trimSpace call.options.action)) (List.mem_of_find?_eq_some look)
    with ⟨_, _, changed⟩ | ⟨denied | other, _⟩
  · rw [← controlledFinish_same]
    constructor
    · rintro ⟨after, stored, same, _, ends⟩
      have equal := Table.unique stored changed same
      rw [equal] at ends
      rw [← ends, ← kept]
      rfl
    · intro ends
      refine ⟨_, changed, rfl, kept, ?_⟩
      rw [← ends, ← kept]
      rfl
  · rw [allowed] at denied
    cases denied
  · exact absurd rfl other

/-- A control action with a new key keeps the law exactly if it finds the run settled. -/
theorem controlLaw_iff_settledRun (fresh : FreshControl env world call) :
    ControlLaw env world call ↔ SettledRun world call := by
  cases target : controlTarget world.db call.runID with
  | none =>
      obtain ⟨failure, failed⟩ : ∃ failure, controlStep env world call = (world, .error failure) := controlStep_missed target
      refine ⟨fun _ found isTarget => ?_, fun _ => ⟨fun answer answered => ?_, fun row => controlStep_moves fresh, ?_⟩⟩
      · rw [target] at isTarget
        cases isTarget
      · rw [failed] at answered
        cases answered
      · rw [failed]
        exact fun row stored _ _ => ⟨⟨row, stored, rfl, rfl, rfl⟩, rfl⟩
  | some found =>
      obtain ⟨run, record⟩ := found
      obtain ⟨answer, answered, decided, runs, tasks⟩ := controlStep_ruled target fresh
      obtain ⟨_, look, _⟩ := controlTarget_found target
      have stored : run ∈ world.db.runs.rows := List.mem_of_find?_eq_some look
      have named : run.id = call.runID := by simpa using List.find?_some look
      have only : ∀ row ∈ world.db.runs.rows, row.id = call.runID → row = run := fun row isStored isNamed =>
        world.db.runs.unique isStored stored (isNamed.trans named.symm)
      constructor
      · intro law found isTarget follows
        cases target.symm.trans isTarget
        obtain ⟨allowed, _⟩ := evaluateRunControl_follows env.quote follows
        rw [allowed] at decided
        rw [← named]
        exact ⟨law.dryRun answer answered decided run stored named,
          (controlStep_still_iff target fresh follows).mp (law.still run stored named follows)⟩
      · intro settled
        refine ⟨fun given isAnswer allowed row isStored isNamed => ?_, fun row => controlStep_moves fresh,
          fun row isStored isNamed follows => ?_⟩
        · cases only row isStored isNamed
          cases Except.ok.inj (answered.symm.trans isAnswer)
          have ruled := Ruling.eq_allowed_of_name (decided.symm.trans allowed)
          cases follows : run.status.follows (trimSpace call.options.action) with
          | true => exact (settled _ target follows).1
          | false => exact (evaluateRunControl_moves ruled follows).1
        · cases only row isStored isNamed
          obtain ⟨_, ends, idle⟩ := settled _ target follows
          exact (controlStep_still_iff target fresh follows).mpr ⟨ends, named ▸ idle⟩

/-- A sequence of control actions with new keys keeps the law exactly if every action finds its run settled. -/
theorem controls_keep_law_iff (env : Env Files) (world : World Files) (calls : List ControlCall)
    (fresh : Run.Along (controlStep env) (FreshControl env) world calls) :
    Run.Along (controlStep env) (ControlLaw env) world calls ↔ Run.Along (controlStep env) SettledRun world calls :=
  Run.Along.congr_under (fun _ _ isFresh => controlLaw_iff_settledRun isFresh) fresh

end Law

section Installation

/-- A dry run is drained and then cancelled. -/
theorem drainedRun_keeps_law :
    Run.Along (controlStep smallHost) (FreshControl smallHost) runningFixture
      [⟨5, 1, { action := bytes "drain" }⟩, ⟨9, 1, { action := bytes "cancel" }⟩] ∧
    Run.Along (controlStep smallHost) (ControlLaw smallHost) runningFixture
      [⟨5, 1, { action := bytes "drain" }⟩, ⟨9, 1, { action := bytes "cancel" }⟩] := by
  have fresh : Run.Along (controlStep smallHost) (FreshControl smallHost) runningFixture
      [⟨5, 1, { action := bytes "drain" }⟩, ⟨9, 1, { action := bytes "cancel" }⟩] := by
    decide +kernel
  exact ⟨fresh, (controls_keep_law_iff smallHost runningFixture _ fresh).mpr (by decide +kernel)⟩

/-- This is the installation with another run. -/
def runFixture (change : RunRow → RunRow) (keeps : ∀ run, (change run).id = run.id) : World Unit :=
  { runningFixture with
    db := { runningFixture.db with runs := runningFixture.db.runs.update (fun _ => true) ⟨change, keeps⟩ } }

/-- A dry run waits to be started. -/
def queuedDryRun : World Unit := runFixture (fun run => { run with status := .queued }) fun _ => rfl

/-- A run that is no dry run is under way. -/
def runningRealRun : World Unit := runFixture (fun run => { run with dryRun := false }) fun _ => rfl

/-- A second cancel moves the end of a cancelled run, and a run that is no dry run may be started when it runs. -/
theorem secondCancel_moves_end :
    (Run.Along (controlStep smallHost) (FreshControl smallHost) queuedDryRun
        [⟨5, 1, { action := bytes "cancel" }⟩, ⟨9, 1, { action := bytes "cancel", idempotencyKey := bytes "again" }⟩] ∧
      (Run.final (controlStep smallHost) queuedDryRun [⟨5, 1, { action := bytes "cancel" }⟩]).db.runs.rows.map
        (·.finishedAt) = [some 5] ∧
      (Run.final (controlStep smallHost) queuedDryRun [⟨5, 1, { action := bytes "cancel" }⟩,
        ⟨9, 1, { action := bytes "cancel", idempotencyKey := bytes "again" }⟩]).db.runs.rows.map
        (·.finishedAt) = [some 9] ∧
      ¬ Run.Along (controlStep smallHost) (ControlLaw smallHost) queuedDryRun
        [⟨5, 1, { action := bytes "cancel" }⟩, ⟨9, 1, { action := bytes "cancel", idempotencyKey := bytes "again" }⟩]) ∧
    FreshControl smallHost runningRealRun ⟨5, 1, { action := bytes "start" }⟩ ∧
    (controlStep smallHost runningRealRun ⟨5, 1, { action := bytes "start" }⟩).2.toOption.map (·.result.decision) =
      some (bytes "allowed") ∧
    ¬ ControlLaw smallHost runningRealRun ⟨5, 1, { action := bytes "start" }⟩ := by
  have fresh : Run.Along (controlStep smallHost) (FreshControl smallHost) queuedDryRun
      [⟨5, 1, { action := bytes "cancel" }⟩, ⟨9, 1, { action := bytes "cancel", idempotencyKey := bytes "again" }⟩] := by
    decide +kernel
  have start : FreshControl smallHost runningRealRun ⟨5, 1, { action := bytes "start" }⟩ := by decide +kernel
  refine ⟨⟨fresh, by decide +kernel, by decide +kernel, fun law => ?_⟩, start, by decide +kernel, fun law => ?_⟩
  · have settled := (controlLaw_iff_settledRun fresh.2.1).mp law.2.1
    exact absurd settled (by decide +kernel)
  · have settled := (controlLaw_iff_settledRun start).mp law
    exact absurd settled (by decide +kernel)

end Installation

end AreaFlow.Project
