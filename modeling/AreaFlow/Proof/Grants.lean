import AreaFlow.Proof.Metadata
import AreaFlow.Proof.Persistence
import AreaFlow.Proof.Progress

namespace AreaFlow.Project
open Go Tx

set_option synthInstance.maxSize 2048

/-- A stored command acquired a lease for a worker by a request. -/
structure Acquired {Files : Type} (env : Env Files) (row : CommandRow) (record : ProjectRow) (options : AcquireLeaseOptions)
    (lease : LeaseRow) (worker : WorkerRow) : Prop where
  hashed : row.requestHash = leaseAcquireRequestHash env.codec record options
  named : lease.id = metadataInt64 row.response (bytes "lease_id")
  project : lease.projectID = row.projectID
  task : lease.taskID = some options.runTaskID
  given : lease.workerID = some worker.id
  employer : worker.projectID = row.projectID
  key : worker.workerKey = options.workerKey

/-- Every command that acquired a lease names one that was given to the worker of the request. All requests meet a
condition. -/
def Granted {Files : Type} (env : Env Files) (asked : ProjectRow → AcquireLeaseOptions → Prop) (db : Database) : Prop :=
  ∀ row ∈ db.commands, row.commandType = bytes "lease.acquire" → row.completed = true →
    metadataString row.response (bytes "decision") ≠ bytes "denied" →
      ∃ record options, asked record options ∧
        ∃ lease ∈ db.leases.rows, ∃ worker ∈ db.workers.rows, Acquired env row record options lease worker

/-- A step leaves the commands that acquire leases. -/
abbrev SameGrants : Database → Database → Prop := SameCommands fun _ commandType _ => commandType == bytes "lease.acquire"

section Invariant

variable {Files A : Type} {env : Env Files} {now : Time} {record : ProjectRow} {projectID : ID} {key hash : GoString}
  {asked : ProjectRow → AcquireLeaseOptions → Prop}

/-- An acquired lease and its worker may be changed, as long as they refer to the same rows. -/
theorem Acquired.move {row : CommandRow} {options : AcquireLeaseOptions} {lease later : LeaseRow} {worker other : WorkerRow}
    (acquired : Acquired env row record options lease worker)
    (sameLease : (later.id, later.projectID, later.taskID, later.workerID) =
      (lease.id, lease.projectID, lease.taskID, lease.workerID))
    (sameWorker : (other.id, other.projectID, other.workerKey) = (worker.id, worker.projectID, worker.workerKey)) :
    Acquired env row record options later other := by
  simp only [Prod.mk.injEq] at sameLease sameWorker
  obtain ⟨id, project, task, given⟩ := sameLease
  obtain ⟨workerID, employer, workerKey⟩ := sameWorker
  exact ⟨acquired.hashed, id.trans acquired.named, project.trans acquired.project, task.trans acquired.task,
    by rw [given, acquired.given, workerID], employer.trans acquired.employer, workerKey.trans acquired.key⟩

theorem Granted.move {db db' : Database} (same : SameGrants db db') (persists : Persists db db')
    (granted : Granted env asked db) : Granted env asked db' := by
  intro row stored acquires completed allowed
  have before : row ∈ db.commands := (same.mem_iff (beq_iff_eq.mpr acquires)).mp stored
  obtain ⟨record, options, asks, lease, there, worker, known, acquired⟩ := granted row before acquires completed allowed
  obtain ⟨later, present, sameLease⟩ := persists.leases lease there
  obtain ⟨other, hired, sameWorker⟩ := persists.workers worker known
  exact ⟨record, options, asks, later, present, other, hired, acquired.move sameLease sameWorker⟩

theorem granted_of_same {command : Command Files A} [Moves SameGrants command] [Moves Persists command] :
    Keeps (Granted env asked) command :=
  Moves.keepsBoth fun _ _ => Granted.move

/-- A lease is being acquired: its command is reserved, and some workers and leases are stored. -/
structure Acquiring (env : Env Files) (asked : ProjectRow → AcquireLeaseOptions → Prop) (projectID : ID) (key hash : GoString) (workers : List WorkerRow)
    (leases : List LeaseRow) (db : Database) : Prop where
  granted : Granted env asked db
  keyed : ∀ row ∈ db.commands, row.projectID = projectID → row.commandType = bytes "lease.acquire" →
    row.idempotencyKey = key → row.requestHash = hash
  workers : ∀ worker ∈ workers, ∃ row ∈ db.workers.rows,
    (row.id, row.projectID, row.workerKey) = (worker.id, worker.projectID, worker.workerKey)
  leases : ∀ lease ∈ leases, ∃ row ∈ db.leases.rows,
    (row.id, row.projectID, row.taskID, row.workerID) = (lease.id, lease.projectID, lease.taskID, lease.workerID)

theorem acquiring_of_same {command : Command Files A} [Moves SameGrants command] [Moves Persists command]
    {workers : List WorkerRow} {leases : List LeaseRow} :
    Keeps (Acquiring env asked projectID key hash workers leases) command := by
  refine Moves.keepsBoth fun db db' (same : SameGrants db db') (persists : Persists db db') acquiring => ?_
  refine ⟨acquiring.granted.move same persists, fun row stored project acquires named => ?_, fun worker listed => ?_,
    fun lease listed => ?_⟩
  · exact acquiring.keyed row ((same.mem_iff (beq_iff_eq.mpr acquires)).mp stored) project acquires named
  · obtain ⟨row, stored, equal⟩ := acquiring.workers worker listed
    obtain ⟨later, present, kept⟩ := persists.workers row stored
    exact ⟨later, present, kept.trans equal⟩
  · obtain ⟨row, stored, equal⟩ := acquiring.leases lease listed
    obtain ⟨later, present, kept⟩ := persists.leases row stored
    exact ⟨later, present, kept.trans equal⟩

/-- A new reservation has the hash of its request; an old one changes nothing. -/
theorem reserve_granted :
    Meets (Granted env asked) (reserve projectID (bytes "lease.acquire") key hash : Command Files Bool) fun created db =>
      if created then Acquiring env asked projectID key hash [] [] db else Granted env asked db := by
  intro files db files' created db' granted run
  unfold reserve at run
  split at run
  · rename_i commands reserved
    cases run
    unfold reserveCommandRequest at reserved
    split at reserved
    · rename_i absent
      cases reserved
      refine ⟨fun row stored acquires completed allowed => ?_, fun row stored project acquires named => ?_,
        fun _ listed => absurd listed List.not_mem_nil, fun _ listed => absurd listed List.not_mem_nil⟩
      · rcases List.mem_append.mp stored with old | new
        · exact granted row old acquires completed allowed
        · rw [List.mem_singleton.mp new] at completed
          cases completed
      · rcases List.mem_append.mp stored with old | new
        · have missed := List.find?_eq_none.mp absent row old
          simp [project, acquires, named] at missed
        · rw [List.mem_singleton.mp new]
    · split at reserved <;> cases reserved
  · cases run
    exact granted
  · cases run

/-- A response may be stored if it is a denial or names a lease of the request. -/
theorem complete_granted {workers : List WorkerRow} {leases : List LeaseRow} {response : Metadata}
    (tells : metadataString response (bytes "decision") = bytes "denied" ∨
      ∃ record options, asked record options ∧ ∃ lease ∈ leases, ∃ worker ∈ workers,
        Acquired env ⟨projectID, bytes "lease.acquire", key, hash, response, true⟩ record options lease worker) :
    Meets (Acquiring env asked projectID key hash workers leases)
      (complete projectID (bytes "lease.acquire") key response : Command Files Unit) fun _ => Granted env asked := by
  refine Meets.write fun db acquiring => ?_
  intro row stored acquires completed allowed
  obtain ⟨old, before, rfl⟩ := List.mem_map.mp stored
  split at acquires
  · rename_i named
    rw [if_pos named] at allowed ⊢
    rcases tells with denied | ⟨record, options, asks, lease, listed, worker, known, acquired⟩
    · exact absurd denied allowed
    · obtain ⟨later, present, sameLease⟩ := acquiring.leases lease listed
      obtain ⟨other, hired, sameWorker⟩ := acquiring.workers worker known
      have hashed : old.requestHash = hash := acquiring.keyed old before named.1 named.2.1 named.2.2
      have moved := acquired.move sameLease sameWorker
      exact ⟨record, options, asks, later, present, other, hired, hashed.trans moved.hashed, moved.named,
        moved.project.trans named.1.symm, moved.task, moved.given, moved.employer.trans named.1.symm, moved.key⟩
  · rename_i other
    rw [if_neg other] at completed allowed ⊢
    exact acquiring.granted old before acquires completed allowed

/-- A loaded worker is stored. -/
theorem loadWorkerForUpdate_acquiring {workerKey : GoString} :
    Meets (Acquiring env asked projectID key hash [] []) (loadWorkerForUpdate projectID workerKey : Command Files WorkerRow)
      fun worker db => (worker.projectID = projectID ∧ worker.workerKey = workerKey) ∧
        Acquiring env asked projectID key hash [worker] [] db := by
  refine Meets.consequence loadWorkerForUpdate_found (fun _ acquiring => acquiring) fun worker db found => ?_
  obtain ⟨⟨stored, fits⟩, acquiring⟩ := found
  refine ⟨fits, acquiring.granted, acquiring.keyed, fun other listed => ?_, acquiring.leases⟩
  rw [List.mem_singleton.mp listed]
  exact ⟨worker, stored, rfl⟩

/-- A new lease is stored with what it refers to. -/
theorem insertLeaseForTask_acquiring {worker : WorkerRow} {task : TaskRow} {leaseKind : GoString}
    {capabilities : List GoString} {scope metadata : Metadata} {timeoutSeconds : Int} :
    Meets (Acquiring env asked projectID key hash [worker] [])
      (insertLeaseForTask now projectID worker task leaseKind capabilities scope metadata timeoutSeconds :
        Command Files LeaseRow)
      fun lease db => (lease.projectID = projectID ∧ lease.taskID = some task.id ∧ lease.workerID = some worker.id) ∧
        Acquiring env asked projectID key hash [worker] [lease] db := by
  unfold insertLeaseForTask
  refine Meets.bind acquiring_of_same fun taken => ?_
  split
  · exact Meets.fail
  · intro files db files' lease db' acquiring run
    have still := acquiring_of_same files db files' lease db' acquiring run
    cases run
    refine ⟨⟨rfl, rfl, rfl⟩, still.granted, still.keyed, still.workers, fun other listed => ?_⟩
    rw [List.mem_singleton.mp listed]
    exact ⟨_, Table.mem_insert_self, rfl⟩

/-- A loaded task has the given identifier. -/
theorem loadRunTaskForLease_acquiring {taskID : ID} {workers : List WorkerRow} {leases : List LeaseRow} :
    Meets (Acquiring env asked projectID key hash workers leases) (loadRunTaskForLease projectID taskID : Command Files TaskRow)
      fun task db => task.id = taskID ∧ Acquiring env asked projectID key hash workers leases db := by
  refine Meets.check fun db task acquiring found => ⟨?_, acquiring⟩
  split at found
  · cases found
  split at found
  · cases found
  · rename_i look
    cases found
    have fits := List.find?_some look
    simp only [Bool.and_eq_true, beq_iff_eq] at fits
    exact fits.2

/-- A denied lease is answered as denied. -/
theorem denied_response (rest : Metadata) :
    metadataString (leaseCommandResponse ((bytes "decision", .text (bytes "denied")) :: rest)) (bytes "decision") =
      bytes "denied" := by
  unfold metadataString
  rw [metadataGet_leaseCommandResponse _ (by decide) (by decide), metadataGet_cons, if_pos rfl]

/-- The response of a lease command names the lease. -/
theorem leaseResponse_lease (worker : WorkerRow) (lease : LeaseRow) (created : Bool) :
    metadataInt64 (leaseResponse worker lease created) (bytes "lease_id") = lease.id := by
  unfold metadataInt64 leaseResponse
  rw [metadataGet_leaseCommandResponse _ (by decide) (by decide), metadataGet_cons, if_neg (by decide), metadataGet_cons,
    if_pos rfl]

/-- Every acquired lease is recorded with what it refers to. -/
theorem acquireLease_granted (raw : AcquireLeaseOptions) (asks : asked record (normalizeAcquireLeaseOptions raw)) :
    Keeps (Granted env asked) (acquireLease env now record raw) := by
  unfold acquireLease once
  dsimp only
  refine Meets.bind reserve_granted fun created => ?_
  cases created with
  | false =>
      simp only [Bool.false_eq_true, if_false]
      exact granted_of_same
  | true =>
      simp only [if_true]
      refine Meets.bind loadWorkerForUpdate_acquiring fun worker => Meets.assuming fun facts => ?_
      split
      · unfold denyLease
        refine Meets.bind acquiring_of_same fun _ => ?_
        refine Meets.bind (complete_granted (Or.inl (denied_response _))) fun _ => ?_
        exact Meets.pure fun _ granted => granted
      · refine Meets.bind acquiring_of_same fun _ => ?_
        refine Meets.bind loadRunTaskForLease_acquiring fun task => Meets.assuming fun named => ?_
        refine Meets.bind insertLeaseForTask_acquiring fun lease => Meets.assuming fun made => ?_
        refine Meets.bind acquiring_of_same fun _ => ?_
        refine Meets.bind acquiring_of_same fun _ => Meets.bind acquiring_of_same fun _ => ?_
        refine Meets.bind (complete_granted (Or.inr ?_)) fun _ => Meets.pure fun _ granted => granted
        refine ⟨record, normalizeAcquireLeaseOptions raw, asks, lease, List.mem_singleton_self _, worker,
          List.mem_singleton_self _, rfl, ?_, made.1, ?_, made.2.2, facts.1, facts.2⟩
        · dsimp only
          rw [leaseResponse_lease]
        · rw [made.2.1, named]

/-- Only one call acquires leases by a command. -/
theorem Call.acquires {call : Call} (acquires : call.commandType = some (bytes "lease.acquire")) :
    ∃ options, call = .acquireLease options := by
  cases call with
  | acquireLease options => exact ⟨options, rfl⟩
  | _ =>
      simp only [Call.commandType] at acquires
      exact absurd acquires (by decide)

/-- A request for a lease meets a condition. -/
def Asks (asked : ProjectRow → AcquireLeaseOptions → Prop) (world : World Files) : WorkEvent Files → Prop
  | .call _ _ _ projectKey (.acquireLease options) => ∀ record, world.db.getByKey projectKey = some record →
      asked record (normalizeAcquireLeaseOptions options)
  | _ => True

/-- Every step leaves the acquired leases recorded with what they refer to. -/
theorem workStep_granted (world : World Files) (event : WorkEvent Files) (granted : Granted env asked world.db)
    (asks : Asks asked world event) : Granted env asked (workStep env world event).1.db := by
  have persists : Persists world.db (workStep env world event).1.db := Persists.workStep world event
  cases event with
  | call now sequence seen projectKey call =>
      cases found : world.db.getByKey projectKey with
      | none =>
          rw [workStep_unknown found]
          exact granted
      | some record =>
          rw [workStep_known found] at persists ⊢
          by_cases acquires : call.commandType = some (bytes "lease.acquire")
          · obtain ⟨options, rfl⟩ := Call.acquires acquires
            have keeps : Keeps (Granted env asked) (Call.command env now sequence seen record (.acquireLease options)) :=
              Meets.bind (acquireLease_granted options (asks record found)) fun _ => Meets.pure fun _ holds => holds
            exact keeps.commit (fun _ holds => holds) world.files granted
          · have moves : Moves SameGrants (call.command env now sequence seen record) :=
              call.moves fun commandType named => Once.of_commands fun _ _ => SameCommands.commands
                (beq_eq_false_iff_ne.mpr fun same => acquires (same ▸ named))
            exact granted.move (Moves.commit world.files world.db) persists
  | control now runID options =>
      have other : (runControlCommandType (normalizeRunControlOptions options).action == bytes "lease.acquire") = false := by
        refine beq_eq_false_iff_ne.mpr fun same => ?_
        have start : (bytes "run.").head? = (bytes "lease.acquire").head? := by
          rw [← same]
          rfl
        exact absurd start (by decide)
      have once : Once Files SameGrants (runControlCommandType (normalizeRunControlOptions options).action) :=
        Once.of_commands fun _ _ => SameCommands.commands other
      have moves : Moves SameGrants (controlRun env now runID options) := inferInstance
      exact granted.move (Moves.commit world.files world.db) persists
  | elsewhere files after =>
      refine granted.move (SameCommands.outside fun row acquires => ?_) persists
      unfold workCommand
      rw [beq_iff_eq.mp acquires]
      decide

end Invariant

/-- A lease is held at a time: it is stored, active and not expired, and its task is leased. -/
structure Held (now : Time) (taskID : ID) (lease : LeaseRow) (db : Database) : Prop where
  stored : lease ∈ db.leases.rows
  active : lease.active = true
  unexpired : now < lease.expiresAt
  requested : lease.taskID = some taskID
  leased : ∃ task ∈ db.tasks.rows, task.id = taskID ∧ task.status = .leased

/-- A lease belongs to the worker with a key. -/
def BelongsTo (projectID : ID) (workerKey : GoString) (lease : LeaseRow) (db : Database) : Prop :=
  ∃ worker ∈ db.workers.rows, worker.projectID = projectID ∧ worker.workerKey = workerKey ∧
    lease.workerID = some worker.id

/-- This is the key of a request for a lease. -/
def acquireKey {Files : Type} (env : Env Files) (record : ProjectRow) (raw : AcquireLeaseOptions) : GoString :=
  let options := normalizeAcquireLeaseOptions raw
  keyOr options.idempotencyKey
    (leaseAcquireIdempotencyKey record options (leaseAcquireRequestHash env.codec record options))

/-- This is the lease that a command with a key acquired before. -/
def storedLease (db : Database) (projectID : ID) (key : GoString) : Option LeaseRow :=
  (db.command projectID (bytes "lease.acquire") key).bind fun row =>
    db.leases.rows.find? fun lease =>
      lease.projectID == projectID && lease.id == metadataInt64 row.response (bytes "lease_id")

/-- A request for a lease with the hash of another one is from the same worker for the same task. -/
def ToldApart {Files : Type} (env : Env Files) (record : ProjectRow) (raw : AcquireLeaseOptions) (other : ProjectRow)
    (options : AcquireLeaseOptions) : Prop :=
  leaseAcquireRequestHash env.codec other options =
      leaseAcquireRequestHash env.codec record (normalizeAcquireLeaseOptions raw) →
    options.workerKey = trimSpace raw.workerKey ∧ options.runTaskID = raw.runTaskID

section Acquire

variable {Files : Type} {env : Env Files} {now : Time} {record : ProjectRow} {db : Database}

/-- A new task status is stored with the task. -/
theorem Board.grant_leased {board : Board} {lease : LeaseRow} {task : TaskRow} (known : task ∈ board.tasks)
    (positive : 0 < task.id) : { task with status := .leased } ∈ (board.grant lease task.id).tasks := by
  unfold Board.grant Board.setStatus
  rw [if_neg positive.ne']
  refine List.mem_map.mpr ⟨task, known, ?_⟩
  rw [if_pos (beq_self_eq_true _)]

/-- A granted lease is held after a time before its end. -/
theorem held_of_granted {board : Board} {lease : LeaseRow} {task : TaskRow} (known : task ∈ board.tasks)
    (positive : 0 < task.id) (active : lease.active = true) (unexpired : now < lease.expiresAt)
    (requested : lease.taskID = some task.id) (shown : (board.grant lease task.id).Shown db) :
    Held now task.id lease db := by
  have leases : db.leases.rows = (board.grant lease task.id).leases := congrArg Board.leases shown
  have tasks : db.tasks.rows.map TaskRow.bare = (board.grant lease task.id).tasks := congrArg Board.tasks shown
  refine ⟨?_, active, unexpired, requested, ?_⟩
  · rw [leases]
    unfold Board.grant
    rw [Board.setStatus_leases]
    exact List.mem_append_right _ (List.mem_singleton_self lease)
  · have marked : { task with status := .leased } ∈ (board.grant lease task.id).tasks :=
      Board.grant_leased known positive
    rw [← tasks] at marked
    obtain ⟨row, stored, same⟩ := List.mem_map.mp marked
    have named : row.bare.id = task.id := by rw [same]
    have status : row.bare.status = .leased := by rw [same]
    exact ⟨row, stored, named, status⟩

/-- A new request that is answered with a lease holds it for its worker until the end of the lease. -/
theorem acquireLease_new (raw : AcquireLeaseOptions)
    (absent : db.command record.id (bytes "lease.acquire") (acquireKey env record raw) = none) :
    Meets (fun store => store = db) (acquireLease env now record raw) fun answer after =>
      ∀ lease, answer = .ok lease →
        BelongsTo record.id (trimSpace raw.workerKey) lease db ∧
          lease.expiresAt = now + seconds (positiveOr 300 raw.leaseTimeoutSeconds) ∧
          ∀ moment, moment < lease.expiresAt → Held moment raw.runTaskID lease after := by
  unfold acquireLease
  refine once_new_meets (fun store => db.board.Shown store ∧ store.workers = db.workers) absent ⟨rfl, rfl⟩ ?_
  have loads : Meets (fun store => db.board.Shown store ∧ store.workers = db.workers)
      (loadWorkerForUpdate record.id (trimSpace raw.workerKey) : Command Files WorkerRow) fun worker store =>
        (worker ∈ db.workers.rows ∧ worker.projectID = record.id ∧ worker.workerKey = trimSpace raw.workerKey) ∧
          db.board.Shown store :=
    Meets.consequence loadWorkerForUpdate_found (fun _ both => both) fun _ _ found =>
      ⟨⟨found.2.2 ▸ found.1.1, found.1.2⟩, found.2.1⟩
  refine Meets.bind loads fun worker => Meets.assuming fun known => ?_
  dsimp only
  split
  · unfold denyLease
    refine Meets.bind shown_of_same fun _ => Meets.bind shown_of_same fun _ => Meets.pure fun _ _ lease given => ?_
    cases given
  · refine Meets.bind sweepIf_shown fun _ => ?_
    refine Meets.bind loadRunTaskForLease_shown fun task => Meets.assuming fun found => ?_
    refine Meets.bind insertLeaseForTask_shown fun lease => Meets.assuming fun free => Meets.assuming fun made => ?_
    refine Meets.bind updateRunTaskStatus_shown fun _ => ?_
    refine Meets.bind shown_of_same fun _ => Meets.bind shown_of_same fun _ => ?_
    refine Meets.bind shown_of_same fun _ => Meets.pure fun after shown given same => ?_
    cases same
    obtain ⟨present, project, named, positive⟩ := found
    have chosen : task.bare.id = raw.runTaskID := named
    rw [← named] at positive
    rw [← chosen]
    refine ⟨⟨worker, known.1, known.2.1, known.2.2, by rw [made]; rfl⟩, by rw [made]; rfl, fun moment unexpired => ?_⟩
    exact held_of_granted present positive (by rw [made]; rfl) unexpired (by rw [made]; rfl) shown

/-- A stored response is answered by its lease. -/
theorem loadLeaseByCommandResponse_found {projectID : ID} {key : GoString} {row : CommandRow}
    (found : db.command projectID (bytes "lease.acquire") key = some row) :
    Meets (fun store => store = db)
      (loadLeaseByCommandResponse projectID (bytes "lease.acquire") key : Command Files LeaseRow) fun lease after =>
        after = db ∧ row.completed = true ∧ metadataString row.response (bytes "decision") ≠ bytes "denied" ∧
          storedLease db projectID key = some lease := by
  have responds : Meets (fun store => store = db)
      (Tx.check fun db => loadCommandResponse db projectID (bytes "lease.acquire") key : Command Files Metadata)
      fun response after => (row.completed = true ∧ response = row.response) ∧ after = db := by
    refine Meets.check fun store response same loaded => ⟨?_, same⟩
    unfold loadCommandResponse at loaded
    rw [same, show db.commands.find? _ = some row from found] at loaded
    dsimp only at loaded
    split at loaded
    · rename_i completed
      cases loaded
      exact ⟨completed, rfl⟩
    · cases loaded
  refine Meets.bind responds fun response => Meets.assuming fun stored => ?_
  obtain ⟨completed, rfl⟩ := stored
  dsimp only
  split
  · exact Meets.fail
  · rename_i allowed
    split
    · exact Meets.fail
    · refine Meets.check fun store lease same loaded => ⟨same, completed, allowed, ?_⟩
      unfold storedLease
      rw [found, ← same]
      dsimp only [Option.bind_some]
      split at loaded
      · cases loaded
      · rename_i look
        cases loaded
        exact look

/-- A repeated request is answered with the lease of the first one. -/
theorem acquireLease_repeated (raw : AcquireLeaseOptions) {row : CommandRow}
    (found : db.command record.id (bytes "lease.acquire") (acquireKey env record raw) = some row) :
    Meets (fun store => store = db) (acquireLease env now record raw) fun answer after =>
      row.requestHash = leaseAcquireRequestHash env.codec record (normalizeAcquireLeaseOptions raw) ∧
        ∀ lease, answer = .ok lease → after = db ∧ row.completed = true ∧
          metadataString row.response (bytes "decision") ≠ bytes "denied" ∧
            storedLease db record.id (acquireKey env record raw) = some lease := by
  unfold acquireLease
  refine once_repeated_meets found ?_
  refine Meets.bind (loadLeaseByCommandResponse_found found) fun lease => Meets.pure fun after facts given same => ?_
  cases same
  exact facts

/-- Every command of a run that acquired a lease names one that was given to the worker of the request. -/
theorem run_granted {asked : ProjectRow → AcquireLeaseOptions → Prop} {files : Files} {events : List (WorkEvent Files)}
    (asks : Run.Along (workStep env) (Asks asked) ⟨files, {}⟩ events) :
    Granted env asked (Run.final (workStep env) ⟨files, {}⟩ events).db := by
  have empty : Granted env asked (⟨files, {}⟩ : World Files).db := fun _ stored => absurd stored List.not_mem_nil
  exact Run.Along.invariant (fun world event granted => workStep_granted world event granted) empty asks

/-- A stored lease belongs to the worker and the task of a request with the same hash. -/
theorem storedLease_belongs {raw : AcquireLeaseOptions} (granted : Granted env (ToldApart env record raw) db) {row : CommandRow} {lease : LeaseRow}
    (found : db.command record.id (bytes "lease.acquire") (acquireKey env record raw) = some row)
    (same : row.requestHash = leaseAcquireRequestHash env.codec record (normalizeAcquireLeaseOptions raw))
    (completed : row.completed = true) (allowed : metadataString row.response (bytes "decision") ≠ bytes "denied")
    (stored : storedLease db record.id (acquireKey env record raw) = some lease) :
    lease ∈ db.leases.rows ∧ BelongsTo record.id (trimSpace raw.workerKey) lease db ∧
      lease.taskID = some raw.runTaskID := by
  obtain ⟨member, project, acquires, _⟩ := Database.command_mem found
  obtain ⟨other, options, apart, given, there, worker, known, acquired⟩ := granted row member acquires completed allowed
  unfold storedLease at stored
  rw [found] at stored
  have present : lease ∈ db.leases.rows := List.mem_of_find?_eq_some stored
  have fits := List.find?_some stored
  simp only [Bool.and_eq_true, beq_iff_eq] at fits
  have equal : lease = given := Table.unique present there (fits.2.trans acquired.named.symm)
  subst equal
  obtain ⟨sameWorker, sameTask⟩ := apart (acquired.hashed.symm.trans same)
  exact ⟨present, ⟨worker, known, acquired.employer.trans project, acquired.key.trans sameWorker, acquired.given⟩,
    acquired.task.trans (congrArg some sameTask)⟩

/-- A granted lease is held at the moment of the commit by the worker that asked for it, if and only if the lease that an
earlier request with the same key obtained is still active, its end is after this moment and its task is leased, or there is
no such lease and the commit comes before the end of the new one. No earlier request of the run has the same hash without
being from the same worker for the same task. -/
theorem acquired_lease_held_iff (env : Env Files) (files : Files) (events : List (WorkEvent Files)) (now committed : Time)
    (record : ProjectRow) (raw : AcquireLeaseOptions) (lease : LeaseRow) (world : World Files)
    (reached : Run.final (workStep env) ⟨files, {}⟩ events = world)
    (apart : Run.Along (workStep env) (Asks (ToldApart env record raw)) ⟨files, {}⟩ events)
    (answered : ((acquireLease env now record raw).commit world.files world.db).2 = .ok (.ok lease)) :
    (BelongsTo record.id (trimSpace raw.workerKey) lease
        ((acquireLease env now record raw).commit world.files world.db).1.2 ∧
      Held committed raw.runTaskID lease ((acquireLease env now record raw).commit world.files world.db).1.2) ↔
      (storedLease world.db record.id (acquireKey env record raw) = none →
        committed < now + seconds (positiveOr 300 raw.leaseTimeoutSeconds)) ∧
      ∀ stored, storedLease world.db record.id (acquireKey env record raw) = some stored →
        stored.active = true ∧ committed < stored.expiresAt ∧
          ∃ task ∈ world.db.tasks.rows, stored.taskID = some task.id ∧ task.status = .leased := by
  cases found : world.db.command record.id (bytes "lease.acquire") (acquireKey env record raw) with
  | none =>
      have unused : storedLease world.db record.id (acquireKey env record raw) = none := by
        unfold storedLease
        rw [found]
        rfl
      have staff : SameStaff world.db ((acquireLease env now record raw).commit world.files world.db).1.2 :=
        Moves.commit world.files world.db
      obtain ⟨belongs, ends, held⟩ := (acquireLease_new raw found).committed rfl answered lease rfl
      rw [unused, ← ends]
      constructor
      · exact fun real => ⟨fun _ => real.2.unexpired, by rintro _ same; cases same⟩
      · refine fun holds => ⟨?_, held committed (holds.1 rfl)⟩
        unfold BelongsTo
        rw [staff.1]
        exact belongs
  | some row =>
      obtain ⟨same, replays⟩ := (acquireLease_repeated raw found).committed rfl answered
      obtain ⟨unchanged, completed, allowed, stored⟩ := replays lease rfl
      obtain ⟨present, belongs, requested⟩ :=
        storedLease_belongs (reached ▸ run_granted apart) found same completed allowed stored
      rw [unchanged, stored]
      refine ⟨fun real => ⟨(by rintro same; cases same), fun old named => ?_⟩, fun holds => ⟨belongs, ?_⟩⟩
      · cases named
        obtain ⟨task, known, chosen, leased⟩ := real.2.leased
        exact ⟨real.2.active, real.2.unexpired, task, known, by rw [requested, chosen], leased⟩
      · obtain ⟨active, unexpired, task, known, chosen, leased⟩ := holds.2 lease rfl
        rw [requested] at chosen
        exact ⟨present, active, unexpired, requested, task, known, (Option.some.inj chosen).symm, leased⟩

end Acquire

section Installation

/-- A task is queued for a worker. -/
def queuedFixture : List (WorkEvent Unit) :=
  [.elsewhere () smallTables, callAt 0 (.registerWorker { workerKey := bytes "w" }),
    callAt 0 (.queueFixtureExecution (bytes "v1") {})]

/-- This request asks for the task. -/
def askForTask : AcquireLeaseOptions := { workerKey := bytes "w", runTaskID := 1 }

/-- The worker has asked for the task and got a lease. -/
def askedFixture : List (WorkEvent Unit) := queuedFixture ++ [callAt 1 (.acquireLease askForTask)]

def askedWorld : World Unit := Run.final (workStep smallHost) ⟨(), {}⟩ askedFixture

/-- The world after the worker released the lease. -/
def releasedWorld : World Unit :=
  Run.final (workStep smallHost) askedWorld [callAt 2 (.releaseLease { workerKey := bytes "w", leaseID := 1 })]

theorem askedFixture_apart :
    Run.Along (workStep smallHost) (Asks (ToldApart smallHost smallProject askForTask)) ⟨(), {}⟩ askedFixture :=
  ⟨trivial, trivial, trivial, fun _ _ _ => ⟨rfl, rfl⟩, trivial⟩

/-- The same request is answered with a lease that the worker still holds. -/
theorem askedWorld_grants :
    ∃ lease, ((acquireLease smallHost 2 smallProject askForTask).commit askedWorld.files askedWorld.db).2 = .ok (.ok lease) ∧
      BelongsTo 1 (bytes "w") lease
        ((acquireLease smallHost 2 smallProject askForTask).commit askedWorld.files askedWorld.db).1.2 ∧
      Held 3 1 lease ((acquireLease smallHost 2 smallProject askForTask).commit askedWorld.files askedWorld.db).1.2 := by
  have answers : ∃ lease ∈ askedWorld.db.leases.rows,
      ((acquireLease smallHost 2 smallProject askForTask).commit askedWorld.files askedWorld.db).2 = .ok (.ok lease) := by
    decide +kernel
  have kept : ∃ stored ∈ askedWorld.db.leases.rows,
      storedLease askedWorld.db 1 (acquireKey smallHost smallProject askForTask) = some stored ∧ stored.active = true ∧
        3 < stored.expiresAt ∧ ∃ task ∈ askedWorld.db.tasks.rows, stored.taskID = some task.id ∧ task.status = .leased := by
    decide +kernel
  obtain ⟨lease, _, answered⟩ := answers
  obtain ⟨stored, _, found, holds⟩ := kept
  refine ⟨lease, answered, ?_⟩
  refine (acquired_lease_held_iff smallHost () askedFixture 2 3 smallProject askForTask lease askedWorld rfl
    askedFixture_apart answered).mpr ⟨fun none => ?_, fun other same => ?_⟩
  · cases found.symm.trans none
  · cases found.symm.trans same
    exact holds

/-- The same request after a release is answered with the lease that was released. -/
theorem releasedWorld_grants_released : Reached smallHost releasedWorld ∧
    ∃ lease, ((acquireLease smallHost 3 smallProject askForTask).commit () releasedWorld.db).2 = .ok (.ok lease) ∧
      ¬ Held 3 1 lease ((acquireLease smallHost 3 smallProject askForTask).commit () releasedWorld.db).1.2 := by
  have answers : ∃ lease ∈ releasedWorld.db.leases.rows, lease.status = bytes "released" ∧
      ((acquireLease smallHost 3 smallProject askForTask).commit () releasedWorld.db).2 = .ok (.ok lease) := by
    decide +kernel
  obtain ⟨lease, _, released, answered⟩ := answers
  refine ⟨⟨(), askedFixture ++ [_], Run.final_append _ _ _⟩, lease, answered, fun held => ?_⟩
  have active := held.active
  unfold LeaseRow.active at active
  rw [released] at active
  exact absurd active (by decide)

end Installation

end AreaFlow.Project
