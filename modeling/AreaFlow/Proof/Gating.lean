import AreaFlow.Proof.Decisions

namespace AreaFlow.Migrate
open Go Project Program

section Rules

variable (host : MigrateHost)

/-- The latest access of a process read an effective approval of the gated migration. -/
def Confirmed (record : List Entry) : Prop :=
  ∃ found rest, record = ((.approvalRow releaseExceptionMigrationName, none), found, found) :: rest ∧
    Effective host found releaseExceptionMigrationName

/-- An access does what its statement says, and the gated migration is applied only after an approval was read. -/
def Rule (record : List Entry) (access : Access) (action : MigrationDatabase → MigrationDatabase)
    (_ : MigrationDatabase) : Prop :=
  action = perform host access ∧ access.1.Embedded host ∧
    ∀ migration, access.1 = .apply migration → migration.name = releaseExceptionMigrationName → Confirmed host record

/-- Every access of a program meets the rule. -/
def Disciplined {A : Type} (part : Attempt A) : Prop :=
  ∀ record, Obeys (Rule host) (fun _ _ => True) part.run record

variable {host} {faults : Statement → Option GoString}

theorem Disciplined.pure {A : Type} (answer : A) : Disciplined host (Pure.pure answer : Attempt A) := fun _ => trivial

theorem Disciplined.throw {A : Type} (failure : GoString) : Disciplined host (MonadExcept.throw failure : Attempt A) :=
  fun _ => trivial

theorem Disciplined.decided {A : Type} (answer : Except GoString A) :
    Disciplined host (ExceptT.mk (Pure.pure answer) : Attempt A) := fun _ => trivial

theorem Disciplined.bind {A B : Type} {part : Attempt A} {rest : A → Attempt B} (first : Disciplined host part)
    (second : ∀ answer, Disciplined host (rest answer)) : Disciplined host (part >>= rest) := by
  intro record
  apply Obeys.attempt
  apply (first record).mono
  exact fun later _ _ => ⟨fun _ _ => trivial, fun found _ => second found later⟩

theorem Disciplined.ite {A : Type} {condition : Prop} [Decidable condition] {first second : Attempt A}
    (one : Disciplined host first) (two : Disciplined host second) :
    Disciplined host (if condition then first else second) := by
  split
  · exact one
  · exact two

theorem Disciplined.map {A B : Type} {f : A → B} {part : Attempt A} (first : Disciplined host part) :
    Disciplined host (f <$> part) := by
  intro record
  apply Obeys.bind
  apply (first record).mono
  rintro later (failure | answer) _ <;> exact trivial

/-- A statement that applies nothing may be sent at any time. -/
theorem Disciplined.send {A : Type} {statement : Statement} {context : GoString}
    {answer : MigrationDatabase → Except GoString A} (embedded : statement.Embedded host)
    (plain : ∀ migration, statement ≠ .apply migration) : Disciplined host (send host faults statement context answer) :=
  fun _ _ => ⟨⟨rfl, embedded, fun migration same => absurd same (plain migration)⟩, trivial⟩

/-- A program goes on after a statement that did not fail. -/
theorem send_obeys {A B : Type} {statement : Statement} {context : GoString}
    {answer : MigrationDatabase → Except GoString A} {rest : A → Attempt B} {record : List Entry}
    {final : List Entry → Except GoString B → Prop} (embedded : statement.Embedded host)
    (plain : ∀ migration, statement ≠ .apply migration) (failed : ∀ record failure, final record (.error failure))
    (next : ∀ found value, answer found = .ok value →
      Obeys (Rule host) final (rest value).run (((statement, none), found, perform host (statement, none) found) :: record)) :
    Obeys (Rule host) final (send host faults statement context answer >>= rest).run record := by
  apply Obeys.attempt
  intro found
  refine ⟨⟨rfl, embedded, fun migration same => absurd same (plain migration)⟩, fun _ _ => failed _ _, fun value same => ?_⟩
  cases fault : faults statement with
  | some failure =>
      rw [fault] at same
      cases same
  | none =>
      rw [fault] at same
      exact next found value same

theorem ensureTable_disciplined : Disciplined host (ensureTable host faults) := .send trivial fun _ => nofun

theorem isApplied_disciplined (name : GoString) : Disciplined host (isApplied host faults name) := .send trivial fun _ => nofun

theorem requireChecksumColumns_disciplined (name : GoString) : Disciplined host (requireChecksumColumns host faults name) :=
  .bind (.send trivial fun _ => nofun) fun _ => .ite (.pure _) (.throw _)

theorem rejectMismatches_disciplined (site : Site) (migrations : List Migration) :
    Disciplined host (rejectMismatches host faults site migrations) := by
  induction migrations with
  | nil => exact .pure _
  | cons migration rest ih =>
      have loads : Disciplined host (ExceptT.lift (loadChecksum host faults site migration.name) : Attempt _) :=
        fun _ _ => ⟨⟨rfl, trivial, fun _ same => nomatch same⟩, trivial⟩
      apply loads.bind
      rintro ⟨recorded, failure⟩
      apply Disciplined.ite ih
      cases failure with
      | some failure => exact .throw _
      | none => exact .ite (.throw _) ih

theorem rejectChecksumMismatch_disciplined (site : Site) : Disciplined host (rejectChecksumMismatch host faults site) :=
  .bind (.send trivial fun _ => nofun) fun _ => .ite (rejectMismatches_disciplined site _) (.pure _)

theorem requireVerifiedChecksums_disciplined (name : GoString) :
    Disciplined host (requireVerifiedChecksums host faults name) :=
  .bind (requireChecksumColumns_disciplined name) fun _ =>
    .bind (rejectChecksumMismatch_disciplined _) fun _ =>
      .bind (.send trivial fun _ => nofun) fun _ => .ite (.throw _) (.pure _)

theorem recordAppliedRunHashes_disciplined (migrations : List Migration) :
    Disciplined host (recordAppliedRunHashes host faults migrations) := by
  induction migrations with
  | nil => exact .pure _
  | cons migration rest ih => exact .bind (.send trivial fun _ => nofun) fun _ => ih

/-- An approval that allows the gated migration was effective when its row was read. -/
theorem approval_confirms {name : GoString} {migration : Migration} (found : migrationByName host name = .ok migration)
    (record : List Entry) :
    Obeys (Rule host) (fun record answer => ∀ state, answer = .ok state →
      approvalAllowsMigration state (host.migrationHash migration.sql).val = true →
        name = releaseExceptionMigrationName → Confirmed host record) (approval host faults name).run record := by
  have failed : ∀ (record : List Entry) (failure : GoString) (state : ApprovalState),
      (.error failure : Except GoString ApprovalState) = .ok state →
        approvalAllowsMigration state (host.migrationHash migration.sql).val = true →
          name = releaseExceptionMigrationName → Confirmed host record :=
    fun _ _ _ impossible => nomatch impossible
  refine send_obeys trivial (fun _ => nofun) failed ?_
  intro before ready _
  split
  · -- The tables are there, and the row is read.
    refine send_obeys trivial (fun _ => nofun) failed ?_
    intro held row read
    cases row with
    | none =>
        refine send_obeys trivial (fun _ => nofun) failed ?_
        intro later applied _ state same allows
        obtain rfl := Except.ok.inj same
        exact absurd allows (Bool.eq_false_iff.mp (unrecorded_denies applied _))
    | some state =>
        intro other same allows named
        obtain rfl := Except.ok.inj same
        subst named
        exact ⟨held, _, rfl, effective_iff.mpr ⟨migration, found, loadApprovalRow_allows.mp ⟨state, read, allows⟩⟩⟩
  · intro state same allows
    obtain rfl := Except.ok.inj same
    exact absurd allows (Bool.eq_false_iff.mp (unrecorded_denies false _))

theorem approval_disciplined {name : GoString} {migration : Migration} (found : migrationByName host name = .ok migration) :
    Disciplined host (approval host faults name) :=
  fun record => (approval_confirms found record).mono fun _ _ _ => trivial

/-- A migration is applied after it may be. -/
theorem applyMigration_disciplined {migration : Migration} {record : List Entry} (member : migration ∈ host.list)
    (confirmed : migration.name = releaseExceptionMigrationName → Confirmed host record) :
    Obeys (Rule host) (fun _ _ => True) (applyMigration host faults migration).run record := by
  refine fun found => ⟨⟨rfl, member, ?_⟩, trivial⟩
  rintro other same named
  obtain rfl := Statement.apply.inj same
  exact confirmed named

/-- A migration that may be applied was approved, if it needs an approval. -/
theorem mayApply_confirms {migration : Migration} (member : migration ∈ host.list) (record : List Entry) :
    Obeys (Rule host) (fun record answer => answer = .ok true → migration.name = releaseExceptionMigrationName →
      Confirmed host record) (mayApply host faults migration).run record := by
  unfold mayApply
  split
  · apply Obeys.attempt
    apply (approval_confirms (migrationByName_of_mem member) record).mono
    intro later answer confirms
    refine ⟨fun _ _ impossible => (nomatch impossible), fun state same allowed named => ?_⟩
    exact confirms state same (Except.ok.inj allowed) named
  · rename_i other
    exact fun _ named => absurd named other

/-- This is the part of the loop after the check of the checksums. -/
theorem decide_disciplined {migration : Migration} (member : migration ∈ host.list) {A : Type} {go skip : Attempt A}
    (goes : Disciplined host go) (skips : Disciplined host skip) :
    Disciplined host (do
      let allowed ← mayApply host faults migration
      if allowed then do
        applyMigration host faults migration
        go
      else skip) := by
  intro record
  apply Obeys.attempt
  apply (mayApply_confirms member record).mono
  intro record answer confirms
  refine ⟨fun _ _ => trivial, fun allowed same => ?_⟩
  cases allowed with
  | false => exact skips record
  | true =>
      apply Obeys.attempt
      apply (applyMigration_disciplined member (confirms same)).mono
      exact fun record _ _ => ⟨fun _ _ => trivial, fun _ _ => goes record⟩

theorem upFrom_disciplined (migrations applied : List Migration) (listed : ∀ migration ∈ migrations, migration ∈ host.list) :
    Disciplined host (upFrom host faults migrations applied) := by
  induction migrations generalizing applied with
  | nil => exact .pure _
  | cons migration rest ih =>
      have later := fun applied => ih applied fun other there => listed other (List.mem_cons_of_mem _ there)
      apply (isApplied_disciplined migration.name).bind
      intro alreadyApplied
      apply Disciplined.ite (later applied)
      apply Disciplined.bind (.ite (requireVerifiedChecksums_disciplined _) (.pure _))
      intro _
      apply decide_disciplined (listed migration List.mem_cons_self) _ (later applied)
      apply Disciplined.bind (.ite (recordAppliedRunHashes_disciplined _) (.pure _))
      exact fun _ => later _

theorem up_disciplined : Disciplined host (up host faults) :=
  ensureTable_disciplined.bind fun _ =>
    (rejectChecksumMismatch_disciplined .start).bind fun _ => upFrom_disciplined host.list [] fun _ member => member

/-- A call goes on with the migration that it names. -/
theorem named_disciplined {A : Type} {name : GoString} {rest : Migration → Attempt A}
    (next : ∀ migration, migrationByName host name = .ok migration → Disciplined host (rest migration)) :
    Disciplined host (ExceptT.mk (pure (migrationByName host name)) >>= rest) := by
  intro record
  apply Obeys.attempt
  exact ⟨fun _ _ => trivial, fun migration found => next migration found record⟩

theorem approve_disciplined (name actor reason : GoString) : Disciplined host (approve host faults name actor reason) := by
  apply named_disciplined
  intro migration found
  apply (Disciplined.decided _).bind
  intro _
  apply ensureTable_disciplined.bind
  intro _
  refine Disciplined.bind (.send trivial fun _ => nofun) fun present => .ite ?_ (.throw _)
  refine Disciplined.bind (.send (mem_of_migrationByName found).1 fun _ => nofun) fun _ => approval_disciplined found

theorem revoke_disciplined (name actor reason : GoString) : Disciplined host (revoke host faults name actor reason) := by
  apply named_disciplined
  intro migration found
  apply (Disciplined.decided _).bind
  intro _
  exact Disciplined.bind (.send (mem_of_migrationByName found).1 fun _ => nofun) fun _ => approval_disciplined found

theorem applyApproved_disciplined (name : GoString) : Disciplined host (applyApproved host faults name) := by
  apply named_disciplined
  intro migration found
  obtain ⟨member, named⟩ := mem_of_migrationByName found
  apply ensureTable_disciplined.bind
  intro _
  apply (isApplied_disciplined name).bind
  intro applied
  apply Disciplined.ite (.pure _)
  intro record
  apply Obeys.attempt
  apply (approval_confirms found record).mono
  intro record answer confirms
  refine ⟨fun _ _ => trivial, fun state same => ?_⟩
  split
  · rename_i allows
    apply Obeys.attempt
    apply (applyMigration_disciplined member fun gated => confirms state same allows (named.symm.trans gated)).mono
    exact fun _ _ _ => ⟨fun _ _ => trivial, fun _ _ => trivial⟩
  · exact trivial

/-- Every call meets the rule. -/
theorem call_disciplined (call : Call) : Disciplined host (call.program host faults) := by
  cases call with
  | approve name actor reason => exact (approve_disciplined name actor reason).map
  | revoke name actor reason => exact (revoke_disciplined name actor reason).map
  | up => exact up_disciplined.map
  | applyApproved name => exact (applyApproved_disciplined name).map

end Rules

/-- A call is started with the failures that its statements meet. -/
structure StartedCall where
  call : Call
  faults : Statement → Option GoString := fun _ => none

abbrev MigrationPool : Type := Pool Access MigrationDatabase (Except GoString CallAnswer)

def StartedCall.code (host : MigrateHost) (started : StartedCall) :
    Program Access MigrationDatabase (Except GoString CallAnswer) :=
  (started.call.program host started.faults).run

/-- This is the pool after some moves of calls that start on a database. -/
def after (host : MigrateHost) (db : MigrationDatabase) (moves : List (PoolMove StartedCall)) : MigrationPool :=
  Run.final (Pool.step (StartedCall.code host)) { cell := db } moves

section Commits

variable (host : MigrateHost)

/-- This is the migration whose SQL an access commits. -/
def commitOf : Entry → Option GoString
  | ((.apply migration, none), found, _) =>
      match apply host migration found with
      | .ok _ => some migration.name
      | .error _ => none
  | _ => none

/-- These are the migrations whose SQL was committed, the latest first. -/
def committed (log : List Entry) : List GoString := log.filterMap (commitOf host)

variable {host} {access : Access} {db : MigrationDatabase} {name : GoString}

/-- A committed migration was not applied before, and it is recorded. -/
theorem commitOf_some {left : MigrationDatabase} (commits : commitOf host (access, db, left) = some name) :
    name ∉ db.schema.applied ∧ (perform host access db).schema.applied = db.schema.applied ++ [name] := by
  obtain ⟨statement, _ | failure⟩ := access
  · cases statement with
    | apply migration =>
        simp only [commitOf] at commits
        cases done : apply host migration db with
        | error failure => simp [done] at commits
        | ok applied =>
            obtain rfl : migration.name = name := by simpa [done] using commits
            have facts := apply_ok done
            refine ⟨facts.new, ?_⟩
            simp only [perform, Statement.effect, done]
            exact facts.recorded
    | _ => cases commits
  · cases statement <;> cases commits

/-- No access removes a migration. -/
theorem perform_applied (recorded : name ∈ db.schema.applied) : name ∈ (perform host access db).schema.applied := by
  obtain ⟨statement, _ | failure⟩ := access
  · cases statement with
    | apply migration =>
        simp only [perform, Statement.effect]
        cases done : apply host migration db with
        | error failure => exact recorded
        | ok applied =>
            dsimp only
            rw [(apply_ok done).recorded]
            exact List.mem_append_left _ recorded
    | ensureTable =>
        simp only [perform, Statement.effect]
        split
        · rename_i absent
          rw [absent] at recorded
          cases recorded
        · exact recorded
    | recordHash other digest =>
        obtain ⟨schema, ledger⟩ := db
        cases schema with
        | checksums rows =>
            have same : (rows.map fun row => if row.1 = other ∧ row.2 = none then (row.1, some digest) else row).map (·.1) =
                rows.map (·.1) := by
              rw [List.map_map]
              apply List.map_congr_left
              intro row _
              dsimp only [Function.comp_apply]
              split <;> rfl
            exact (congrArg (name ∈ ·) same).mpr recorded
        | _ => exact recorded
    | _ => exact recorded
  · exact recorded

/-- The processes of a pool follow the rule, and so did all accesses. -/
structure Ruled (host : MigrateHost) (pool : MigrationPool) : Prop where
  disciplined : ∀ process ∈ pool.processes, Obeys (Rule host) (fun _ _ => True) process.program process.record
  embedded : ∀ entry ∈ pool.log, entry.1.1.Embedded host

theorem ruled_start (db : MigrationDatabase) : Ruled host { cell := db } :=
  ⟨fun _ member => (nomatch member), fun _ member => (nomatch member)⟩

/-- This is what a move does to a pool whose processes follow the rule. -/
theorem Ruled.step_cases {pool : MigrationPool} (ruled : Ruled host pool) (move : PoolMove StartedCall) :
    Ruled host (pool.step (StartedCall.code host) move).1 ∧
    ((∃ index process access, pool.processes[index]? = some process ∧ pool.label move = some access ∧
        process.program.upcoming = some access ∧ access.1.Embedded host ∧
        ∃ changed : Process Access MigrationDatabase (Except GoString CallAnswer),
          changed.record = (access, pool.cell, perform host access pool.cell) :: process.record ∧
          (pool.step (StartedCall.code host) move).1 =
            { cell := perform host access pool.cell, processes := pool.processes.set index changed
              log := (access, pool.cell, perform host access pool.cell) :: pool.log }) ∨
      (∃ call : StartedCall, (pool.step (StartedCall.code host) move).1 =
        { pool with processes := pool.processes ++ [{ program := call.code host }] }) ∨
      (pool.step (StartedCall.code host) move).1 = pool) := by
  have calls : ∀ started : StartedCall, Obeys (Rule host) (fun _ _ => True) (started.code host) [] :=
    fun started => call_disciplined started.call []
  have disciplined := pool.obeys_step calls move ruled.disciplined
  rcases pool.step_cases (StartedCall.code host) move with
    ⟨index, process, access, action, next, held, rfl, shape, stepped⟩ | ⟨call, stepped⟩ | stepped
  · have rule := ruled.disciplined process (List.mem_of_getElem? held)
    rw [shape] at rule
    obtain ⟨rfl, embedded, -⟩ := (rule pool.cell).1
    have label : pool.label (.advance index : PoolMove StartedCall) = some access := by
      simp [Pool.label, held, shape, upcoming]
    refine ⟨⟨disciplined, ?_⟩, Or.inl ⟨index, process, access, held, label, by rw [shape]; rfl, embedded, _, rfl, stepped⟩⟩
    rw [stepped]
    rintro entry (_ | ⟨_, member⟩)
    · exact embedded
    · exact ruled.embedded entry member
  · refine ⟨⟨disciplined, ?_⟩, Or.inr (Or.inl ⟨call, stepped⟩)⟩
    rw [stepped]
    exact ruled.embedded
  · rw [stepped]
    exact ⟨ruled, Or.inr (Or.inr rfl)⟩

/-- The pool is as a history of decisions and commits leaves it. -/
structure Faithful (host : MigrateHost) (start : MigrationDatabase) (pool : MigrationPool) : Prop where
  ruled : Ruled host pool
  current : Current host pool.cell
  decided : ∀ name, verdict (findLedgerRow pool.cell name) =
    match lastDecision host pool.log name with
    | some decision => decision.verdict
    | none => verdict (findLedgerRow start name)
  once : (committed host pool.log).Nodup
  recorded : ∀ name ∈ committed host pool.log, name ∈ pool.cell.schema.applied

/-- Every move keeps the pool faithful. -/
theorem Faithful.step {start : MigrationDatabase} {pool : MigrationPool} (faithful : Faithful host start pool)
    (move : PoolMove StartedCall) : Faithful host start (pool.step (StartedCall.code host) move).1 := by
  obtain ⟨ruled, ⟨index, process, access, -, -, -, embedded, changed, -, stepped⟩ | ⟨call, stepped⟩ | stepped⟩ :=
    faithful.ruled.step_cases move
  · have decides : Decides host access pool.cell _ := perform_decides embedded
    rw [stepped] at ruled ⊢
    refine ⟨ruled, decides.current faithful.current, ?_, ?_, ?_⟩
    · intro name
      refine (decides.verdicts name).trans ?_
      simp only [lastDecision, List.findSome?_cons]
      cases decisionAbout host name (access, pool.cell, perform host access pool.cell) with
      | some decision => rfl
      | none => exact faithful.decided name
    · unfold committed
      rw [List.filterMap_cons]
      cases commits : commitOf host (access, pool.cell, perform host access pool.cell) with
      | none => exact faithful.once
      | some name =>
          refine List.nodup_cons.mpr ⟨fun before => ?_, faithful.once⟩
          exact (commitOf_some commits).1 (faithful.recorded name before)
    · intro name member
      unfold committed at member
      rw [List.filterMap_cons] at member
      cases commits : commitOf host (access, pool.cell, perform host access pool.cell) with
      | none =>
          rw [commits] at member
          exact perform_applied (faithful.recorded name member)
      | some new =>
          rw [commits] at member
          rcases List.mem_cons.mp member with rfl | before
          · rw [(commitOf_some commits).2]
            exact List.mem_append_right _ (List.mem_singleton.mpr rfl)
          · exact perform_applied (faithful.recorded name before)
  · rw [stepped] at ruled ⊢
    exact ⟨ruled, faithful.current, faithful.decided, faithful.once, faithful.recorded⟩
  · rw [stepped]
    exact faithful

/-- The pool is faithful after every run. -/
theorem faithful_after (current : Current host db) (moves : List (PoolMove StartedCall)) :
    Faithful host db (after host db moves) := by
  have initial : Faithful host db { cell := db } :=
    ⟨ruled_start db, current, fun _ => rfl, List.nodup_nil, fun _ member => nomatch member⟩
  exact Run.final_invariant (fun _ move faithful => faithful.step move) initial moves

/-- The last decision was an approval. Without a decision, the approval was effective at the start. -/
def LastApproves (host : MigrateHost) (start : MigrationDatabase) (name : GoString) : Option Decision → Prop
  | some (.approved _) => True
  | some .revoked => False
  | none => Effective host start name

/-- A decision is about an embedded migration of the name, and an approval is for its hash. -/
def Decision.About (host : MigrateHost) (name : GoString) (decision : Decision) : Prop :=
  ∃ migration ∈ host.list, migration.name = name ∧
    ∀ hash, decision = .approved hash → hash = (host.migrationHash migration.sql).val

/-- Only embedded migrations are decided about. -/
theorem decisionAbout_embedded {entry : Entry} {decision : Decision} (embedded : entry.1.1.Embedded host)
    (decided : decisionAbout host name entry = some decision) : decision.About host name := by
  obtain ⟨⟨statement, _ | failure⟩, found, left⟩ := entry
  · cases statement with
    | recordApproval migration actor reason =>
        simp only [decisionAbout, Option.ite_none_right_eq_some, Option.some.injEq] at decided
        obtain ⟨⟨named, -⟩, rfl⟩ := decided
        exact ⟨migration, embedded, named, fun hash same => (Decision.approved.inj same).symm⟩
    | recordRevocation migration actor reason =>
        simp only [decisionAbout, Option.ite_none_right_eq_some, Option.some.injEq] at decided
        obtain ⟨⟨named, -⟩, rfl⟩ := decided
        exact ⟨migration, embedded, named, fun hash same => by cases same⟩
    | _ => cases decided
  · cases statement <;> cases decided

theorem Ruled.lastDecision_embedded {pool : MigrationPool} (ruled : Ruled host pool) {decision : Decision}
    (last : lastDecision host pool.log name = some decision) : decision.About host name := by
  obtain ⟨entry, member, decided⟩ := List.exists_of_findSome?_eq_some last
  exact decisionAbout_embedded (ruled.embedded entry member) decided

/-- In a faithful pool an approval is effective exactly if the last decision says so. -/
theorem Faithful.effective_iff {start : MigrationDatabase} {pool : MigrationPool} (current : Current host start)
    (faithful : Faithful host start pool) :
    Effective host pool.cell name ↔ LastApproves host start name (lastDecision host pool.log name) := by
  cases found : migrationByName host name with
  | error failure =>
      -- A migration that is not embedded is neither approved nor decided about.
      have never : ∀ db, ¬ Effective host db name := by
        intro db effective
        obtain ⟨migration, there, -⟩ := Migrate.effective_iff.mp effective
        exact nomatch found.symm.trans there
      cases last : lastDecision host pool.log name with
      | none => exact iff_of_false (never _) (never _)
      | some decision =>
          obtain ⟨migration, member, rfl, -⟩ := faithful.ruled.lastDecision_embedded last
          exact nomatch found.symm.trans (migrationByName_of_mem member)
  | ok migration =>
      obtain ⟨member, rfl⟩ := mem_of_migrationByName found
      rw [faithful.current.effective_iff member, faithful.decided]
      cases last : lastDecision host pool.log migration.name with
      | none => exact (current.effective_iff member).symm
      | some decision =>
          cases decision with
          | approved hash => exact iff_of_true rfl trivial
          | revoked => exact iff_of_false (show ¬ bytes "revoked" = bytes "approved" by decide) id

/-- After every run the effective approval of a migration is its last decision, and the SQL of each migration was committed
at most once. -/
theorem approval_is_lastDecision (current : Current host db) (moves : List (PoolMove StartedCall)) :
    (∀ name, Effective host (after host db moves).cell name ↔
      LastApproves host db name (lastDecision host (after host db moves).log name)) ∧
    (committed host (after host db moves).log).Nodup :=
  ⟨fun _ => (faithful_after current moves).effective_iff current, (faithful_after current moves).once⟩

end Commits

section Gate

variable {host : MigrateHost} {db : MigrationDatabase}

/-- An access revokes the approval of the gated migration. -/
def revokesGated : Option Access → Bool
  | some (.recordRevocation migration _ _, none) => migration.name == releaseExceptionMigrationName
  | _ => false

/-- An access applies the gated migration. -/
def appliesGated : Option Access → Bool
  | some (.apply migration, _) => migration.name == releaseExceptionMigrationName
  | _ => false

/-- The approval is revoked only while no process is about to apply the migration. -/
def RevocationWaits (pool : MigrationPool) (move : PoolMove StartedCall) : Prop :=
  revokesGated (pool.label move) = true → ∀ process ∈ pool.processes, appliesGated process.program.upcoming = false

instance (pool : MigrationPool) (move : PoolMove StartedCall) : Decidable (RevocationWaits pool move) :=
  inferInstanceAs (Decidable (_ → _))

/-- The last decision approved the embedded SQL. Without a decision, the approval was effective at the start. -/
def ApprovedLast (host : MigrateHost) (start : MigrationDatabase) (name : GoString) : Option Decision → Prop
  | some (.approved hash) => ∃ migration, migrationByName host name = .ok migration ∧
      hash = (host.migrationHash migration.sql).val
  | some .revoked => False
  | none => Effective host start name

/-- A process that obeys the rule has confirmed the approval when it is about to apply the migration. -/
theorem confirmed_of_upcoming {A : Type} {program : Program Access MigrationDatabase A} {record : List Entry}
    {post : List Entry → A → Prop} (obeys : Obeys (Rule host) post program record)
    (applies : appliesGated program.upcoming = true) : Confirmed host record := by
  cases program with
  | done answer => cases applies
  | access access action next =>
      obtain ⟨statement, fault⟩ := access
      cases statement with
      | apply migration => exact (obeys {}).1.2.2 migration rfl (by simpa [appliesGated, upcoming] using applies)
      | _ => cases applies

/-- A process that is about to apply the gated migration finds its approval effective, and so did every commit of it. -/
structure Gated (host : MigrateHost) (start : MigrationDatabase) (pool : MigrationPool) : Prop where
  ruled : Ruled host pool
  tables : pool.cell.ledger.isSome → pool.cell.schema ≠ .absent
  decided : Effective host pool.cell releaseExceptionMigrationName →
    ApprovedLast host start releaseExceptionMigrationName (lastDecision host pool.log releaseExceptionMigrationName)
  awaits : ∀ process ∈ pool.processes, appliesGated process.program.upcoming = true →
    Effective host pool.cell releaseExceptionMigrationName
  approved : ∀ later entry earlier, pool.log = later ++ entry :: earlier →
    commitOf host entry = some releaseExceptionMigrationName →
    ApprovedLast host start releaseExceptionMigrationName (lastDecision host earlier releaseExceptionMigrationName)

/-- An effective approval is the verdict of its row. -/
theorem verdict_of_effective {name : GoString} (effective : Effective host db name) :
    verdict (findLedgerRow db name) = bytes "approved" := by
  obtain ⟨_, -, -, row, found, -, decided⟩ := effective_iff.mp effective
  rw [found]
  exact decided

/-- An approval stays effective unless it is revoked. -/
theorem effective_kept {access : Access} (tables : db.ledger.isSome → db.schema ≠ .absent)
    (embedded : access.1.Embedded host) (kept : revokesGated (some access) = false)
    (effective : Effective host db releaseExceptionMigrationName) :
    Effective host (perform host access db) releaseExceptionMigrationName := by
  have decides : Decides host access db _ := perform_decides embedded
  have approved : verdict (findLedgerRow (perform host access db) releaseExceptionMigrationName) = bytes "approved" := by
    rw [decides.verdicts]
    cases decided : decisionAbout host releaseExceptionMigrationName (access, db, perform host access db) with
    | none => exact verdict_of_effective effective
    | some decision =>
        cases decision with
        | approved hash => rfl
        | revoked =>
            obtain ⟨statement, _ | failure⟩ := access
            · cases statement with
              | recordRevocation other actor reason =>
                  simp only [decisionAbout, Option.ite_none_right_eq_some] at decided
                  simp [revokesGated, decided.1.1] at kept
              | recordApproval other actor reason => simp [decisionAbout] at decided
              | _ => cases decided
            · cases statement <;> cases decided
  obtain ⟨migration, listed, present, old, stored, hash, -⟩ := effective_iff.mp effective
  cases found : findLedgerRow (perform host access db) releaseExceptionMigrationName with
  | none =>
      rw [found] at approved
      exact absurd approved (by decide)
  | some row =>
      rw [found] at approved
      have ledger : (perform host access db).ledger.isSome := isSome_of_findLedgerRow found
      refine effective_iff.mpr ⟨migration, listed, decides.tables tables ledger, row, found, ?_, approved⟩
      rcases decides.hashes _ row found approved with before | ⟨other, member, named, -, recorded⟩
      · obtain rfl := Option.some.inj (stored.symm.trans before)
        exact hash
      · obtain ⟨there, same⟩ := mem_of_migrationByName listed
        rw [recorded, list_unique member there (named.trans same.symm)]

/-- An approval becomes effective by a decision, or by the commit of its migration. -/
theorem effective_before {access : Access} (tables : db.ledger.isSome → db.schema ≠ .absent)
    (embedded : access.1.Embedded host) (other : appliesGated (some access) = false)
    (undecided : decisionAbout host releaseExceptionMigrationName (access, db, perform host access db) = none)
    (effective : Effective host (perform host access db) releaseExceptionMigrationName) :
    Effective host db releaseExceptionMigrationName := by
  have decides : Decides host access db _ := perform_decides embedded
  obtain ⟨migration, listed, -, row, found, hash, approved⟩ := effective_iff.mp effective
  rcases decides.hashes _ row found approved with before | ⟨recorded, -, named, records, -⟩
  · exact effective_iff.mpr
      ⟨migration, listed, tables (isSome_of_findLedgerRow before), row, before, hash, approved⟩
  · obtain ⟨statement, _ | failure⟩ := access
    · rcases records with same | ⟨actor, reason, same⟩
      · obtain rfl : statement = .apply recorded := same
        simp [appliesGated, named] at other
      · obtain rfl : statement = .recordApproval recorded actor reason := same
        have missing : db.ledger.isSome = false := by
          simpa [decisionAbout, named] using undecided
        have ledger := isSome_of_findLedgerRow found
        simp [perform, Statement.effect, missing] at ledger
    · exact effective

/-- Every move that waits with a revocation keeps the gate. -/
theorem Gated.step {start : MigrationDatabase} {pool : MigrationPool} {move : PoolMove StartedCall}
    (gated : Gated host start pool) (waits : RevocationWaits pool move) :
    Gated host start (pool.step (StartedCall.code host) move).1 := by
  obtain ⟨ruled, ⟨index, process, access, held, label, next, embedded, changed, record, stepped⟩ | ⟨call, stepped⟩ | stepped⟩ :=
    gated.ruled.step_cases move
  · have member := List.mem_of_getElem? held
    have decides : Decides host access pool.cell _ := perform_decides embedded
    rw [RevocationWaits, label] at waits
    rw [stepped] at ruled ⊢
    refine ⟨ruled, decides.tables gated.tables, fun effective => ?_, fun other among applies => ?_,
      fun later entry earlier split commits => ?_⟩
    · dsimp only [lastDecision]
      rw [List.findSome?_cons]
      cases decided : decisionAbout host releaseExceptionMigrationName (access, pool.cell, perform host access pool.cell) with
      | some decision =>
          cases decision with
          | approved hash =>
              obtain ⟨migration, listed, named, given⟩ := decisionAbout_embedded embedded decided
              exact ⟨migration, named ▸ migrationByName_of_mem listed, given hash rfl⟩
          | revoked =>
              have verdict := (decides.verdicts releaseExceptionMigrationName).symm.trans (verdict_of_effective effective)
              rw [decided] at verdict
              exact absurd verdict (show ¬ bytes "revoked" = bytes "approved" by decide)
      | none =>
          apply gated.decided
          by_cases applies : appliesGated (some access) = true
          · exact gated.awaits process member (next ▸ applies)
          · exact effective_before gated.tables embedded (Bool.eq_false_iff.mpr applies) decided effective
    · rcases List.mem_or_eq_of_mem_set among with before | rfl
      · -- Another process keeps what it waits for, since nobody revokes now.
        refine effective_kept gated.tables embedded ?_ (gated.awaits other before applies)
        by_contra revokes
        exact nomatch applies.symm.trans (waits (by simpa using revokes) other before)
      · -- This process has just read the approval.
        obtain ⟨found, rest, same, effective⟩ := confirmed_of_upcoming (ruled.disciplined other among) applies
        obtain ⟨first, -⟩ := List.cons.inj (record.symm.trans same)
        obtain ⟨rfl, same⟩ := Prod.mk.inj first
        obtain ⟨rfl, -⟩ := Prod.mk.inj same
        exact effective
    · cases later with
      | nil =>
          obtain ⟨rfl, rfl⟩ := List.cons.inj split
          apply gated.decided
          apply gated.awaits process member
          rw [next]
          obtain ⟨statement, _ | failure⟩ := access
          · cases statement with
            | apply migration =>
                simp only [commitOf] at commits
                split at commits
                · simpa [appliesGated] using commits
                · cases commits
            | _ => cases commits
          · cases statement <;> cases commits
      | cons newest later => exact gated.approved later entry earlier (List.cons.inj split).2 commits
  · rw [stepped] at ruled ⊢
    refine ⟨ruled, gated.tables, gated.decided, fun other among applies => ?_, gated.approved⟩
    rcases List.mem_append.mp among with before | new
    · exact gated.awaits other before applies
    · obtain ⟨_, _, impossible, -⟩ := confirmed_of_upcoming (ruled.disciplined other among) applies
      rw [List.mem_singleton.mp new] at impossible
      cases impossible
  · rw [stepped]
    exact gated

/-- In every run that revokes the approval only while no process is about to apply the migration, each commit of the gated
migration comes after an approval of the embedded SQL that was the last decision before it. -/
theorem gatedMigration_approved (tables : db.ledger.isSome → db.schema ≠ .absent) (moves : List (PoolMove StartedCall))
    (waits : Run.Along (Pool.step (StartedCall.code host)) RevocationWaits { cell := db } moves)
    (later earlier : List Entry) (entry : Entry) (split : (after host db moves).log = later ++ entry :: earlier)
    (commits : commitOf host entry = some releaseExceptionMigrationName) :
    ApprovedLast host db releaseExceptionMigrationName (lastDecision host earlier releaseExceptionMigrationName) := by
  have initial : Gated host db { cell := db } :=
    ⟨ruled_start db, tables, id, fun _ member => (nomatch member), fun later _ _ empty => by cases later <;> exact nomatch empty⟩
  have keeps : ∀ (pool : MigrationPool) (move : PoolMove StartedCall), Gated host db pool → RevocationWaits pool move →
      Gated host db (pool.step (StartedCall.code host) move).1 := fun _ _ gated waits => gated.step waits
  exact (Run.Along.invariant keeps initial waits).approved later entry earlier split commits

/-- A log whose latest access commits a migration after its approval was revoked. -/
theorem revoked_of_head {log : List Entry} (commits : log.head?.bind (commitOf host) = some releaseExceptionMigrationName)
    (revoked : lastDecision host log.tail releaseExceptionMigrationName = some .revoked) :
    ∃ entry earlier, log = [] ++ entry :: earlier ∧ commitOf host entry = some releaseExceptionMigrationName ∧
      ¬ ApprovedLast host db releaseExceptionMigrationName (lastDecision host earlier releaseExceptionMigrationName) := by
  cases log with
  | nil => cases commits
  | cons entry earlier =>
      refine ⟨entry, earlier, rfl, commits, ?_⟩
      rw [show lastDecision host earlier releaseExceptionMigrationName = some .revoked from revoked]
      exact id

end Gate

section Race

/-- This program embeds the gated migration only. -/
def gatedHost : MigrateHost where
  list := [{ name := releaseExceptionMigrationName, sql := bytes "CREATE TABLE release_exceptions ();" }]
  sorted := by decide
  migrationHash := sampleHash

/-- This is a database with an empty ledger. -/
def ledgeredDatabase : MigrationDatabase where
  schema := .names []
  ledger := some []

theorem ledgeredDatabase_current : Current gatedHost ledgeredDatabase :=
  ⟨fun _ => nofun, fun _ _ _ found => nomatch found⟩

/-- The migration is approved, and a run reads the approval. -/
def approvedRun : List (PoolMove StartedCall) :=
  [.start { call := .approve releaseExceptionMigrationName (bytes "owner") (bytes "reviewed") }] ++
    List.replicate 5 (.advance 0) ++ [.start { call := .up }] ++ List.replicate 5 (.advance 1)

/-- The approval is revoked, and the run goes on. -/
def revokedRun : List (PoolMove StartedCall) :=
  approvedRun ++ [.start { call := .revoke releaseExceptionMigrationName (bytes "owner") (bytes "withdrawn") }, .advance 2,
    .advance 1]

/-- A revoked migration is committed, since its approval was read before. -/
theorem revokedMigration_committed : ∃ entry earlier,
    (after gatedHost ledgeredDatabase revokedRun).log = [] ++ entry :: earlier ∧
    commitOf gatedHost entry = some releaseExceptionMigrationName ∧
    ¬ ApprovedLast gatedHost ledgeredDatabase releaseExceptionMigrationName
      (lastDecision gatedHost earlier releaseExceptionMigrationName) :=
  revoked_of_head (by decide +kernel) (by decide +kernel)

/-- Without the revocation the last decision before the commit is the approval. -/
theorem approvedRun_committed : ∃ entry earlier,
    (after gatedHost ledgeredDatabase (approvedRun ++ [.advance 1])).log = [] ++ entry :: earlier ∧
    commitOf gatedHost entry = some releaseExceptionMigrationName ∧
    ApprovedLast gatedHost ledgeredDatabase releaseExceptionMigrationName
      (lastDecision gatedHost earlier releaseExceptionMigrationName) := by
  have waits : Run.Along (Pool.step (StartedCall.code gatedHost)) RevocationWaits { cell := ledgeredDatabase }
      (approvedRun ++ [.advance 1]) := by decide +kernel
  have commits : (after gatedHost ledgeredDatabase (approvedRun ++ [.advance 1])).log.head?.bind (commitOf gatedHost) =
      some releaseExceptionMigrationName := by decide +kernel
  cases log : (after gatedHost ledgeredDatabase (approvedRun ++ [.advance 1])).log with
  | nil =>
      rw [log] at commits
      cases commits
  | cons entry earlier =>
      rw [log] at commits
      exact ⟨entry, earlier, rfl, commits,
        gatedMigration_approved ledgeredDatabase_current.tables _ waits [] earlier entry log commits⟩

/-- After the race the approval is revoked, and the migration was committed once. -/
theorem revokedRun_decided :
    ¬ Effective gatedHost (after gatedHost ledgeredDatabase revokedRun).cell releaseExceptionMigrationName ∧
    (committed gatedHost (after gatedHost ledgeredDatabase revokedRun).log).Nodup ∧
    committed gatedHost (after gatedHost ledgeredDatabase revokedRun).log = [releaseExceptionMigrationName] := by
  obtain ⟨decided, once⟩ := approval_is_lastDecision ledgeredDatabase_current revokedRun
  have last : lastDecision gatedHost (after gatedHost ledgeredDatabase revokedRun).log releaseExceptionMigrationName =
      some .revoked := by decide +kernel
  refine ⟨fun effective => ?_, once, by decide +kernel⟩
  have approves := (decided _).mp effective
  rw [last] at approves
  exact approves

end Race

end AreaFlow.Migrate
