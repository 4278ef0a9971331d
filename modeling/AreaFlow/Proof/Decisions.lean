import AreaFlow.Proof.Ledger

namespace AreaFlow.Migrate
open Go Project Program

section Effective

variable {host : MigrateHost} {db : MigrationDatabase} {name : GoString} {migration : Migration}

theorem send_run {A : Type} (faults : Statement → Option GoString) (statement : Statement) (context : GoString)
    (answer : MigrationDatabase → Except GoString A) (db : MigrationDatabase) :
    (send host faults statement context answer).run.run db =
      ((match faults statement with
        | some failure => .error (context ++ failure)
        | none => answer db), perform host (statement, faults statement) db) := rfl

/-- A migration without a row in the ledger is not approved. -/
theorem unrecorded_denies (applied : Bool) (hash : GoString) :
    approvalAllowsMigration { applied := applied } hash = false := by
  have differs : ([] : GoString) ≠ bytes "approved" := by decide
  simp [approvalAllowsMigration, differs]

theorem LedgerStatus.text_ne_approved (status : LedgerStatus) : status.text ≠ bytes "approved" := by
  cases status <;> decide

/-- The row of a migration allows it, if it holds the hash and the decision. -/
theorem approvalFromRow_allows {row : LedgerRow} {applied : Bool} {hash : GoString} :
    (∃ state, approvalFromRow row applied = .ok state ∧ approvalAllowsMigration state hash = true) ↔
      row.migrationHash = some hash ∧ verdict (some row) = bytes "approved" := by
  have nonempty : bytes "approved" ≠ [] := by decide
  unfold approvalFromRow verdict
  cases row.migrationHash with
  | none => simp
  | some stored =>
      by_cases undecided : metadataString row.evidence (bytes "approval_status") = []
      · have denied := LedgerStatus.text_ne_approved row.status
        simp [approvalAllowsMigration, undecided, denied, nonempty.symm]
      · simp [approvalAllowsMigration, undecided, and_comm]

/-- The row that is read allows a migration, if the tables exist and the row says so. -/
theorem loadApprovalRow_allows {hash : GoString} :
    (∃ state, loadApprovalRow db name = .ok (some state) ∧ approvalAllowsMigration state hash = true) ↔
      db.schema ≠ .absent ∧ ∃ row, findLedgerRow db name = some row ∧ row.migrationHash = some hash ∧
        verdict (some row) = bytes "approved" := by
  unfold loadApprovalRow
  by_cases absent : db.schema = .absent
  · simp [absent]
  · cases found : findLedgerRow db name with
    | none =>
        simp only [reduceCtorEq, false_and, exists_false, and_false, iff_false, not_exists, not_and]
        intro state
        split <;> simp
    | some row =>
        have stored : db.ledger ≠ none := by
          intro none
          rw [findLedgerRow, none] at found
          cases found
        simp only [absent, stored, or_self, if_false, Option.some.injEq, exists_eq_left', not_false_eq_true, ne_eq, true_and]
        rw [← @approvalFromRow_allows row (decide (name ∈ db.schema.applied))]
        cases approvalFromRow row (decide (name ∈ db.schema.applied)) <;> simp

/-- A reader who is not disturbed finds the row of the ledger. -/
theorem currentApproval_eq :
    currentApproval host db name =
      if db.schema = .absent ∨ db.ledger = none then .ok {}
      else (loadApprovalRow db name).map fun row => row.getD { applied := decide (name ∈ db.schema.applied) } := by
  unfold currentApproval approval
  rw [run_attempt, send_run]
  dsimp only [perform]
  by_cases ready : db.schema = .absent ∨ db.ledger = none
  · have missing : (decide (db.schema ≠ .absent) && db.ledger.isSome) = false := by
      rcases ready with absent | absent <;> simp [absent]
    rw [if_pos ready]
    simp only [missing]
    rfl
  · have there : (decide (db.schema ≠ .absent) && db.ledger.isSome) = true := by
      simpa [Option.isSome_iff_ne_none] using ready
    rw [if_neg ready]
    simp only [there, if_true]
    rw [run_attempt, send_run]
    dsimp only [Statement.effect]
    cases loadApprovalRow db name with
    | error failure => rfl
    | ok row =>
        cases row with
        | some state => rfl
        | none =>
            obtain ⟨schema, ledger⟩ := db
            cases schema with
            | absent => exact absurd (Or.inl rfl) ready
            | _ => rfl

theorem currentApproval_allows {hash : GoString} :
    (∃ state, currentApproval host db name = .ok state ∧ approvalAllowsMigration state hash = true) ↔
      ∃ state, loadApprovalRow db name = .ok (some state) ∧ approvalAllowsMigration state hash = true := by
  have denied := unrecorded_denies
  rw [currentApproval_eq]
  by_cases ready : db.schema = .absent ∨ db.ledger = none
  · simp [loadApprovalRow, ready, denied]
  · rw [if_neg ready]
    rcases loadApprovalRow db name with failure | _ | state <;> simp [Except.map, denied]

/-- A stored approval is effective, if its row says so. -/
theorem effective_iff :
    Effective host db name ↔ ∃ migration, migrationByName host name = .ok migration ∧ db.schema ≠ .absent ∧
      ∃ row, findLedgerRow db name = some row ∧ row.migrationHash = some (host.migrationHash migration.sql).val ∧
        verdict (some row) = bytes "approved" := by
  unfold Effective approvalEffective
  cases migrationByName host name with
  | error failure =>
      cases currentApproval host db name <;> simp [bind, Except.bind]
  | ok migration =>
      simp only [Except.ok.injEq, exists_eq_left']
      rw [← loadApprovalRow_allows, ← @currentApproval_allows host]
      cases currentApproval host db name <;> simp [bind, Except.bind, pure, Except.pure]

end Effective

/-- A committed step decides about a migration. An approval is given for a hash. -/
inductive Decision where
  | approved (hash : GoString)
  | revoked
  deriving DecidableEq

/-- An access is one of a log, with what it found and what it left. -/
abbrev Entry : Type := Access × MigrationDatabase × MigrationDatabase

section Decisions

variable (host : MigrateHost)

/-- This is the decision that an access commits. -/
def decisionAbout (name : GoString) : Entry → Option Decision
  | ((.recordApproval migration _ _, none), found, _) =>
      if migration.name = name ∧ found.ledger.isSome then some (.approved (host.migrationHash migration.sql).val) else none
  | ((.recordRevocation migration _ _, none), found, _) =>
      if migration.name = name ∧ (findLedgerRow found name).isSome then some .revoked else none
  | _ => none

def lastDecision (log : List Entry) (name : GoString) : Option Decision := log.findSome? (decisionAbout host name)

/-- The ledger exists only beside the table of applied migrations, and every approval in it was given for the embedded
SQL. -/
structure Current (db : MigrationDatabase) : Prop where
  tables : db.ledger.isSome → db.schema ≠ .absent
  approvals : ∀ migration ∈ host.list, ∀ row, findLedgerRow db migration.name = some row →
    verdict (some row) = bytes "approved" → row.migrationHash = some (host.migrationHash migration.sql).val

/-- A statement names only embedded migrations. -/
def Statement.Embedded : Statement → Prop
  | .recordApproval migration _ _ => migration ∈ host.list
  | .recordRevocation migration _ _ => migration ∈ host.list
  | .apply migration => migration ∈ host.list
  | _ => True

variable {host}

/-- Two embedded migrations of one name are the same. -/
theorem list_unique {first second : Migration} (one : first ∈ host.list) (two : second ∈ host.list)
    (same : first.name = second.name) : first = second := by
  by_contra differ
  have apart : host.list.Pairwise fun first second => first.name ≠ second.name := by
    apply host.sorted.imp
    intro first second less equal
    rw [equal] at less
    exact List.lt_irrefl _ less
  have : Std.Symm fun first second : Migration => first.name ≠ second.name := ⟨fun _ _ => Ne.symm⟩
  exact apart.forall one two differ same

theorem migrationByName_of_mem {migration : Migration} (member : migration ∈ host.list) :
    migrationByName host migration.name = .ok migration := by
  unfold migrationByName
  cases found : host.list.find? fun other => decide (other.name = migration.name) with
  | none => exact absurd (decide_eq_true rfl) (List.find?_eq_none.mp found migration member)
  | some other =>
      have named : other.name = migration.name := by simpa using List.find?_some found
      rw [list_unique (List.mem_of_find?_eq_some found) member named]

theorem mem_of_migrationByName {migration : Migration} {name : GoString}
    (found : migrationByName host name = .ok migration) : migration ∈ host.list ∧ migration.name = name := by
  unfold migrationByName at found
  split at found
  · rename_i other first
    obtain rfl := Except.ok.inj found
    exact ⟨List.mem_of_find?_eq_some first, by simpa using List.find?_some first⟩
  · cases found

variable {db : MigrationDatabase} {name : GoString}

theorem isSome_of_findLedgerRow {row : LedgerRow} (found : findLedgerRow db name = some row) : db.ledger.isSome := by
  rw [Option.isSome_iff_ne_none]
  intro none
  rw [findLedgerRow, none] at found
  cases found

/-- In a ledger with current approvals, a migration is approved exactly if the evidence says so. -/
theorem Current.effective_iff (current : Current host db) {migration : Migration} (member : migration ∈ host.list) :
    Effective host db migration.name ↔ verdict (findLedgerRow db migration.name) = bytes "approved" := by
  rw [Migrate.effective_iff]
  constructor
  · rintro ⟨_, -, -, row, found, -, decided⟩
    rw [found]
    exact decided
  · intro decided
    cases found : findLedgerRow db migration.name with
    | none =>
        rw [found] at decided
        exact absurd decided (by decide)
    | some row =>
        rw [found] at decided
        exact ⟨migration, migrationByName_of_mem member, current.tables (isSome_of_findLedgerRow found), row, rfl,
          current.approvals migration member row found decided, decided⟩

/-- This is what the evidence says after a decision. -/
def Decision.verdict : Decision → GoString
  | .approved _ => bytes "approved"
  | .revoked => bytes "revoked"

/-- A statement records the hash of a migration. -/
def Statement.Records (statement : Statement) (migration : Migration) : Prop :=
  statement = .apply migration ∨ ∃ actor reason, statement = .recordApproval migration actor reason

/-- An access changes a decision only if it is one. An approval that stands in the ledger after it stood there before, or
the statement has recorded the hash of the embedded SQL. -/
structure Decides (host : MigrateHost) (access : Access) (db after : MigrationDatabase) : Prop where
  tables : (db.ledger.isSome → db.schema ≠ .absent) → after.ledger.isSome → after.schema ≠ .absent
  verdicts : ∀ name, verdict (findLedgerRow after name) =
    match decisionAbout host name (access, db, after) with
    | some decision => decision.verdict
    | none => verdict (findLedgerRow db name)
  hashes : ∀ name row, findLedgerRow after name = some row → verdict (some row) = bytes "approved" →
    findLedgerRow db name = some row ∨ ∃ migration ∈ host.list, migration.name = name ∧ access.1.Records migration ∧
      row.migrationHash = some (host.migrationHash migration.sql).val

/-- An access that leaves the ledger and is no decision decides nothing. -/
theorem Decides.unchanged {access : Access} {after : MigrationDatabase} (same : after.ledger = db.ledger)
    (present : db.schema ≠ .absent → after.schema ≠ .absent)
    (undecided : ∀ name, decisionAbout host name (access, db, after) = none) : Decides host access db after := by
  have rows : ∀ name, findLedgerRow after name = findLedgerRow db name := by
    intro name
    rw [findLedgerRow, findLedgerRow, same]
  refine ⟨fun tables stored => present (tables (same ▸ stored)), fun name => ?_, fun name row found _ => Or.inl ?_⟩
  · rw [undecided, rows]
  · rw [← rows, found]

theorem Decides.current {access : Access} {after : MigrationDatabase} (decides : Decides host access db after)
    (current : Current host db) : Current host after := by
  refine ⟨decides.tables current.tables, fun migration member row found decided => ?_⟩
  rcases decides.hashes migration.name row found decided with before | ⟨other, listed, same, -, hash⟩
  · exact current.approvals migration member row before decided
  · rw [hash, list_unique listed member same]

section Steps

variable {migration : Migration} {actor reason : GoString}

theorem recordApproval_decides (member : migration ∈ host.list) :
    Decides host (.recordApproval migration actor reason, none) db
      (Statement.effect host (.recordApproval migration actor reason) db) := by
  obtain ⟨schema, _ | rows⟩ := db
  · exact .unchanged rfl id fun _ => by simp [decisionAbout]
  · have self : rowAt (recordApproval host migration actor reason rows) migration.name .remediation =
        some (approvalLedgerRow host migration actor reason) := by
      have stored := @rowAt_upsert_self rows (approvalLedgerRow host migration actor reason)
        (fun _ => approvalLedgerRow host migration actor reason) fun _ => ⟨rfl, rfl⟩
      refine stored.trans ?_
      cases rowAt rows _ _ <;> rfl
    have other : ∀ name, migration.name ≠ name →
        rowAt (recordApproval host migration actor reason rows) name .remediation = rowAt rows name .remediation :=
      fun name differs => rowAt_upsert_other (fun _ => Or.inl ⟨rfl, rfl⟩) fun same => differs same.1
    refine ⟨fun tables => tables, fun name => ?_, fun name row found decided => ?_⟩
    · by_cases same : migration.name = name
      · subst same
        simp only [decisionAbout, Option.isSome_some, and_self, if_true]
        exact congrArg verdict self
      · simp only [decisionAbout, same, false_and, if_false]
        exact congrArg verdict (other name same)
    · by_cases same : migration.name = name
      · subst same
        obtain rfl := Option.some.inj (self.symm.trans found)
        exact Or.inr ⟨migration, member, rfl, Or.inr ⟨actor, reason, rfl⟩, rfl⟩
      · exact Or.inl ((other _ same).symm.trans found)

theorem recordRevocation_decides :
    Decides host (.recordRevocation migration actor reason, none) db
      (Statement.effect host (.recordRevocation migration actor reason) db) := by
  obtain ⟨schema, _ | rows⟩ := db
  · exact .unchanged rfl id fun _ => by simp [decisionAbout, findLedgerRow]
  · have looked : ∀ name, rowAt (recordRevocation host migration actor reason rows) name .remediation =
        (rowAt rows name .remediation).map fun old =>
          if old.At migration.name .remediation then revocationLedgerRow host migration actor reason else old := by
      intro name
      apply rowAt_map
      intro old _
      split
      · rename_i fits
        constructor
        · rintro ⟨named, -⟩
          exact ⟨fits.1.trans named, fits.2⟩
        · rintro ⟨named, -⟩
          exact ⟨fits.1.symm.trans named, rfl⟩
      · rfl
    have self : rowAt (recordRevocation host migration actor reason rows) migration.name .remediation =
        (rowAt rows migration.name .remediation).map fun _ => revocationLedgerRow host migration actor reason := by
      rw [looked]
      cases found : rowAt rows migration.name .remediation with
      | none => rfl
      | some old =>
          have fits : old.At migration.name .remediation := by simpa using List.find?_some found
          simp [fits]
    have other : ∀ name, migration.name ≠ name →
        rowAt (recordRevocation host migration actor reason rows) name .remediation = rowAt rows name .remediation := by
      intro name differs
      rw [looked]
      cases found : rowAt rows name .remediation with
      | none => rfl
      | some old =>
          have fits : old.At name .remediation := by simpa using List.find?_some found
          have apart : ¬ old.At migration.name .remediation := fun same => differs (same.1.symm.trans fits.1)
          simp [apart]
    refine ⟨fun tables => tables, fun name => ?_, fun name row found decided => ?_⟩
    · by_cases same : migration.name = name
      · subst same
        refine (congrArg verdict self).trans ?_
        simp only [decisionAbout, true_and, findLedgerRow_eq, Option.getD_some]
        cases rowAt rows migration.name .remediation <;> rfl
      · simp only [decisionAbout, same, false_and, if_false]
        exact congrArg verdict (other name same)
    · by_cases same : migration.name = name
      · subst same
        have stored := self.symm.trans found
        obtain ⟨old, -, rfl⟩ := Option.map_eq_some_iff.mp stored
        exact absurd decided (show ¬ bytes "revoked" = bytes "approved" by decide)
      · exact Or.inl ((other _ same).symm.trans found)

theorem apply_decides (member : migration ∈ host.list) :
    Decides host (.apply migration, none) db (Statement.effect host (.apply migration) db) := by
  dsimp only [Statement.effect]
  cases done : apply host migration db with
  | error failure => exact .unchanged rfl id fun _ => rfl
  | ok applied =>
      have facts := apply_ok done
      refine ⟨fun _ _ => facts.present, facts.verdicts, fun name row found decided => ?_⟩
      by_cases same : migration.name = name
      · subst same
        exact Or.inr ⟨migration, member, rfl, Or.inl rfl, facts.hashed row found⟩
      · -- The row of another migration with a decision was there before.
        have before : verdict (findLedgerRow db name) = bytes "approved" := by
          rw [← facts.verdicts, found]
          exact decided
        cases stored : findLedgerRow db name with
        | none =>
            rw [stored] at before
            exact absurd before (by decide)
        | some old => exact Or.inl ((facts.others _ same old stored).symm.trans found)

/-- Every access about embedded migrations changes a decision only if it is one. -/
theorem perform_decides {access : Access} (embedded : access.1.Embedded host) :
    Decides host access db (perform host access db) := by
  obtain ⟨statement, _ | failure⟩ := access
  · cases statement with
    | recordApproval migration actor reason => exact recordApproval_decides embedded
    | recordRevocation migration actor reason => exact recordRevocation_decides
    | apply migration => exact apply_decides embedded
    | ensureTable =>
        dsimp only [perform, Statement.effect]
        split
        · exact .unchanged rfl (fun _ => nofun) fun _ => rfl
        · exact .unchanged rfl id fun _ => rfl
    | recordHash name digest =>
        refine .unchanged rfl (fun present => ?_) fun _ => rfl
        obtain ⟨schema, ledger⟩ := db
        cases schema <;> simp_all [perform, Statement.effect, recordHash]
    | requireColumns | checksumColumns | loadChecksum | countLegacy | isApplied | approvalTables | approvalRow
    | ledgerExists => exact .unchanged rfl id fun _ => rfl
  · exact .unchanged rfl id fun _ => by cases statement <;> rfl

end Steps

end Decisions

end AreaFlow.Migrate
