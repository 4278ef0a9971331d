import AreaFlow.Library.Programs
import AreaFlow.Construction.Project.Commands

namespace AreaFlow.Migrate
open Go Project

/-- A migration is a file that is embedded in the program. -/
structure Migration where
  name : GoString
  sql : GoString
  deriving DecidableEq

def releaseExceptionMigrationName : GoString := bytes "000012_v1_release_exceptions.sql"

def checksumMigrationName : GoString := bytes "000013_v1_migration_checksums.sql"

/-- This migration creates the ledger. -/
def ledgerMigrationName : GoString := bytes "000011_v1_migration_ledger.sql"

/-- A checksum is a text of 64 hexadecimal digits. -/
def isHexDigest (text : GoString) : Bool :=
  text.length == 64 && text.all fun c => (48 ≤ c && c ≤ 57) || (97 ≤ c && c ≤ 102)

/-- The table admits no other text as a checksum. -/
abbrev HexDigest : Type := { text : GoString // isHexDigest text = true }

theorem digest_isHexDigest (text : GoString) : isHexDigest (Json.digest text) = true := by
  have digits : ∀ n < 16, (48 ≤ Json.hexDigit n && Json.hexDigit n ≤ 57) ||
      (97 ≤ Json.hexDigit n && Json.hexDigit n ≤ 102) := by decide
  simp only [isHexDigest, Json.digest, List.length_map, List.length_range, BEq.rfl, Bool.true_and, List.all_map,
    List.all_eq_true, Function.comp_apply]
  exact fun place _ => digits _ (Nat.mod_lt _ (by decide))

/-- This digest stands for the hash of a migration in runs on fixed inputs. -/
def sampleHash (sql : GoString) : HexDigest := ⟨Json.digest sql, digest_isHexDigest sql⟩

/-- These are the embedded migrations in the order of their names, and the hash function. -/
structure MigrateHost where
  list : List Migration
  sorted : list.Pairwise fun first second => first.name < second.name
  migrationHash : GoString → HexDigest

/-- This is the table of applied migrations. One of the migrations adds the column of checksums; an empty checksum is that
of a migration that was applied before. -/
inductive SchemaMigrations where
  | absent
  | names (applied : List GoString)
  | checksums (rows : List (GoString × Option HexDigest))
  deriving DecidableEq

namespace SchemaMigrations

/-- These are the names of the applied migrations. -/
def applied : SchemaMigrations → List GoString
  | absent => []
  | names applied => applied
  | checksums rows => rows.map (·.1)

def hasChecksums : SchemaMigrations → Bool
  | checksums _ => true
  | _ => false

end SchemaMigrations

inductive LedgerPhase where
  | preflight
  | apply
  | verify
  | remediation
  deriving DecidableEq

/-- The table admits these states of a phase. -/
inductive LedgerStatus where
  | ready
  | pass
  | blocked
  | failed
  | skipped
  deriving DecidableEq

def LedgerStatus.text : LedgerStatus → GoString
  | ready => bytes "ready"
  | pass => bytes "pass"
  | blocked => bytes "blocked"
  | failed => bytes "failed"
  | skipped => bytes "skipped"

structure LedgerRow where
  migrationName : GoString
  phase : LedgerPhase
  status : LedgerStatus
  message : GoString
  migrationHash : Option GoString
  evidence : Metadata
  remediation : GoString
  deriving DecidableEq

/-- A row is that of a migration and a phase. The table has one row for each of them. -/
def LedgerRow.At (row : LedgerRow) (name : GoString) (phase : LedgerPhase) : Prop :=
  row.migrationName = name ∧ row.phase = phase

instance (row : LedgerRow) (name : GoString) (phase : LedgerPhase) : Decidable (row.At name phase) :=
  inferInstanceAs (Decidable (_ ∧ _))

/-- These are the tables that migrations are recorded in. -/
structure MigrationDatabase where
  schema : SchemaMigrations := .absent
  ledger : Option (List LedgerRow) := none
  deriving DecidableEq

section Ledger

variable (host : MigrateHost)

/-- This function inserts a row or changes the row that stands in its place. -/
def upsertLedger (row : LedgerRow) (change : LedgerRow → LedgerRow) (rows : List LedgerRow) : List LedgerRow :=
  if rows.any fun old => decide (old.At row.migrationName row.phase) then
    rows.map fun old => if old.At row.migrationName row.phase then change old else old
  else rows ++ [row]

def ledgerEvidence (migration : Migration) (phase : LedgerPhase) : Metadata :=
  [(bytes "embedded", .flag true), (bytes "migration_hash", .text (host.migrationHash migration.sql).val),
    (bytes "schema_migrations_recorded", .flag (phase != .preflight)), (bytes "migration_runner_recorded", .flag true),
    (bytes "destructive_rollback_opened", .flag false)]

/-- The evidence of a phase is merged into the evidence of its row. -/
def recordMigrationLedgerPhase (migration : Migration) (phase : LedgerPhase) (message remediation : GoString)
    (rows : List LedgerRow) : List LedgerRow :=
  let row : LedgerRow :=
    { migrationName := migration.name, phase := phase, status := .ready, message := message,
      migrationHash := some (host.migrationHash migration.sql).val, evidence := ledgerEvidence host migration phase,
      remediation := remediation }
  upsertLedger row (fun old => { row with evidence := setKeys old.evidence row.evidence }) rows

def recordPreflight (migration : Migration) (rows : List LedgerRow) : List LedgerRow :=
  recordMigrationLedgerPhase host migration .preflight (bytes "migration preflight checks passed")
    (bytes "rerun areaflow migrate up after checking schema_migrations and embedded migration list") rows

/-- These are the four phases that are recorded after the SQL of a migration. -/
def recordPhases (migration : Migration) (rows : List LedgerRow) : List LedgerRow :=
  let preflight := recordPreflight host migration rows
  let applied := recordMigrationLedgerPhase host migration .apply
    (bytes "migration SQL applied and schema_migrations row recorded")
    (bytes "restore from backup or apply a targeted remediation migration after approval") preflight
  let verified := recordMigrationLedgerPhase host migration .verify
    (bytes "migration is visible in schema_migrations before commit")
    (bytes "rerun migration ledger readiness after repairing schema state") applied
  recordMigrationLedgerPhase host migration .remediation
    (bytes "rollback/remediation wording is recorded for migration audit readiness")
    (bytes "prepare approved forward-only remediation migration; destructive rollback is not opened") verified

/-- This is a row that the ledger is created with. -/
def bootstrapRow (name : GoString) (phase : LedgerPhase) (message remediation : GoString) : LedgerRow where
  migrationName := name
  phase := phase
  status := .ready
  message := message
  migrationHash := none
  evidence := [(bytes "bootstrap", .flag true), (bytes "source", .text ledgerMigrationName),
    (bytes "schema_migrations_recorded", .flag true)]
  remediation := remediation

def bootstrapRows (name : GoString) : List LedgerRow :=
  [bootstrapRow name .preflight
      (bytes "historical migration is recorded in schema_migrations before ledger bootstrap")
      (bytes "rerun areaflow migrate up after checking schema_migrations and embedded migration list"),
    bootstrapRow name .apply (bytes "historical migration apply is represented by schema_migrations")
      (bytes "restore from backup or apply a targeted remediation migration after approval"),
    bootstrapRow name .verify
      (bytes "historical migration is verifyable through schema_migrations and embedded migration readiness")
      (bytes "rerun migration ledger readiness after repairing schema state"),
    bootstrapRow name .remediation (bytes "rollback/remediation wording is recorded for migration audit readiness")
      (bytes "prepare approved forward-only remediation migration; destructive rollback is not opened")]

/-- The rows that stand in the ledger already are kept. -/
def bootstrapLedger (names : List GoString) (rows : List LedgerRow) : List LedgerRow :=
  ((names ++ [ledgerMigrationName]).flatMap bootstrapRows).foldl (fun all row => upsertLedger row id all) rows

end Ledger

section Apply

variable (host : MigrateHost) (migration : Migration)

/-- This is what the SQL of a migration does to the tables of this package. Only two migrations touch them. -/
def executeSQL (db : MigrationDatabase) : Except GoString MigrationDatabase :=
  if migration.name = ledgerMigrationName then
    .ok { db with ledger := some (bootstrapLedger db.schema.applied (db.ledger.getD [])) }
  else if migration.name = checksumMigrationName then
    match db.schema with
    | .absent => .error (bytes "relation schema_migrations does not exist")
    | .names applied => .ok { db with schema := .checksums (applied.map fun name => (name, none)) }
    | .checksums _ => .ok db
  else .ok db

/-- The name of a migration is the primary key of the table. -/
def insertSchemaMigration (schema : SchemaMigrations) : Except GoString SchemaMigrations :=
  match schema with
  | .absent => .error (bytes "relation schema_migrations does not exist")
  | .names applied =>
      if migration.name ∈ applied then .error (bytes "duplicate key value violates unique constraint")
      else .ok (.names (applied ++ [migration.name]))
  | .checksums rows =>
      if migration.name ∈ rows.map (·.1) then .error (bytes "duplicate key value violates unique constraint")
      else .ok (.checksums (rows ++ [(migration.name, some (host.migrationHash migration.sql))]))

/-- This is the transaction that applies a migration. -/
def apply (db : MigrationDatabase) : Except GoString MigrationDatabase := do
  let prepared := { db with ledger := db.ledger.map (recordPreflight host migration) }
  let executed ← (executeSQL migration prepared).mapError fun failure =>
    bytes "apply migration " ++ migration.name ++ bytes ": " ++ failure
  let schema ← (insertSchemaMigration host migration executed.schema).mapError fun failure =>
    bytes "record migration " ++ migration.name ++ bytes ": " ++ failure
  pure { schema := schema, ledger := executed.ledger.map (recordPhases host migration) }

end Apply

/-- Checksums are checked once at the start, and again before each migration that follows the one that adds them. -/
inductive Site where
  | start
  | before (name : GoString)
  deriving DecidableEq

/-- These are the statements and transactions that the calls send to the database. -/
inductive Statement where
  | ensureTable
  | requireColumns (name : GoString)
  | checksumColumns (site : Site)
  | loadChecksum (site : Site) (name : GoString)
  | countLegacy (name : GoString)
  | isApplied (name : GoString)
  | approvalTables
  | approvalRow (name : GoString)
  | ledgerExists
  | recordApproval (migration : Migration) (actor reason : GoString)
  | recordRevocation (migration : Migration) (actor reason : GoString)
  | apply (migration : Migration)
  | recordHash (name : GoString) (digest : HexDigest)
  deriving DecidableEq

section Decisions

variable (host : MigrateHost) (migration : Migration) (actor reason : GoString)

def decisionEvidence (decision : GoString) : Metadata :=
  [(bytes "actor", .text actor), (bytes "reason", .text reason), (bytes "risk_level", .text (bytes "R4 migration_security")),
    (bytes "approval_status", .text decision)]

def approvalLedgerRow : LedgerRow where
  migrationName := migration.name
  phase := .remediation
  status := .pass
  message := bytes "explicit R4 migration approval recorded"
  migrationHash := some (host.migrationHash migration.sql).val
  evidence := decisionEvidence actor reason (bytes "approved")
  remediation := bytes "revoke approval before apply or disable release exception writes after apply"

def revocationLedgerRow : LedgerRow where
  migrationName := migration.name
  phase := .remediation
  status := .blocked
  message := bytes "R4 migration approval revoked; release exception writes are disabled"
  migrationHash := some (host.migrationHash migration.sql).val
  evidence := decisionEvidence actor reason (bytes "revoked")
  remediation := bytes "record a new explicit approval before any further release exception write"

/-- An approval overwrites the evidence of its row. -/
def recordApproval (rows : List LedgerRow) : List LedgerRow :=
  upsertLedger (approvalLedgerRow host migration actor reason) (fun _ => approvalLedgerRow host migration actor reason) rows

def recordRevocation (rows : List LedgerRow) : List LedgerRow :=
  rows.map fun old => if old.At migration.name .remediation then revocationLedgerRow host migration actor reason else old

end Decisions

section Statements

variable (host : MigrateHost)

def recordHash (name : GoString) (digest : HexDigest) : SchemaMigrations → SchemaMigrations
  | .checksums rows =>
      .checksums (rows.map fun row => if row.1 = name ∧ row.2 = none then (row.1, some digest) else row)
  | schema => schema

/-- This is what a statement leaves, if it does not fail. -/
def Statement.effect : Statement → MigrationDatabase → MigrationDatabase
  | .ensureTable, db => if db.schema = .absent then { db with schema := .names [] } else db
  | .recordApproval migration actor reason, db =>
      { db with ledger := db.ledger.map (Migrate.recordApproval host migration actor reason) }
  | .recordRevocation migration actor reason, db =>
      { db with ledger := db.ledger.map (Migrate.recordRevocation host migration actor reason) }
  | .apply migration, db =>
      match Migrate.apply host migration db with
      | .ok applied => applied
      | .error _ => db
  | .recordHash name digest, db => { db with schema := Migrate.recordHash name digest db.schema }
  | _, db => db

/-- An access is a statement, and the failure that it meets. -/
abbrev Access : Type := Statement × Option GoString

def perform (access : Access) (db : MigrationDatabase) : MigrationDatabase :=
  match access.2 with
  | some _ => db
  | none => access.1.effect host db

/-- A call makes its statements one by one. Others may change the database between them. -/
abbrev Attempt (A : Type) : Type := ExceptT GoString (Program Access MigrationDatabase) A

end Statements

structure ApprovalState where
  status : GoString := []
  migrationHash : GoString := []
  actor : GoString := []
  reason : GoString := []
  applied : Bool := false
  deriving DecidableEq

def approvalAllowsMigration (state : ApprovalState) (expectedHash : GoString) : Bool :=
  decide (state.status = bytes "approved" ∧ state.migrationHash = expectedHash)

/-- A load of one value fails, or finds no row. -/
inductive LoadFailure where
  | noRows
  | failed (message : GoString)
  deriving DecidableEq

section Calls

variable (host : MigrateHost) (faults : Statement → Option GoString)

def migrationByName (name : GoString) : Except GoString Migration :=
  match host.list.find? fun migration => decide (migration.name = name) with
  | some migration => .ok migration
  | none => .error (bytes "migration not found: " ++ name)

/-- This program sends one statement. -/
def send {A : Type} (statement : Statement) (context : GoString) (answer : MigrationDatabase → Except GoString A) :
    Attempt A :=
  ExceptT.mk (Program.change (statement, faults statement) (perform host (statement, faults statement)) fun found =>
    match faults statement with
    | some failure => .error (context ++ failure)
    | none => answer found)

def ensureTable : Attempt Unit := send host faults .ensureTable (bytes "ensure schema_migrations: ") fun _ => .ok ()

def isApplied (name : GoString) : Attempt Bool :=
  send host faults (.isApplied name) (bytes "check migration " ++ name ++ bytes ": ") fun found =>
    match found.schema with
    | .absent => .error (bytes "check migration " ++ name ++ bytes ": relation schema_migrations does not exist")
    | schema => .ok (decide (name ∈ schema.applied))

def checksumColumnsExist (statement : Statement) : Attempt Bool :=
  send host faults statement (bytes "check schema migration checksum columns: ") fun found => .ok found.schema.hasChecksums

def requireChecksumColumns (name : GoString) : Attempt Unit := do
  let columns ← checksumColumnsExist host faults (.requireColumns name)
  if columns then pure ()
  else throw (bytes "migration checksum schema is not applied; run areaflow migrate up first")

/-- This is the checksum in the row of a migration. -/
def lookupChecksum (rows : List (GoString × Option HexDigest)) (name : GoString) : Option (Option HexDigest) :=
  (rows.find? fun row => decide (row.1 = name)).map (·.2)

/-- This is the answer to the query for a checksum. -/
def checksumRow (found : MigrationDatabase) (name : GoString) : Except GoString (Option (Option HexDigest)) :=
  match found.schema with
  | .checksums rows => .ok (lookupChecksum rows name)
  | _ => .error (bytes "column sha256 does not exist")

/-- These are the text and the error that a load leaves. The text of a missing checksum is empty, and so is the variable that
a failed load leaves. -/
def scanChecksum : Except GoString (Option (Option HexDigest)) → GoString × Option LoadFailure
  | .error failure => ([], some (.failed failure))
  | .ok none => ([], some .noRows)
  | .ok (some none) => ([], none)
  | .ok (some (some digest)) => (digest.val, none)

def loadChecksum (site : Site) (name : GoString) : Program Access MigrationDatabase (GoString × Option LoadFailure) := do
  let loaded ← (send host faults (.loadChecksum site name) [] fun found => checksumRow found name).run
  pure (scanChecksum loaded)

/-- This is the loop over the embedded migrations. The first condition comes before the check of the failure. -/
def rejectMismatches (site : Site) : List Migration → Attempt Unit
  | [] => pure ()
  | migration :: rest => do
      let loaded ← ExceptT.lift (loadChecksum host faults site migration.name)
      if loaded.2 = some .noRows ∨ loaded.1 = [] then rejectMismatches site rest
      else
        match loaded.2 with
        | some _ => throw (bytes "load migration checksum " ++ migration.name)
        | none =>
            if loaded.1 ≠ (host.migrationHash migration.sql).val then
              throw (bytes "migration checksum mismatch for " ++ migration.name)
            else rejectMismatches site rest

def rejectChecksumMismatch (site : Site) : Attempt Unit := do
  let columns ← checksumColumnsExist host faults (.checksumColumns site)
  if columns then rejectMismatches host faults site host.list else pure ()

def legacyCount (schema : SchemaMigrations) : Nat :=
  match schema with
  | .checksums rows => rows.countP fun row => row.2.isNone
  | _ => 0

def requireVerifiedChecksums (name : GoString) : Attempt Unit := do
  requireChecksumColumns host faults name
  rejectChecksumMismatch host faults (.before name)
  let count ← send host faults (.countLegacy name) (bytes "count legacy migration checksums: ") fun found =>
    match found.schema with
    | .checksums _ => .ok (legacyCount found.schema)
    | _ => .error (bytes "count legacy migration checksums: column sha256 does not exist")
  if 0 < count then
    throw (bytes (toString count) ++
      bytes " applied migrations are legacy_unverified; run explicit checksum attestation before applying new migrations")
  else pure ()

/-- The status in the evidence comes before the status of the row. A row without a hash cannot be read. -/
def approvalFromRow (row : LedgerRow) (applied : Bool) : Except GoString ApprovalState :=
  match row.migrationHash with
  | none => .error (bytes "load migration approval: cannot scan NULL into string")
  | some hash =>
      let status := metadataString row.evidence (bytes "approval_status")
      .ok { status := if status = [] then row.status.text else status, migrationHash := hash,
            actor := metadataString row.evidence (bytes "actor"), reason := metadataString row.evidence (bytes "reason"),
            applied := applied }

def findLedgerRow (db : MigrationDatabase) (name : GoString) : Option LedgerRow :=
  (db.ledger.getD []).find? fun row => decide (row.At name .remediation)

/-- This is the answer to the query for the row of a migration. -/
def loadApprovalRow (found : MigrationDatabase) (name : GoString) : Except GoString (Option ApprovalState) :=
  if found.schema = .absent ∨ found.ledger = none then .error (bytes "load migration approval: relation does not exist")
  else
    match findLedgerRow found name with
    | none => .ok none
    | some row => some <$> approvalFromRow row (decide (name ∈ found.schema.applied))

def approval (name : GoString) : Attempt ApprovalState := do
  let tablesReady ← send host faults .approvalTables (bytes "check migration approval tables: ") fun found =>
    .ok (decide (found.schema ≠ .absent) && found.ledger.isSome)
  if tablesReady then
    let row ← send host faults (.approvalRow name) (bytes "load migration approval: ") fun found =>
      loadApprovalRow found name
    match row with
    | some state => pure state
    | none => do
        let applied ← isApplied host faults name
        pure { applied := applied }
  else pure {}

def applyMigration (migration : Migration) : Attempt Unit :=
  send host faults (.apply migration) (bytes "begin migration " ++ migration.name ++ bytes ": ") fun found =>
    (fun _ => ()) <$> apply host migration found

/-- This is the loop over the migrations that one run applied. -/
def recordAppliedRunHashes : List Migration → Attempt Unit
  | [] => pure ()
  | migration :: rest => do
      send host faults (.recordHash migration.name (host.migrationHash migration.sql))
        (bytes "record same-run migration checksum " ++ migration.name ++ bytes ": ") fun found =>
          if found.schema.hasChecksums then .ok () else .error (bytes "column sha256 does not exist")
      recordAppliedRunHashes rest

/-- The checksums are verified before each migration that follows the one that adds them. -/
def verifyBefore (migration : Migration) : Attempt Unit :=
  if checksumMigrationName < migration.name then requireVerifiedChecksums host faults migration.name else pure ()

/-- The hashes of this run are recorded when the column has been added. -/
def recordRun (migration : Migration) (applied : List Migration) : Attempt Unit :=
  if migration.name = checksumMigrationName then recordAppliedRunHashes host faults applied else pure ()

/-- A migration may be applied, unless it is the one that needs an approval. -/
def mayApply (migration : Migration) : Attempt Bool :=
  if migration.name = releaseExceptionMigrationName then do
    let state ← approval host faults migration.name
    pure (approvalAllowsMigration state (host.migrationHash migration.sql).val)
  else pure true

/-- This is the loop over the embedded migrations. The second argument holds the migrations that this run applied. -/
def upFrom : List Migration → List Migration → Attempt (List GoString)
  | [], applied => pure (applied.map (·.name))
  | migration :: rest, applied => do
      let alreadyApplied ← isApplied host faults migration.name
      if alreadyApplied then upFrom rest applied
      else do
        verifyBefore host faults migration
        let allowed ← mayApply host faults migration
        if allowed then do
          applyMigration host faults migration
          recordRun host faults migration (applied ++ [migration])
          upFrom rest (applied ++ [migration])
        else upFrom rest applied

def up : Attempt (List GoString) := do
  ensureTable host faults
  rejectChecksumMismatch host faults .start
  upFrom host faults host.list []

/-- This is the check of the two texts that a decision needs. -/
def requireTexts (message actor reason : GoString) : Except GoString Unit :=
  if trimSpace actor = [] ∨ trimSpace reason = [] then .error message else .ok ()

def approve (name actor reason : GoString) : Attempt ApprovalState := do
  let migration ← ExceptT.mk (pure (migrationByName host name))
  ExceptT.mk (pure (requireTexts (bytes "migration approval actor and reason are required") actor reason))
  ensureTable host faults
  let present ← send host faults .ledgerExists (bytes "check migration ledger: ") fun found => .ok found.ledger.isSome
  if present then
    send host faults (.recordApproval migration (trimSpace actor) (trimSpace reason)) (bytes "record migration approval: ")
      fun found => if found.ledger.isSome then .ok () else .error (bytes "relation migration_ledger does not exist")
    approval host faults name
  else throw (bytes "migration ledger is required before approving " ++ name)

def revoke (name actor reason : GoString) : Attempt ApprovalState := do
  let migration ← ExceptT.mk (pure (migrationByName host name))
  ExceptT.mk (pure (requireTexts (bytes "migration revocation actor and reason are required") actor reason))
  send host faults (.recordRevocation migration (trimSpace actor) (trimSpace reason)) (bytes "revoke migration approval: ")
    fun found =>
      if found.ledger.isNone then .error (bytes "revoke migration approval: relation migration_ledger does not exist")
      else if (findLedgerRow found name).isNone then .error (bytes "migration approval not found for " ++ name)
      else .ok ()
  approval host faults name

def applyApproved (name : GoString) : Attempt Bool := do
  let migration ← ExceptT.mk (pure (migrationByName host name))
  ensureTable host faults
  let applied ← isApplied host faults name
  if applied then pure false
  else do
    let state ← approval host faults name
    if approvalAllowsMigration state (host.migrationHash migration.sql).val then
      applyMigration host faults migration
      pure true
    else throw (bytes "effective approved migration approval is required for " ++ name)

end Calls

/-- These are the calls of the package. -/
inductive Call where
  | approve (name actor reason : GoString)
  | revoke (name actor reason : GoString)
  | up
  | applyApproved (name : GoString)
  deriving DecidableEq

inductive CallAnswer where
  | approval (state : ApprovalState)
  | names (applied : List GoString)
  | applied (flag : Bool)
  deriving DecidableEq

/-- This is the program of a call. -/
def Call.program (host : MigrateHost) (faults : Statement → Option GoString) : Call → Attempt CallAnswer
  | .approve name actor reason => CallAnswer.approval <$> Migrate.approve host faults name actor reason
  | .revoke name actor reason => CallAnswer.approval <$> Migrate.revoke host faults name actor reason
  | .up => CallAnswer.names <$> Migrate.up host faults
  | .applyApproved name => CallAnswer.applied <$> Migrate.applyApproved host faults name

/-- This function reports the approval that a reader finds who is not disturbed. -/
def currentApproval (host : MigrateHost) (db : MigrationDatabase) (name : GoString) : Except GoString ApprovalState :=
  ((approval host (fun _ => none) name).run.run db).1

def approvalEffective (host : MigrateHost) (name : GoString) (state : ApprovalState) : Except GoString Bool := do
  let migration ← migrationByName host name
  pure (approvalAllowsMigration state (host.migrationHash migration.sql).val)

/-- A stored approval is effective. -/
def Effective (host : MigrateHost) (db : MigrationDatabase) (name : GoString) : Prop :=
  (currentApproval host db name >>= approvalEffective host name) = .ok true

end AreaFlow.Migrate
