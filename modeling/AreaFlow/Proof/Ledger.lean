import AreaFlow.Construction.Migrate
import AreaFlow.Library.Pools
import AreaFlow.Proof.Metadata

namespace AreaFlow.Migrate
open Go Project Program

/-- This is the row of a migration and a phase. -/
def rowAt (rows : List LedgerRow) (name : GoString) (phase : LedgerPhase) : Option LedgerRow :=
  rows.find? fun row => decide (row.At name phase)

/-- This is the decision that the evidence of a row holds. -/
def verdict (row : Option LedgerRow) : GoString :=
  (row.map fun row => metadataString row.evidence (bytes "approval_status")).getD []

section Upsert

variable {rows : List LedgerRow} {row : LedgerRow} {change : LedgerRow → LedgerRow} {name : GoString} {phase : LedgerPhase}

theorem rowAt_of_mem_any (present : rows.any fun old => decide (old.At name phase)) :
    ∃ old, rowAt rows name phase = some old := by
  obtain ⟨old, member, fits⟩ := List.any_eq_true.mp present
  cases found : rowAt rows name phase with
  | none => exact absurd fits (List.find?_eq_none.mp found old member)
  | some first => exact ⟨first, rfl⟩

/-- A map that keeps the place of every row is seen through a lookup. -/
theorem rowAt_map {f : LedgerRow → LedgerRow}
    (keeps : ∀ old ∈ rows, (f old).At name phase ↔ old.At name phase) :
    rowAt (rows.map f) name phase = (rowAt rows name phase).map f := by
  induction rows with
  | nil => rfl
  | cons old rest ih =>
      have later := ih fun other member => keeps other (List.mem_cons_of_mem _ member)
      have here := keeps old List.mem_cons_self
      unfold rowAt at later ⊢
      rw [List.map_cons, List.find?_cons, List.find?_cons]
      by_cases fits : old.At name phase
      · simp [fits, here.mpr fits]
      · simp only [fits, mt here.mp fits, decide_false]
        exact later

/-- A row that is inserted or changed stands in its place. -/
theorem rowAt_upsert_self (keeps : ∀ old, (change old).At row.migrationName row.phase) :
    rowAt (upsertLedger row change rows) row.migrationName row.phase =
      some (((rowAt rows row.migrationName row.phase).map change).getD row) := by
  unfold upsertLedger
  split
  · rename_i present
    obtain ⟨old, found⟩ := rowAt_of_mem_any present
    have fits : old.At row.migrationName row.phase := by simpa using List.find?_some found
    rw [rowAt_map, found]
    · simp [fits]
    · intro other _
      split <;> simp_all
  · rename_i missing
    have absent : rowAt rows row.migrationName row.phase = none := by
      simpa [rowAt] using missing
    rw [absent]
    unfold rowAt at absent ⊢
    rw [List.find?_append, absent]
    simp [LedgerRow.At]

/-- The rows in other places are kept. -/
theorem rowAt_upsert_other (keeps : ∀ old, (change old).At row.migrationName row.phase ∨ change old = old)
    (other : ¬ (row.migrationName = name ∧ row.phase = phase)) :
    rowAt (upsertLedger row change rows) name phase = rowAt rows name phase := by
  unfold upsertLedger
  split
  · rw [rowAt_map]
    · cases found : rowAt rows name phase with
      | none => rfl
      | some old =>
          have fits : old.At name phase := by simpa using List.find?_some found
          have apart : ¬ old.At row.migrationName row.phase := by
            rintro ⟨named, phased⟩
            exact other ⟨named.symm.trans fits.1, phased.symm.trans fits.2⟩
          simp [apart]
    · intro old _
      split
      · rename_i fits
        rcases keeps old with ⟨named, phased⟩ | same
        · constructor
          · rintro ⟨first, second⟩
            exact absurd ⟨named.symm.trans first, phased.symm.trans second⟩ other
          · rintro ⟨first, second⟩
            exact absurd ⟨fits.1.symm.trans first, fits.2.symm.trans second⟩ other
        · rw [same]
      · rfl
  · unfold rowAt
    have missed : [row].find? (fun row => decide (row.At name phase)) = none := by
      rw [List.find?_cons, decide_eq_false (show ¬ row.At name phase from other)]
      rfl
    rw [List.find?_append, missed, Option.or_none]

end Upsert

section Phases

variable {host : MigrateHost} {migration : Migration} {rows : List LedgerRow} {name : GoString}

theorem ledgerEvidence_undecided (phase : LedgerPhase) :
    ∀ entry ∈ ledgerEvidence host migration phase, entry.1 ≠ bytes "approval_status" := by
  simp only [ledgerEvidence, List.forall_mem_cons]
  exact ⟨by decide, by decide, by decide, by decide, by decide, by simp⟩

/-- The evidence of a phase does not touch the decision. -/
theorem metadataString_recorded (evidence : Metadata) (phase : LedgerPhase) :
    metadataString (setKeys evidence (ledgerEvidence host migration phase)) (bytes "approval_status") =
      metadataString evidence (bytes "approval_status") := by
  unfold metadataString
  rw [metadataGet_setKeys_of_absent (ledgerEvidence_undecided phase)]

/-- A recorded phase leaves the rows of other migrations. -/
theorem rowAt_record_other (phase : LedgerPhase) (message remediation : GoString) (other : migration.name ≠ name) :
    rowAt (recordMigrationLedgerPhase host migration phase message remediation rows) name .remediation =
      rowAt rows name .remediation :=
  rowAt_upsert_other (fun _ => Or.inl ⟨rfl, rfl⟩) fun same => other same.1

/-- A recorded phase leaves every decision. -/
theorem verdict_record (phase : LedgerPhase) (message remediation : GoString) :
    verdict (rowAt (recordMigrationLedgerPhase host migration phase message remediation rows) name .remediation) =
      verdict (rowAt rows name .remediation) := by
  by_cases same : migration.name = name ∧ phase = .remediation
  · obtain ⟨rfl, rfl⟩ := same
    unfold recordMigrationLedgerPhase
    have stored := @rowAt_upsert_self rows
      { migrationName := migration.name, phase := .remediation, status := .ready, message := message,
        migrationHash := some (host.migrationHash migration.sql).val, evidence := ledgerEvidence host migration .remediation,
        remediation := remediation }
      (fun old => ⟨migration.name, .remediation, .ready, message, some (host.migrationHash migration.sql).val,
        setKeys old.evidence (ledgerEvidence host migration .remediation), remediation⟩) fun _ => ⟨rfl, rfl⟩
    dsimp only at stored ⊢
    rw [stored]
    cases rowAt rows migration.name .remediation with
    | none => rfl
    | some old => exact metadataString_recorded old.evidence .remediation
  · rw [show rowAt (recordMigrationLedgerPhase host migration phase message remediation rows) name .remediation =
      rowAt rows name .remediation from rowAt_upsert_other (fun _ => Or.inl ⟨rfl, rfl⟩) same]

theorem rowAt_recordPhases_other (other : migration.name ≠ name) :
    rowAt (recordPhases host migration rows) name .remediation = rowAt rows name .remediation := by
  unfold recordPhases recordPreflight
  simp only [rowAt_record_other _ _ _ other]

theorem verdict_recordPhases :
    verdict (rowAt (recordPhases host migration rows) name .remediation) = verdict (rowAt rows name .remediation) := by
  unfold recordPhases recordPreflight
  simp only [verdict_record]

/-- An applied migration has its hash in the ledger. -/
theorem rowAt_recordPhases_self : ∃ row, rowAt (recordPhases host migration rows) migration.name .remediation = some row ∧
    row.migrationHash = some (host.migrationHash migration.sql).val := by
  unfold recordPhases
  dsimp only
  generalize recordMigrationLedgerPhase host migration .verify _ _ _ = earlier
  refine ⟨_, rowAt_upsert_self fun _ => ⟨rfl, rfl⟩, ?_⟩
  dsimp only
  cases rowAt earlier migration.name .remediation <;> rfl

end Phases

section Bootstrap

variable {rows : List LedgerRow} {name : GoString}

/-- A ledger keeps its rows, and a row that is new holds no decision. -/
def Extends (before after : Option LedgerRow) : Prop :=
  (∀ row, before = some row → after = some row) ∧ verdict after = verdict before

theorem Extends.refl (row : Option LedgerRow) : Extends row row := ⟨fun _ same => same, rfl⟩

theorem Extends.trans {first second third : Option LedgerRow} (one : Extends first second) (two : Extends second third) :
    Extends first third :=
  ⟨fun row stored => two.1 row (one.1 row stored), two.2.trans one.2⟩

/-- A row without a decision that is inserted beside the others extends the ledger. -/
theorem extends_insert {row : LedgerRow} (undecided : metadataString row.evidence (bytes "approval_status") = []) :
    Extends (rowAt rows name .remediation) (rowAt (upsertLedger row id rows) name .remediation) := by
  by_cases same : row.migrationName = name ∧ row.phase = .remediation
  · unfold upsertLedger
    split
    · have kept : (rows.map fun old => if old.At row.migrationName row.phase then id old else old) = rows := by
        simp
      rw [kept]
      exact Extends.refl _
    · rename_i missing
      have absent : rowAt rows name .remediation = none := by
        simpa [rowAt, same.1, same.2] using missing
      have stored : rowAt (rows ++ [row]) name .remediation = some row := by
        unfold rowAt at absent ⊢
        rw [List.find?_append, absent]
        simp [LedgerRow.At, same.1, same.2]
      rw [absent, stored]
      exact ⟨fun _ impossible => (nomatch impossible), undecided⟩
  · have kept : rowAt (upsertLedger row id rows) name .remediation = rowAt rows name .remediation :=
      rowAt_upsert_other (fun _ => Or.inr rfl) same
    rw [kept]
    exact Extends.refl _

theorem bootstrapRow_undecided (phase : LedgerPhase) (message remediation : GoString) :
    metadataString (bootstrapRow name phase message remediation).evidence (bytes "approval_status") = [] := by
  show metadataString [(bytes "bootstrap", .flag true), (bytes "source", .text ledgerMigrationName),
    (bytes "schema_migrations_recorded", .flag true)] (bytes "approval_status") = []
  decide

theorem bootstrapRows_undecided {row : LedgerRow} (member : row ∈ bootstrapRows name) :
    metadataString row.evidence (bytes "approval_status") = [] := by
  simp only [bootstrapRows, List.mem_cons, List.not_mem_nil, or_false] at member
  rcases member with rfl | rfl | rfl | rfl <;> exact bootstrapRow_undecided _ _ _

/-- The rows that the ledger is created with hold no decision. -/
theorem extends_bootstrap (names : List GoString) :
    Extends (rowAt rows name .remediation) (rowAt (bootstrapLedger names rows) name .remediation) := by
  have undecided : ∀ row ∈ (names ++ [ledgerMigrationName]).flatMap bootstrapRows,
      metadataString row.evidence (bytes "approval_status") = [] := by
    intro row member
    obtain ⟨_, _, row⟩ := List.mem_flatMap.mp member
    exact bootstrapRows_undecided row
  unfold bootstrapLedger
  generalize (names ++ [ledgerMigrationName]).flatMap bootstrapRows = inserted at undecided
  induction inserted generalizing rows with
  | nil => exact Extends.refl _
  | cons row rest ih =>
      rw [List.foldl_cons]
      exact (extends_insert (undecided row List.mem_cons_self)).trans
        (ih fun other member => undecided other (List.mem_cons_of_mem _ member))

theorem bootstrapRows_named {row : LedgerRow} (member : row ∈ bootstrapRows name) : row.migrationName = name := by
  simp only [bootstrapRows, List.mem_cons, List.not_mem_nil, or_false] at member
  rcases member with rfl | rfl | rfl | rfl <;> rfl

/-- A migration that is not recorded gets no row when the ledger is created. -/
theorem rowAt_bootstrap_other {names : List GoString} (unrecorded : name ∉ names) (other : name ≠ ledgerMigrationName) :
    rowAt (bootstrapLedger names rows) name .remediation = rowAt rows name .remediation := by
  have apart : ∀ row ∈ (names ++ [ledgerMigrationName]).flatMap bootstrapRows, row.migrationName ≠ name := by
    intro row member same
    obtain ⟨bootstrapped, named, row⟩ := List.mem_flatMap.mp member
    rw [bootstrapRows_named row] at same
    subst same
    rcases List.mem_append.mp named with recorded | last
    · exact unrecorded recorded
    · exact other (List.mem_singleton.mp last)
  unfold bootstrapLedger
  generalize (names ++ [ledgerMigrationName]).flatMap bootstrapRows = inserted at apart
  induction inserted generalizing rows with
  | nil => rfl
  | cons row rest ih =>
      rw [List.foldl_cons, ih fun other member => apart other (List.mem_cons_of_mem _ member)]
      exact rowAt_upsert_other (fun _ => Or.inr rfl) fun same => apart row List.mem_cons_self same.1

end Bootstrap

section Apply

variable {host : MigrateHost} {migration : Migration} {db applied : MigrationDatabase} {name : GoString}

theorem findLedgerRow_eq (db : MigrationDatabase) (name : GoString) :
    findLedgerRow db name = rowAt (db.ledger.getD []) name .remediation := rfl

/-- The SQL of a migration keeps the applied names and extends the ledger. -/
theorem executeSQL_frame {executed : MigrationDatabase} (done : executeSQL migration db = .ok executed) :
    executed.schema.applied = db.schema.applied ∧ Extends (findLedgerRow db name) (findLedgerRow executed name) ∧
      (db.ledger.isSome → executed.ledger.isSome) ∧
      (name ∉ db.schema.applied → name ≠ ledgerMigrationName → findLedgerRow executed name = findLedgerRow db name) := by
  unfold executeSQL at done
  split at done
  · obtain rfl := Except.ok.inj done
    exact ⟨rfl, extends_bootstrap _, fun _ => rfl, rowAt_bootstrap_other⟩
  · split at done
    · split at done
      · cases done
      · rename_i names named
        obtain rfl := Except.ok.inj done
        refine ⟨?_, Extends.refl _, id, fun _ _ => rfl⟩
        rw [named]
        simp [SchemaMigrations.applied, Function.comp_def]
      · obtain rfl := Except.ok.inj done
        exact ⟨rfl, Extends.refl _, id, fun _ _ => rfl⟩
    · obtain rfl := Except.ok.inj done
      exact ⟨rfl, Extends.refl _, id, fun _ _ => rfl⟩

/-- A row is inserted under a name that is new. -/
theorem insertSchemaMigration_ok {schema after : SchemaMigrations}
    (done : insertSchemaMigration host migration schema = .ok after) :
    migration.name ∉ schema.applied ∧ after.applied = schema.applied ++ [migration.name] ∧ after ≠ .absent := by
  unfold insertSchemaMigration at done
  split at done
  · cases done
  · split at done
    · cases done
    · rename_i new
      obtain rfl := Except.ok.inj done
      exact ⟨new, rfl, by simp⟩
  · split at done
    · cases done
    · rename_i new
      obtain rfl := Except.ok.inj done
      exact ⟨new, by simp [SchemaMigrations.applied], by simp⟩

/-- An applied migration was not applied before, and its name is recorded. The ledger keeps all decisions, and the rows of
all other migrations. -/
structure Applied (host : MigrateHost) (migration : Migration) (db applied : MigrationDatabase) : Prop where
  new : migration.name ∉ db.schema.applied
  recorded : applied.schema.applied = db.schema.applied ++ [migration.name]
  present : applied.schema ≠ .absent
  ledger : db.ledger.isSome → applied.ledger.isSome
  verdicts : ∀ name, verdict (findLedgerRow applied name) = verdict (findLedgerRow db name)
  others : ∀ name, migration.name ≠ name → ∀ row, findLedgerRow db name = some row → findLedgerRow applied name = some row
  unrecorded : ∀ name, migration.name ≠ name → name ∉ db.schema.applied → name ≠ ledgerMigrationName →
    findLedgerRow applied name = findLedgerRow db name
  hashed : ∀ row, findLedgerRow applied migration.name = some row →
    row.migrationHash = some (host.migrationHash migration.sql).val

theorem apply_ok (done : apply host migration db = .ok applied) : Applied host migration db applied := by
  obtain ⟨executed, ran, rest⟩ := Except.bind_ok done
  obtain ⟨schema, inserted, rest⟩ := Except.bind_ok rest
  obtain rfl := Except.ok.inj rest
  obtain ⟨new, recorded, present⟩ := insertSchemaMigration_ok (Except.mapError_ok inserted)
  have frame := fun name => @executeSQL_frame migration _ name _ (Except.mapError_ok ran)
  -- The preflight of the migration leaves the decisions and the other rows.
  have preflight : ∀ name, verdict (findLedgerRow { db with ledger := db.ledger.map (recordPreflight host migration) } name) =
      verdict (findLedgerRow db name) := by
    intro name
    rcases db with ⟨schema, _ | rows⟩
    · rfl
    · exact verdict_record _ _ _
  have untouched : ∀ name, migration.name ≠ name →
      findLedgerRow { db with ledger := db.ledger.map (recordPreflight host migration) } name = findLedgerRow db name := by
    intro name other
    rcases db with ⟨schema, _ | rows⟩
    · rfl
    · exact rowAt_record_other _ _ _ other
  obtain ⟨sameNames, -, ledger, -⟩ := frame migration.name
  refine ⟨?_, ?_, present, ?_, ?_, ?_, ?_, ?_⟩
  · rwa [sameNames] at new
  · rw [recorded, sameNames]
  · intro some
    have kept := ledger (by simpa using some)
    simpa using kept
  · intro name
    rw [← preflight name, ← (frame name).2.1.2]
    rcases executed with ⟨_, _ | rows⟩
    · rfl
    · exact verdict_recordPhases
  · intro name other row stored
    have kept := (frame name).2.1.1 row ((untouched name other).trans stored)
    rcases executed with ⟨_, _ | rows⟩
    · exact kept
    · exact (rowAt_recordPhases_other other).trans kept
  · intro name other missing apart
    rw [← untouched name other, ← (frame name).2.2.2 missing apart]
    rcases executed with ⟨_, _ | rows⟩
    · rfl
    · exact rowAt_recordPhases_other other
  · intro row stored
    rcases executed with ⟨_, _ | rows⟩
    · cases stored
    · obtain ⟨recordedRow, found, hash⟩ := @rowAt_recordPhases_self host migration rows
      obtain rfl := Option.some.inj (found.symm.trans stored)
      exact hash

end Apply

end AreaFlow.Migrate
