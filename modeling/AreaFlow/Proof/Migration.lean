import AreaFlow.Construction.Project.ArtifactMigration
import AreaFlow.Proof.Metadata

namespace AreaFlow.Project
open Go

section Rows

variable {locations : Locations} {new : Table.New LocationRow (·.id)} {change : Table.Change LocationRow (·.id)}
  {keeps : ∀ row, (change.apply row).slot = row.slot}

/-- A row after an insert or an update in its place is the new row, an old row, or the changed row of the slot. -/
theorem mem_upsert {row : LocationRow} (member : row ∈ (locations.upsert new change keeps).table.rows) :
    row ∈ locations.table.rows ∨ row = locations.table.next new ∨
      ∃ old ∈ locations.table.rows, row = change.apply old ∧ old.slot = (locations.table.next new).slot := by
  unfold Locations.upsert at member
  split at member
  · obtain ⟨old, present, same⟩ := Table.mem_update.mp member
    split at same
    · rename_i chosen
      exact Or.inr (Or.inr ⟨old, present, same, by simpa using chosen⟩)
    · exact Or.inl (same ▸ present)
  · rcases Table.mem_insert.mp member with old | fresh
    · exact Or.inl old
    · exact Or.inr (Or.inl fresh)

/-- Every row keeps its identifier and its slot, and it changes only if the new row has its slot. -/
theorem upsert_kept {old : LocationRow} (present : old ∈ locations.table.rows) :
    ∃ row ∈ (locations.upsert new change keeps).table.rows, row.id = old.id ∧ row.slot = old.slot ∧
      (old.slot ≠ (locations.table.next new).slot → row = old) := by
  unfold Locations.upsert
  split
  · refine ⟨_, Table.mem_update.mpr ⟨old, present, rfl⟩, ?_⟩
    split
    · rename_i chosen
      exact ⟨change.keeps old, keeps old, fun other => absurd (by simpa using chosen) other⟩
    · exact ⟨rfl, rfl, fun _ => rfl⟩
  · exact ⟨old, Table.mem_insert_of_mem present, rfl, rfl, fun _ => rfl⟩

/-- There is a row in the slot of the new row. -/
theorem upsert_slot :
    ∃ row ∈ (locations.upsert new change keeps).table.rows, row.slot = (locations.table.next new).slot := by
  unfold Locations.upsert
  split
  · rename_i taken
    obtain ⟨old, present, same⟩ := List.mem_map.mp taken
    refine ⟨_, Table.mem_update.mpr ⟨old, present, rfl⟩, ?_⟩
    split
    · rw [keeps, same]
    · exact same
  · exact ⟨_, Table.mem_insert_self, rfl⟩

/-- A row of an artifact in a role was inserted or brought up to date. -/
structure Upserted (source : ArtifactRow) (role : LocationRole) (uri : GoString) (before after : Locations) : Prop where
  kept : ∀ old ∈ before.table.rows, ∃ row ∈ after.table.rows, row.slot = old.slot ∧ (old.role ≠ role → row = old)
  new : ∀ row ∈ after.table.rows, row ∈ before.table.rows ∨
    (row.artifactID = source.id ∧ row.role = role ∧
      (row.projectID = source.projectID ∨
        ∃ old ∈ before.table.rows, old.artifactID = source.id ∧ row.projectID = old.projectID))
  there : ∃ row ∈ after.table.rows, row.artifactID = source.id ∧ row.uri = uri

/-- The two inserts of the source only differ in what they do to a row that is there. -/
theorem upsert_upserted {source : ArtifactRow} {role : LocationRole} {uri : GoString}
    (slot : (locations.table.next new).slot = (source.id, role, uri))
    (project : (locations.table.next new).projectID = source.projectID)
    (keepsProject : ∀ row, (change.apply row).projectID = row.projectID) :
    Upserted source role uri locations (locations.upsert new change keeps) where
  kept := by
    intro old present
    obtain ⟨row, member, -, same, unchanged⟩ := @upsert_kept locations new change keeps old present
    refine ⟨row, member, same, fun other => unchanged fun equal => other ?_⟩
    rw [slot] at equal
    exact congrArg (·.2.1) equal
  new := by
    intro row member
    rcases mem_upsert member with old | rfl | ⟨old, present, rfl, same⟩
    · exact Or.inl old
    · exact Or.inr ⟨congrArg (·.1) slot, congrArg (·.2.1) slot, Or.inl project⟩
    · rw [slot] at same
      have artifact : old.artifactID = source.id := congrArg (·.1) same
      refine Or.inr ⟨?_, ?_, Or.inr ⟨old, present, artifact, keepsProject old⟩⟩
      · exact (congrArg (·.1) (keeps old)).trans artifact
      · exact (congrArg (·.2.1) (keeps old)).trans (congrArg (·.2.1) same)
  there := by
    obtain ⟨row, member, same⟩ := @upsert_slot locations new change keeps
    rw [slot] at same
    exact ⟨row, member, congrArg (·.1) same, congrArg (·.2.2) same⟩

end Rows

section Home

variable {artifactID projectID : ID} {row : ArtifactRow} {before after : Locations} {source : ArtifactRow}
  {role : LocationRole} {uri : GoString}

/-- The locations of an artifact belong to its project; at most one of them is the primary one, and it is where the row of
the artifact says. -/
structure Home (artifactID projectID : ID) (row : ArtifactRow) (locations : Locations) : Prop where
  project : ∀ location ∈ locations.table.rows, location.artifactID = artifactID → location.projectID = projectID
  primary : ∀ location ∈ locations.table.rows, location.artifactID = artifactID → location.role = .primary →
    location.storageBackend = row.storageBackend ∧ location.uri = row.uri ∧ location.sha256 = row.sha256 ∧
      location.sizeBytes = row.sizeBytes
  single : ∀ first ∈ locations.table.rows, ∀ second ∈ locations.table.rows, first.artifactID = artifactID →
    second.artifactID = artifactID → first.role = .primary → second.role = .primary → first = second

/-- The locations of an artifact include a text. -/
def Locations.Has (locations : Locations) (artifactID : ID) (uri : GoString) : Prop :=
  ∃ location ∈ locations.table.rows, location.artifactID = artifactID ∧ location.uri = uri

theorem Upserted.has {other : GoString} (upserted : Upserted source role uri before after)
    (has : before.Has artifactID other) : after.Has artifactID other := by
  obtain ⟨old, present, artifact, same⟩ := has
  obtain ⟨location, member, slot, -⟩ := upserted.kept old present
  exact ⟨location, member, (congrArg (·.1) slot).trans artifact, (congrArg (·.2.2) slot).trans same⟩

/-- A primary location after the insert of another role was there before. -/
theorem Upserted.primary (upserted : Upserted source role uri before after) (other : role ≠ .primary)
    {location : LocationRow} (member : location ∈ after.table.rows) (isPrimary : location.role = .primary) :
    location ∈ before.table.rows := by
  rcases upserted.new location member with old | ⟨-, same, -⟩
  · exact old
  · exact absurd (same.symm.trans isPrimary) other

theorem Home.upserted (home : Home artifactID projectID row before) (upserted : Upserted source role uri before after)
    (other : role ≠ .primary) (own : source.id = artifactID → source.projectID = projectID) :
    Home artifactID projectID row after where
  project := by
    intro location member artifact
    rcases upserted.new location member with old | ⟨same, -, given | ⟨old, present, owner, given⟩⟩
    · exact home.project location old artifact
    · exact given.trans (own (same.symm.trans artifact))
    · exact given.trans (home.project old present (owner.trans (same.symm.trans artifact)))
  primary := fun location member artifact isPrimary =>
    home.primary location (upserted.primary other member isPrimary) artifact isPrimary
  single := fun first member second also firstArtifact secondArtifact firstPrimary secondPrimary =>
    home.single first (upserted.primary other member firstPrimary) second (upserted.primary other also secondPrimary)
      firstArtifact secondArtifact firstPrimary secondPrimary

section Roles

variable {change : Table.Change LocationRow (·.id)}

theorem changeRow_ok {id : ID} (changed : before.changeRow change id = some after) :
    after.table = before.table.update (·.id == id) change := by
  unfold Locations.changeRow at changed
  split at changed
  · rw [← Option.some.inj changed]
  · cases changed

/-- Rows that are changed one after another are changed together. -/
theorem update_cons (table : Table LocationRow (·.id)) {id : ID} {later : List ID} (once : id ∉ later) :
    (table.update (·.id == id) change).update (fun row => later.contains row.id) change =
      table.update (fun row => (id :: later).contains row.id) change := by
  simp only [Table.update, List.map_map, Table.mk.injEq]
  apply List.map_congr_left
  intro row _
  by_cases same : row.id = id
  · simp [same, change.keeps, once]
  · simp [same]

theorem changeRows_ok {ids : List ID} (once : ids.Nodup)
    (changed : ids.foldlM (Locations.changeRow change) before = some after) :
    after.table = before.table.update (fun row => ids.contains row.id) change := by
  induction ids generalizing before with
  | nil =>
      cases changed
      simp [Table.update]
  | cons id later ih =>
      rw [List.nodup_cons] at once
      rw [List.foldlM_cons, Option.bind_eq_bind, Option.bind_eq_some_iff] at changed
      obtain ⟨middle, first, rest⟩ := changed
      rw [ih once.2 rest, changeRow_ok first, update_cons before.table once.1]

/-- These are the rows that an update visits. -/
theorem visited_perm (locations : Locations) (scan : ID → Nat) (chosen : LocationRow → Bool) :
    (((locations.table.rows.filter chosen).map (·.id)).insertionSort fun first second => scan first ≤ scan second).Perm
      ((locations.table.rows.filter chosen).map (·.id)) :=
  List.perm_insertionSort _ _

theorem visited_nodup (locations : Locations) (chosen : LocationRow → Bool) :
    ((locations.table.rows.filter chosen).map (·.id)).Nodup :=
  locations.table.distinct.sublist (List.filter_sublist.map _)

/-- The roles of the locations of one artifact were changed. -/
theorem changeRoles_ok {scan : ID → Nat} {chosen : LocationRow → Bool}
    (changed : before.changeRoles scan chosen change = some after) : after.table = before.table.update chosen change := by
  have visited := visited_perm before scan chosen
  rw [changeRows_ok (visited.nodup_iff.mpr (visited_nodup before chosen)) changed]
  simp only [Table.update, Table.mk.injEq]
  apply List.map_congr_left
  intro row member
  have listed : ((before.table.rows.filter chosen).map (·.id)).contains row.id = chosen row := by
    rw [Bool.eq_iff_iff, List.contains_iff_mem, List.mem_map]
    constructor
    · rintro ⟨other, kept, same⟩
      obtain ⟨stored, fits⟩ := List.mem_filter.mp kept
      exact Table.unique stored member same ▸ fits
    · exact fun fits => ⟨row, List.mem_filter.mpr ⟨member, fits⟩, rfl⟩
  simp only [visited.contains_eq, listed]

end Roles

section Promotion

variable {options : ActivateArtifactOptions} {target : LocationRow} {project moved : ID} {scan : ID → Nat}
  (promoted : before.promotion scan project moved options = some after)

include promoted

/-- A promotion keeps the places and the owners of all locations. -/
theorem promoted_kept {old : LocationRow} (present : old ∈ before.table.rows) :
    ∃ location ∈ after.table.rows, location.id = old.id ∧ location.artifactID = old.artifactID ∧ location.uri = old.uri ∧
      location.projectID = old.projectID := by
  rw [changeRoles_ok promoted]
  refine ⟨_, Table.mem_update.mpr ⟨old, present, rfl⟩, ?_⟩
  split
  · exact ⟨rfl, rfl, rfl, rfl⟩
  · exact ⟨rfl, rfl, rfl, rfl⟩

theorem promoted_has {uri : GoString} (has : before.Has artifactID uri) : after.Has artifactID uri := by
  obtain ⟨old, present, artifact, same⟩ := has
  obtain ⟨location, member, -, owner, place, -⟩ := promoted_kept promoted present
  exact ⟨location, member, owner.trans artifact, place.trans same⟩

/-- The locations of another artifact stay as they are. -/
theorem promoted_other (other : moved ≠ artifactID) {location : LocationRow} (artifact : location.artifactID = artifactID) :
    location ∈ after.table.rows ↔ location ∈ before.table.rows := by
  rw [changeRoles_ok promoted]
  constructor
  · intro member
    obtain ⟨old, present, same⟩ := Table.mem_update.mp member
    split at same
    · rename_i chosen
      have owner : old.artifactID = moved := by simp_all
      have kept : location.artifactID = old.artifactID := by rw [same]; rfl
      exact absurd (owner.symm.trans (kept.symm.trans artifact)) other
    · exact same ▸ present
  · intro member
    refine Table.mem_update.mpr ⟨location, member, ?_⟩
    rw [if_neg]
    simp [artifact, other.symm]

theorem Home.promotedOther (home : Home artifactID projectID row before) (other : moved ≠ artifactID) :
    Home artifactID projectID row after where
  project location member artifact := home.project location ((promoted_other promoted other artifact).mp member) artifact
  primary location member artifact :=
    home.primary location ((promoted_other promoted other artifact).mp member) artifact
  single first member second also firstArtifact secondArtifact :=
    home.single first ((promoted_other promoted other firstArtifact).mp member) second
      ((promoted_other promoted other secondArtifact).mp also) firstArtifact secondArtifact

/-- The target is the only primary location of its artifact after a promotion. -/
theorem promoted_primary (home : Home moved project row before) (present : target ∈ before.table.rows)
    (named : target.id = options.targetLocationID) {location : LocationRow} (member : location ∈ after.table.rows)
    (artifact : location.artifactID = moved) (isPrimary : location.role = .primary) :
    location = promote options.targetLocationID options target := by
  rw [changeRoles_ok promoted] at member
  obtain ⟨old, stored, same⟩ := Table.mem_update.mp member
  have owner : old.artifactID = moved := by
    rw [← artifact, same]
    split <;> rfl
  have chosen : (old.projectID == project && old.artifactID == moved) = true := by
    simp [owner, home.project old stored owner]
  rw [if_pos chosen] at same
  have role : (promote options.targetLocationID options old).role = .primary := by
    rw [← isPrimary, same]
  have isTarget : old.id = options.targetLocationID := by
    by_contra other
    unfold promote at role
    simp only [if_neg other] at role
    split at role
    · cases role
    · rename_i notPrimary
      exact notPrimary role
  rw [same, Table.unique stored present (isTarget.trans named.symm)]

theorem Home.promotedTarget (home : Home moved project row before) (present : target ∈ before.table.rows)
    (named : target.id = options.targetLocationID) : Home moved project (moveTo target options row) after where
  project := by
    intro location member artifact
    rw [changeRoles_ok promoted] at member
    obtain ⟨old, stored, same⟩ := Table.mem_update.mp member
    have owner : old.artifactID = moved := by
      rw [← artifact, same]
      split <;> rfl
    rw [same, ← home.project old stored owner]
    split <;> rfl
  primary := by
    intro location member artifact isPrimary
    rw [promoted_primary promoted home present named member artifact isPrimary]
    exact ⟨rfl, rfl, rfl, rfl⟩
  single := by
    intro first member second also firstArtifact secondArtifact firstPrimary secondPrimary
    rw [promoted_primary promoted home present named member firstArtifact firstPrimary,
      promoted_primary promoted home present named also secondArtifact secondPrimary]

end Promotion

end Home

section Operations

variable {host : MigrationHost} {now : Time} {record : ProjectRow} {tables after : ArtifactTables}
  {source : ArtifactRow} {artifactID : ID}

/-- A committed copy has stored the place of its source first and then the new place. -/
theorem copyArtifactToBackend_stored {options : CopyArtifactOptions}
    (done : copyArtifactToBackend host now record source options tables = .ok after) :
    0 < record.id ∧ 0 < source.id ∧ ∃ stored metadata, copyContent host record source options = .ok stored ∧
      after.artifacts = tables.artifacts ∧
      after.locations = upsertArtifactLocation source .migrationCandidate stored (some now) metadata
        (upsertArtifactLocation source .migrationSource source.stored none retained tables.locations) := by
  unfold copyArtifactToBackend at done
  split at done
  · cases done
  rename_i positive
  split at done
  · cases done
  cases copied : copyContent host record source options with
  | error failure => simp [copied, bind, Except.bind] at done
  | ok stored =>
      simp only [copied, bind, Except.bind] at done
      cases done
      simp only [not_or, Int.not_le] at positive
      exact ⟨positive.1, positive.2, stored, _, rfl, rfl, rfl⟩

/-- A committed copy has inserted two locations or brought them up to date. -/
theorem copyArtifactToBackend_ok {options : CopyArtifactOptions}
    (done : copyArtifactToBackend host now record source options tables = .ok after) :
    after.artifacts = tables.artifacts ∧ ∃ kept stored,
      Upserted source .migrationSource source.uri tables.locations kept ∧
        Upserted source .migrationCandidate stored kept after.locations := by
  obtain ⟨-, -, stored, metadata, -, artifacts, locations⟩ := copyArtifactToBackend_stored done
  rw [locations]
  exact ⟨artifacts, _, stored.uri, upsert_upserted rfl rfl (fun _ => rfl), upsert_upserted rfl rfl (fun _ => rfl)⟩

theorem loadArtifactForMigration_ok {projectID : ID} {row : ArtifactRow}
    (loaded : loadArtifactForMigration tables projectID artifactID = .ok row) :
    tables.artifact artifactID = some row ∧ row.projectID = projectID ∧ row.id = artifactID := by
  unfold loadArtifactForMigration at loaded
  split at loaded
  · cases loaded
  · rename_i found
    cases loaded
    have fits := List.find?_some found
    simp only [Bool.and_eq_true, beq_iff_eq] at fits
    refine ⟨?_, fits.1, fits.2⟩
    unfold ArtifactTables.artifact
    rw [← fits.2]
    exact Table.rowAt_of_mem tables.artifacts.distinct (List.mem_of_find?_eq_some found)

theorem artifact_update (projectID artifactID other : ID) (change : Table.Change ArtifactRow (·.id)) :
    (tables.updateArtifact projectID artifactID change).artifact other =
      (tables.artifact other).map fun row => if row.projectID == projectID && row.id == artifactID then change.apply row
        else row := by
  unfold ArtifactTables.artifact
  refine Table.rowAt_map ?_ tables.artifacts.rows other
  intro row
  split
  · exact change.keeps row
  · rfl

/-- A committed activation has moved the artifact to a verified location with the same hash and size. -/
theorem activateArtifactLocation_moved {scan : ID → Nat} {options : ActivateArtifactOptions}
    (done : activateArtifactLocation now record scan artifactID options tables = .ok after) :
    ∃ source target promoted, tables.artifact artifactID = some source ∧ source.projectID = record.id ∧
      source.id = artifactID ∧ target ∈ tables.locations.table.rows ∧ target.artifactID = artifactID ∧
      target.id = options.targetLocationID ∧ target.sha256 = source.sha256 ∧ target.sizeBytes = source.sizeBytes ∧
      tables.locations.promotion scan record.id artifactID options = some promoted ∧
      after.locations = retainSource now source promoted ∧
      after.artifacts = (tables.updateArtifact record.id artifactID ⟨moveTo target options, fun _ => rfl⟩).artifacts := by
  unfold activateArtifactLocation at done
  split at done
  · cases done
  split at done
  · cases done
  split at done
  · cases done
  cases loaded : loadArtifactForMigration tables record.id artifactID with
  | error failure => simp [loaded, bind, Except.bind] at done
  | ok source =>
      cases located : loadArtifactLocation tables record.id artifactID options.targetLocationID with
      | error failure => simp [loaded, located, bind, Except.bind] at done
      | ok target =>
          simp only [loaded, located, bind, Except.bind] at done
          split at done
          · cases done
          · rename_i verified
            split at done
            · cases done
            · rename_i promoted changed
              obtain ⟨found, project, named⟩ := loadArtifactForMigration_ok loaded
              unfold loadArtifactLocation at located
              split at located
              · cases located
              · rename_i stored
                cases located
                have fits := List.find?_some stored
                simp only [Bool.and_eq_true, beq_iff_eq] at fits
                simp only [not_or, ne_eq, not_not] at verified
                cases done
                exact ⟨source, target, promoted, found, project, named, List.mem_of_find?_eq_some stored, fits.1.2, fits.2,
                  verified.2.1, verified.2.2, changed, rfl, rfl⟩

/-- An activation keeps the place of its source. -/
theorem retainSource_upserted {promoted locations : Locations} (kept : locations = retainSource now source promoted) :
    Upserted source .migrationSource source.uri promoted locations := by
  rw [kept]
  exact upsert_upserted rfl rfl fun _ => rfl

/-- A completed observation found the artifact stable, or its deadline has passed and it is marked stable. -/
theorem completeArtifactObservation_ok {options : CompleteArtifactObservationOptions}
    (done : completeArtifactObservation now record artifactID options tables = .ok after) :
    after = tables ∨ ∃ row deadline location, tables.artifact artifactID = some row ∧ row.projectID = record.id ∧
      parseRFC3339 row.metadata (bytes "artifact_migration_observation_until") = some deadline ∧ deadline ≤ now ∧
      location ∈ tables.locations.table.rows ∧ location.artifactID = artifactID ∧ location.role = .primary ∧
      after.artifacts = (tables.updateArtifact record.id artifactID ⟨markStable now, fun _ => rfl⟩).artifacts ∧
      ∃ chosen, after.locations = tables.locations.update chosen ⟨settle now options, fun _ => rfl⟩ fun _ => rfl := by
  unfold completeArtifactObservation at done
  split at done
  · cases done
  split at done
  · cases done
  cases loaded : loadArtifactForMigration tables record.id artifactID with
  | error failure => simp [loaded, bind, Except.bind] at done
  | ok row =>
      simp only [loaded, bind, Except.bind] at done
      split at done
      · exact Or.inl (Except.ok.inj done).symm
      split at done
      · cases done
      · rename_i deadline parsed
        split at done
        · cases done
        · rename_i passed
          split at done
          · cases done
          · rename_i counted
            obtain ⟨found, project, named⟩ := loadArtifactForMigration_ok loaded
            have some : 0 < tables.locations.table.rows.countP (fun row =>
                row.projectID == record.id && row.artifactID == artifactID && row.role == .primary &&
                  row.verifiedAt.isSome) := by
              omega
            obtain ⟨location, member, fits⟩ := List.countP_pos_iff.mp some
            simp only [Bool.and_eq_true, beq_iff_eq] at fits
            cases done
            exact Or.inr ⟨row, deadline, location, found, project, parsed, Nat.le_of_not_lt passed, member, fits.1.1.2,
              fits.1.2, rfl, _, rfl⟩

end Operations

section Runs

variable {artifactID : ID} {start row : ArtifactRow} {state : MigrationState} {tables : ArtifactTables}
  {source : ArtifactRow} {uri : GoString} {before : Locations} {now : Time} {record : ProjectRow}

/-- This is the deadline of the latest activation of an artifact. -/
def MigrationState.deadline (state : MigrationState) (artifactID : ID) : Option Time :=
  (state.deadlines.find? fun entry => entry.1 == artifactID).map (·.2)

/-- A place is among the locations of an artifact, or the artifact has no location and was always in this place. -/
def Traced (artifactID : ID) (uri : GoString) (state : MigrationState) : Prop :=
  state.tables.locations.Has artifactID uri ∨
    (∀ location ∈ state.tables.locations.table.rows, location.artifactID ≠ artifactID) ∧
      (∀ row, state.tables.artifact artifactID = some row → row.uri = uri) ∧
      ∀ reading ∈ state.readings, reading.id = artifactID → reading.uri = uri

/-- This is what all runs keep of an artifact. -/
structure Settled (artifactID : ID) (start : ArtifactRow) (state : MigrationState) (row : ArtifactRow) : Prop where
  found : state.tables.artifact artifactID = some row
  project : row.projectID = start.projectID
  hash : row.sha256 = start.sha256
  size : row.sizeBytes = start.sizeBytes
  home : Home artifactID start.projectID row state.tables.locations
  readings : ∀ reading ∈ state.readings, reading.id = artifactID → reading.projectID = start.projectID ∧
    reading.sha256 = start.sha256 ∧ reading.sizeBytes = start.sizeBytes
  observed : ∀ location ∈ state.tables.locations.table.rows, location.artifactID = artifactID → location.role = .primary →
    ∃ deadline, state.deadline artifactID = some deadline ∧
      parseRFC3339 row.metadata (bytes "artifact_migration_observation_until") = some (deadline / second * second)
  place : Traced artifactID row.uri state

/-- An artifact stays settled and none of its places is lost. -/
structure Advanced (artifactID : ID) (start : ArtifactRow) (state after : MigrationState) : Prop where
  settled : ∃ row, Settled artifactID start after row
  held : ∀ uri, state.tables.locations.Has artifactID uri → after.tables.locations.Has artifactID uri
  traced : ∀ uri, Traced artifactID uri state → Traced artifactID uri after

theorem Settled.stays (settled : Settled artifactID start state row) : Advanced artifactID start state state :=
  ⟨⟨row, settled⟩, fun _ has => has, fun _ traced => traced⟩

theorem Advanced.trans {middle after : MigrationState} (first : Advanced artifactID start state middle)
    (second : Advanced artifactID start middle after) : Advanced artifactID start state after where
  settled := second.settled
  held := fun uri has => second.held uri (first.held uri has)
  traced := fun uri traced => second.traced uri (first.traced uri traced)

theorem artifact_id (found : tables.artifact artifactID = some row) : row.id = artifactID :=
  Table.rowAt_key found

theorem artifact_congr {other : ArtifactTables} (same : tables.artifacts = other.artifacts) :
    tables.artifact artifactID = other.artifact artifactID := by
  unfold ArtifactTables.artifact
  rw [same]

/-- A reading is a row of its moment. -/
theorem Settled.read (settled : Settled artifactID start state row) {readID : ID} {reading : ArtifactRow}
    (found : state.tables.artifact readID = some reading) :
    Advanced artifactID start state { state with readings := state.readings ++ [reading] } := by
  have own : reading.id = artifactID → reading = row := by
    intro same
    rw [← artifact_id found, same] at found
    exact Option.some.inj (found.symm.trans settled.found)
  have keeps : ∀ uri, Traced artifactID uri state →
      Traced artifactID uri { state with readings := state.readings ++ [reading] } := by
    rintro uri (has | ⟨none, current, read⟩)
    · exact Or.inl has
    · refine Or.inr ⟨none, current, ?_⟩
      intro other member artifact
      rcases List.mem_append.mp member with old | new
      · exact read other old artifact
      · rw [List.mem_singleton.mp new] at artifact ⊢
        rw [own artifact]
        exact current row settled.found
  refine ⟨⟨row, { settled with readings := ?_, place := keeps _ settled.place }⟩, fun _ has => has, keeps⟩
  intro other member artifact
  rcases List.mem_append.mp member with old | new
  · exact settled.readings other old artifact
  · rw [List.mem_singleton.mp new] at artifact ⊢
    rw [own artifact]
    exact ⟨settled.project, settled.hash, settled.size⟩

/-- An insert for another artifact adds no location of this one. -/
theorem Upserted.none {role : LocationRole} {after : Locations} (upserted : Upserted source role uri before after)
    (other : source.id ≠ artifactID) (none : ∀ location ∈ before.table.rows, location.artifactID ≠ artifactID) :
    ∀ location ∈ after.table.rows, location.artifactID ≠ artifactID := by
  intro location member
  rcases upserted.new location member with old | ⟨owner, -, -⟩
  · exact none location old
  · rwa [owner]

theorem Settled.copied (settled : Settled artifactID start state row) {host : MigrationHost}
    {options : CopyArtifactOptions} (member : source ∈ state.readings)
    (done : copyArtifactToBackend host now record source options state.tables = .ok tables) :
    Advanced artifactID start state { state with tables := tables } := by
  obtain ⟨artifacts, kept, stored, retained, copied⟩ := copyArtifactToBackend_ok done
  have same : tables.artifact artifactID = state.tables.artifact artifactID := artifact_congr artifacts
  have held : ∀ uri, state.tables.locations.Has artifactID uri → tables.locations.Has artifactID uri :=
    fun _ has => copied.has (retained.has has)
  have keeps : ∀ uri, Traced artifactID uri state → Traced artifactID uri { state with tables := tables } := by
    rintro uri (has | ⟨none, current, read⟩)
    · exact Or.inl (held uri has)
    · by_cases own : source.id = artifactID
      · obtain ⟨location, present, owner, place⟩ := retained.there
        exact Or.inl (copied.has ⟨location, present, owner.trans own, place.trans (read source member own)⟩)
      · exact Or.inr ⟨copied.none own (retained.none own none), fun other found => current other (same ▸ found), read⟩
  refine ⟨⟨row, { settled with
    found := same.trans settled.found
    home := ?_
    observed := ?_
    place := keeps _ settled.place }⟩, held, keeps⟩
  · have own := fun same => (settled.readings source member same).1
    exact (settled.home.upserted retained (by decide) own).upserted copied (by decide) own
  · intro location present artifact isPrimary
    have before := copied.primary (by decide) present isPrimary
    exact settled.observed location (retained.primary (by decide) before isPrimary) artifact isPrimary

theorem artifact_update_other {projectID changed : ID} {change : Table.Change ArtifactRow (·.id)}
    (other : changed ≠ artifactID) :
    (tables.updateArtifact projectID changed change).artifact artifactID = tables.artifact artifactID := by
  rw [artifact_update]
  cases found : tables.artifact artifactID with
  | none => rfl
  | some row =>
      rw [Option.map_some, if_neg]
      simp [artifact_id found, other.symm]

theorem artifact_update_self {change : Table.Change ArtifactRow (·.id)} (found : tables.artifact artifactID = some row) :
    (tables.updateArtifact row.projectID artifactID change).artifact artifactID = some (change.apply row) := by
  rw [artifact_update, found, Option.map_some, if_pos]
  simp [artifact_id found]

/-- A state after an activation. -/
def MigrationState.activated (state : MigrationState) (tables : ArtifactTables) (artifactID : ID) (deadline : Time) :
    MigrationState :=
  { state with tables := tables, deadlines := (artifactID, deadline) :: state.deadlines }

theorem deadline_activated_self {deadline : Time} :
    (state.activated tables artifactID deadline).deadline artifactID = some deadline := by
  simp [MigrationState.deadline, MigrationState.activated]

theorem deadline_activated_other {moved : ID} {deadline : Time} (other : moved ≠ artifactID) :
    (state.activated tables moved deadline).deadline artifactID = state.deadline artifactID := by
  simp [MigrationState.deadline, MigrationState.activated, other]

/-- An activation of another artifact leaves the locations of this one alone. -/
theorem Settled.activatedOther (settled : Settled artifactID start state row) {scan : ID → Nat} {moved : ID}
    {options : ActivateArtifactOptions} (other : moved ≠ artifactID)
    (done : activateArtifactLocation now record scan moved options state.tables = .ok tables) :
    Advanced artifactID start state (state.activated tables moved options.observationUntil) := by
  obtain ⟨source, target, promoted, -, -, named, -, -, -, -, -, changed, kept, artifacts⟩ :=
    activateArtifactLocation_moved done
  have retained := retainSource_upserted kept
  have apart : source.id ≠ artifactID := named ▸ other
  have same : tables.artifact artifactID = state.tables.artifact artifactID :=
    (artifact_congr artifacts).trans (artifact_update_other other)
  have held : ∀ uri, state.tables.locations.Has artifactID uri → tables.locations.Has artifactID uri :=
    fun _ has => retained.has (promoted_has changed has)
  have keeps : ∀ uri, Traced artifactID uri state →
      Traced artifactID uri (state.activated tables moved options.observationUntil) := by
    rintro uri (has | ⟨none, current, read⟩)
    · exact Or.inl (held uri has)
    · refine Or.inr ⟨retained.none apart ?_, fun other found => current other (same ▸ found), read⟩
      intro location member owner
      exact none location ((promoted_other changed other owner).mp member) owner
  refine ⟨⟨row, { settled with
    found := same.trans settled.found
    home := (settled.home.promotedOther changed other).upserted retained (by decide) fun own => absurd own apart
    observed := ?_
    place := keeps _ settled.place }⟩, held, keeps⟩
  intro location present artifact isPrimary
  have before := (promoted_other changed other artifact).mp (retained.primary (by decide) present isPrimary)
  rw [deadline_activated_other other]
  exact settled.observed location before artifact isPrimary

/-- The stored deadline of an activation has lost its fraction of a second. -/
theorem parseRFC3339_moveTo {target : LocationRow} {options : ActivateArtifactOptions} :
    parseRFC3339 (moveTo target options row).metadata (bytes "artifact_migration_observation_until") =
      some (options.observationUntil / second * second) := by
  unfold parseRFC3339
  have stored : metadataGet (moveTo target options row).metadata (bytes "artifact_migration_observation_until") =
      some (formatRFC3339 options.observationUntil) := metadataGet_setKey_self
  rw [stored]
  rfl

theorem Settled.activated (settled : Settled artifactID start state row) {scan : ID → Nat}
    {options : ActivateArtifactOptions}
    (done : activateArtifactLocation now record scan artifactID options state.tables = .ok tables) :
    Advanced artifactID start state (state.activated tables artifactID options.observationUntil) := by
  obtain ⟨source, target, promoted, found, project, named, present, owner, chosen, hash, size, changed, kept, artifacts⟩ :=
    activateArtifactLocation_moved done
  have retained := retainSource_upserted kept
  obtain rfl : source = row := Option.some.inj (found.symm.trans settled.found)
  have moved : tables.artifact artifactID = some (moveTo target options source) := by
    rw [← project] at artifacts
    exact (artifact_congr artifacts).trans (artifact_update_self found)
  have held : ∀ uri, state.tables.locations.Has artifactID uri → tables.locations.Has artifactID uri :=
    fun _ has => retained.has (promoted_has changed has)
  have keeps : ∀ uri, Traced artifactID uri state →
      Traced artifactID uri (state.activated tables artifactID options.observationUntil) := by
    rintro uri (has | ⟨none, -, -⟩)
    · exact Or.inl (held uri has)
    · exact absurd owner (none target present)
  have home : Home artifactID start.projectID (moveTo target options source) tables.locations := by
    rw [← project, settled.project] at changed
    exact (settled.home.promotedTarget changed present chosen).upserted retained (by decide) fun _ => settled.project
  refine ⟨⟨moveTo target options source, {
    found := moved
    project := settled.project
    hash := hash.trans settled.hash
    size := size.trans settled.size
    home := home
    readings := settled.readings
    observed := ?_
    place := Or.inl (held _ ⟨target, present, owner, rfl⟩) }⟩, held, keeps⟩
  intro location member artifact isPrimary
  exact ⟨options.observationUntil, deadline_activated_self, parseRFC3339_moveTo⟩

theorem parseRFC3339_markStable :
    parseRFC3339 (markStable now row).metadata (bytes "artifact_migration_observation_until") =
      parseRFC3339 row.metadata (bytes "artifact_migration_observation_until") := by
  have kept : metadataGet (markStable now row).metadata (bytes "artifact_migration_observation_until") =
      metadataGet row.metadata (bytes "artifact_migration_observation_until") :=
    metadataGet_setKeys_of_absent (by simp; decide)
  unfold parseRFC3339
  rw [kept]

section Settling

variable {chosen : LocationRow → Bool} {options : CompleteArtifactObservationOptions}

/-- The end of an observation changes only the metadata of locations. -/
theorem mem_settled {location : LocationRow}
    (member : location ∈ (before.update chosen ⟨settle now options, fun _ => rfl⟩ fun _ => rfl).table.rows) :
    ∃ old ∈ before.table.rows, location = (if chosen old then settle now options old else old) ∧
      { location with metadata := old.metadata } = old := by
  obtain ⟨old, present, same⟩ := Table.mem_update.mp member
  refine ⟨old, present, same, ?_⟩
  rw [same]
  split <;> rfl

end Settling

theorem Home.settled {projectID : ID} {chosen : LocationRow → Bool} {options : CompleteArtifactObservationOptions}
    (home : Home artifactID projectID row before) :
    Home artifactID projectID row (before.update chosen ⟨settle now options, fun _ => rfl⟩ fun _ => rfl) where
  project := by
    intro location member artifact
    obtain ⟨old, present, -, same⟩ := mem_settled member
    rw [← home.project old present (same ▸ artifact), ← same]
  primary := by
    intro location member artifact isPrimary
    obtain ⟨old, present, -, same⟩ := mem_settled member
    have stored := home.primary old present (same ▸ artifact) (same ▸ isPrimary)
    rw [← same] at stored
    exact stored
  single := by
    intro first member second also firstArtifact secondArtifact firstPrimary secondPrimary
    obtain ⟨old, present, changed, same⟩ := mem_settled member
    obtain ⟨older, there, equal, alike⟩ := mem_settled also
    have one : old = older :=
      home.single old present older there (same ▸ firstArtifact) (alike ▸ secondArtifact) (same ▸ firstPrimary)
        (alike ▸ secondPrimary)
    rw [changed, equal, one]

/-- The end of an observation keeps the places of all artifacts. -/
theorem settled_has {chosen : LocationRow → Bool} {options : CompleteArtifactObservationOptions}
    (has : before.Has artifactID uri) :
    (before.update chosen ⟨settle now options, fun _ => rfl⟩ fun _ => rfl).Has artifactID uri := by
  obtain ⟨old, present, artifact, same⟩ := has
  refine ⟨_, Table.mem_update.mpr ⟨old, present, rfl⟩, ?_⟩
  split
  · exact ⟨artifact, same⟩
  · exact ⟨artifact, same⟩

/-- The end of an observation keeps what is settled; only the artifact itself becomes stable. -/
theorem Settled.completed (settled : Settled artifactID start state row) {observed : ID}
    {options : CompleteArtifactObservationOptions}
    (done : completeArtifactObservation now record observed options state.tables = .ok tables) :
    Advanced artifactID start state { state with tables := tables } := by
  rcases completeArtifactObservation_ok done with
    rfl | ⟨other, deadline, location, found, project, -, -, present, owner, -, artifacts, chosen, changed⟩
  · exact settled.stays
  have home : Home artifactID start.projectID row tables.locations := changed ▸ settled.home.settled
  have held : ∀ uri, state.tables.locations.Has artifactID uri → tables.locations.Has artifactID uri :=
    fun _ has => changed ▸ settled_has has
  have primary : ∀ location ∈ tables.locations.table.rows, location.artifactID = artifactID → location.role = .primary →
      ∃ deadline, state.deadline artifactID = some deadline ∧
        parseRFC3339 row.metadata (bytes "artifact_migration_observation_until") = some (deadline / second * second) := by
    intro location member artifact isPrimary
    rw [changed] at member
    obtain ⟨old, stored, -, same⟩ := mem_settled member
    exact settled.observed old stored (same ▸ artifact) (same ▸ isPrimary)
  by_cases own : observed = artifactID
  · subst own
    obtain rfl : other = row := Option.some.inj (found.symm.trans settled.found)
    have keeps : ∀ uri, Traced observed uri state → Traced observed uri { state with tables := tables } := by
      rintro uri (has | ⟨none, -, -⟩)
      · exact Or.inl (held uri has)
      · exact absurd owner (none location present)
    have marked : tables.artifact observed = some (markStable now other) := by
      rw [← project] at artifacts
      exact (artifact_congr artifacts).trans (artifact_update_self found)
    refine ⟨⟨markStable now other, {
      found := marked
      project := settled.project
      hash := settled.hash
      size := settled.size
      home := ⟨home.project, home.primary, home.single⟩
      readings := settled.readings
      observed := ?_
      place := keeps _ settled.place }⟩, held, keeps⟩
    rw [parseRFC3339_markStable]
    exact primary
  · have same : tables.artifact artifactID = state.tables.artifact artifactID :=
      (artifact_congr artifacts).trans (artifact_update_other own)
    have keeps : ∀ uri, Traced artifactID uri state → Traced artifactID uri { state with tables := tables } := by
      rintro uri (has | ⟨none, current, read⟩)
      · exact Or.inl (held uri has)
      · refine Or.inr ⟨?_, fun other found => current other (same ▸ found), read⟩
        intro location member artifact
        rw [changed] at member
        obtain ⟨old, stored, -, alike⟩ := mem_settled member
        exact none old stored (alike ▸ artifact)
    exact ⟨⟨row, { settled with
      found := same.trans settled.found
      home := home
      observed := primary
      place := keeps _ settled.place }⟩, held, keeps⟩

/-- A step fails and changes nothing, or it is a reading, a copy, an activation or the end of an observation. -/
theorem migrationStep_cases {motive : MigrationEvent → MigrationState × Except GoString Unit → Prop}
    (fails : ∀ event failure, motive event (state, .error failure))
    (reads : ∀ readID reading, state.tables.artifact readID = some reading →
      motive (.read readID) ({ state with readings := state.readings ++ [reading] }, .ok ()))
    (copies : ∀ host now record reading options source tables, state.readings[reading]? = some source →
      copyArtifactToBackend host now record source options state.tables = .ok tables →
      motive (.copy host now record reading options) ({ state with tables := tables }, .ok ()))
    (activates : ∀ now record scan moved options tables,
      activateArtifactLocation now record scan moved options state.tables = .ok tables →
      motive (.activate now record scan moved options) (state.activated tables moved options.observationUntil, .ok ()))
    (completes : ∀ now record observed options tables,
      completeArtifactObservation now record observed options state.tables = .ok tables →
      motive (.complete now record observed options) ({ state with tables := tables }, .ok ()))
    (event : MigrationEvent) : motive event (migrationStep state event) := by
  cases event with
  | read readID =>
      unfold migrationStep
      dsimp only
      split
      · exact fails _ _
      · exact reads _ _ ‹_›
  | copy host now record reading options =>
      unfold migrationStep
      dsimp only
      split
      · exact fails _ _
      · split
        · exact fails _ _
        · exact copies _ _ _ _ _ _ _ ‹_› ‹_›
  | activate now record scan moved options =>
      unfold migrationStep
      dsimp only
      split
      · exact fails _ _
      · exact activates _ _ _ _ _ _ ‹_›
  | complete now record observed options =>
      unfold migrationStep
      dsimp only
      split
      · exact fails _ _
      · exact completes _ _ _ _ _ ‹_›

/-- One step keeps an artifact settled. -/
theorem Settled.step (settled : Settled artifactID start state row) (event : MigrationEvent) :
    Advanced artifactID start state (migrationStep state event).1 := by
  refine migrationStep_cases (motive := fun _ stepped => Advanced artifactID start state stepped.1) ?_ ?_ ?_ ?_ ?_ event
  · exact fun _ _ => settled.stays
  · exact fun _ _ found => settled.read found
  · exact fun _ _ _ _ _ _ _ taken done => settled.copied (List.mem_of_getElem? taken) done
  · intro now record scan moved options tables done
    by_cases own : moved = artifactID
    · subst own
      exact settled.activated done
    · exact settled.activatedOther own done
  · exact fun _ _ _ _ _ done => settled.completed done

/-- A whole run keeps an artifact settled. -/
theorem Settled.run (settled : Settled artifactID start state row) (events : List MigrationEvent) :
    Advanced artifactID start state (Run.final migrationStep state events) := by
  induction events generalizing state row with
  | nil => exact settled.stays
  | cons event rest ih =>
      have one := settled.step event
      obtain ⟨next, arrived⟩ := one.settled
      exact one.trans (ih arrived)

/-- An artifact that starts without locations is settled. -/
theorem Settled.initial (found : tables.artifact artifactID = some start)
    (none : ∀ location ∈ tables.locations.table.rows, location.artifactID ≠ artifactID) :
    Settled artifactID start { tables := tables } start where
  found := found
  project := rfl
  hash := rfl
  size := rfl
  home := {
    project := fun location member artifact => absurd artifact (none location member)
    primary := fun location member artifact => absurd artifact (none location member)
    single := fun first member _ _ artifact => absurd artifact (none first member) }
  readings := fun _ member => absurd member List.not_mem_nil
  observed := fun location member artifact => absurd artifact (none location member)
  place := by
    refine Or.inr ⟨none, ?_, fun _ member => absurd member List.not_mem_nil⟩
    intro row same
    rw [Option.some.inj (same.symm.trans found)]

theorem stable_moveTo {target : LocationRow} {options : ActivateArtifactOptions} :
    (moveTo target options row).stable = false := by
  have stored : metadataGet (moveTo target options row).metadata (bytes "artifact_migration_status") =
      some (.text (bytes "observing")) :=
    (metadataGet_setKey_of_ne (by dsimp only; decide)).trans metadataGet_setKey_self
  have observing : artifactMetadataString (moveTo target options row).metadata (bytes "artifact_migration_status") =
      bytes "observing" := by
    unfold artifactMetadataString metadataString
    rw [stored]
    decide
  unfold ArtifactRow.stable
  rw [observing]
  decide

/-- An event ends the observation of an artifact no earlier than the whole second of its deadline. -/
def MigrationState.Ends (state : MigrationState) (artifactID : ID) (event : MigrationEvent) : Prop :=
  ∃ now record options deadline, event = .complete now record artifactID options ∧
    state.deadline artifactID = some deadline ∧ deadline / second * second ≤ now

/-- A settled artifact becomes stable only by the end of its observation, and not before the whole second of the deadline of
its latest activation. -/
theorem Settled.stable (settled : Settled artifactID start state row) {event : MigrationEvent} {last : ArtifactRow}
    (arrived : (migrationStep state event).1.tables.artifact artifactID = some last) (unstable : row.stable = false)
    (stable : last.stable = true) : state.Ends artifactID event := by
  have changes : state.tables.artifact artifactID ≠ some last := by
    intro same
    rw [Option.some.inj (settled.found.symm.trans same), stable] at unstable
    cases unstable
  revert arrived
  refine migrationStep_cases (motive := fun event stepped => stepped.1.tables.artifact artifactID = some last →
    state.Ends artifactID event) ?_ ?_ ?_ ?_ ?_ event
  · exact fun _ _ arrived => absurd arrived changes
  · exact fun _ _ _ arrived => absurd arrived changes
  · intro host now record reading options source tables _ done arrived
    exact absurd ((artifact_congr (copyArtifactToBackend_ok done).1).symm.trans arrived) changes
  · intro now record scan moved options tables done arrived
    obtain ⟨source, target, -, found, project, -, -, -, -, -, -, -, -, artifacts⟩ := activateArtifactLocation_moved done
    by_cases own : moved = artifactID
    · subst own
      rw [← project] at artifacts
      have moved := (artifact_congr artifacts).trans (artifact_update_self found)
      rw [← Option.some.inj (moved.symm.trans arrived)] at stable
      exact absurd (stable_moveTo.symm.trans stable) (by decide)
    · exact absurd (((artifact_congr artifacts).trans (artifact_update_other own)).symm.trans arrived) changes
  · intro now record observed options tables done arrived
    rcases completeArtifactObservation_ok done with
      rfl | ⟨other, deadline, location, found, -, parsed, passed, present, owner, isPrimary, artifacts, -⟩
    · exact absurd arrived changes
    · by_cases own : observed = artifactID
      · subst own
        obtain rfl : other = row := Option.some.inj (found.symm.trans settled.found)
        obtain ⟨planned, latest, stored⟩ := settled.observed location present owner isPrimary
        cases stored.symm.trans parsed
        exact ⟨now, record, options, planned, rfl, latest, passed⟩
      · exact absurd (((artifact_congr artifacts).trans (artifact_update_other own)).symm.trans arrived) changes

/-- A run has committed a copy of an artifact. -/
def Copied (artifactID : ID) (state : MigrationState) (events : List MigrationEvent) : Prop :=
  ∃ before host now record reading options rest source, events = before ++ .copy host now record reading options :: rest ∧
    (Run.final migrationStep state before).readings[reading]? = some source ∧ source.id = artifactID ∧
    (migrationStep (Run.final migrationStep state before) (.copy host now record reading options)).2 = .ok ()

/-- A committed copy has stored a location of its artifact. -/
theorem copy_has {host : MigrationHost} {reading : Nat} {options : CopyArtifactOptions}
    (taken : state.readings[reading]? = some source)
    (committed : (migrationStep state (.copy host now record reading options)).2 = .ok ()) :
    (migrationStep state (.copy host now record reading options)).1.tables.locations.Has source.id source.uri := by
  unfold migrationStep at committed ⊢
  simp only [taken] at committed ⊢
  cases done : copyArtifactToBackend host now record source options state.tables with
  | error failure => simp [done] at committed
  | ok tables =>
      obtain ⟨-, kept, stored, retained, copied⟩ := copyArtifactToBackend_ok done
      exact copied.has retained.there

/-- A run that has committed a copy of an artifact ends with a location of it. -/
theorem Settled.copied_has {events : List MigrationEvent} (settled : Settled artifactID start state row)
    (copied : Copied artifactID state events) :
    ∃ uri, (Run.final migrationStep state events).tables.locations.Has artifactID uri := by
  obtain ⟨before, host, now, record, reading, options, rest, source, rfl, taken, named, committed⟩ := copied
  obtain ⟨middle, arrived⟩ := (settled.run before).settled
  obtain ⟨next, reached⟩ := (arrived.step (.copy host now record reading options)).settled
  have last := reached.run rest
  refine ⟨source.uri, ?_⟩
  rw [Run.final_append]
  exact last.held _ (named ▸ copy_has taken committed)

theorem mem_artifactReadLocations :
    uri ∈ (artifactReadLocations tables artifactID).map (·.uri) ↔ tables.locations.Has artifactID uri := by
  simp only [artifactReadLocations, List.mem_map, List.mem_mergeSort, List.mem_filter, beq_iff_eq, Locations.Has, and_assoc]

/-- In every run the locations of an artifact are as follows: it has at most one primary location, which is where its row
says; its hash and its size never change; once a copy was committed, every place it was ever in can be read; and it becomes
stable no earlier than the deadline of its latest activation, if that is a whole number of seconds, and less than a second
earlier in any case. -/
theorem artifactLocations_invariant {events : List MigrationEvent} (found : tables.artifact artifactID = some start)
    (none : ∀ location ∈ tables.locations.table.rows, location.artifactID ≠ artifactID) :
    ∃ row, (Run.final migrationStep { tables := tables } events).tables.artifact artifactID = some row ∧
      row.sha256 = start.sha256 ∧ row.sizeBytes = start.sizeBytes ∧
      (∀ first ∈ (Run.final migrationStep { tables := tables } events).tables.locations.table.rows,
        ∀ second ∈ (Run.final migrationStep { tables := tables } events).tables.locations.table.rows,
        first.artifactID = artifactID → second.artifactID = artifactID → first.role = .primary → second.role = .primary →
          first = second) ∧
      (∀ location ∈ (Run.final migrationStep { tables := tables } events).tables.locations.table.rows,
        location.artifactID = artifactID → location.role = .primary →
          location.storageBackend = row.storageBackend ∧ location.uri = row.uri ∧ location.sha256 = row.sha256 ∧
            location.sizeBytes = row.sizeBytes) ∧
      (Copied artifactID { tables := tables } events → ∀ before rest earlier, events = before ++ rest →
        (Run.final migrationStep { tables := tables } before).tables.artifact artifactID = some earlier →
          earlier.uri ∈ (artifactReadLocations (Run.final migrationStep { tables := tables } events).tables
            artifactID).map (·.uri)) ∧
      ∀ event last, row.stable = false → last.stable = true →
        (migrationStep (Run.final migrationStep { tables := tables } events) event).1.tables.artifact artifactID =
          some last →
        ∃ now record options deadline, event = .complete now record artifactID options ∧
          (Run.final migrationStep { tables := tables } events).deadline artifactID = some deadline ∧
          (deadline % second = 0 → deadline ≤ now) ∧ deadline < now + second := by
  have initial := Settled.initial found none
  obtain ⟨row, settled⟩ := (initial.run events).settled
  refine ⟨row, settled.found, settled.hash, settled.size, settled.home.single, settled.home.primary, ?_, ?_⟩
  · rintro copied before rest earlier rfl reached
    obtain ⟨middle, arrived⟩ := (initial.run before).settled
    obtain rfl : earlier = middle := Option.some.inj (reached.symm.trans arrived.found)
    have later := (arrived.run rest).traced _ arrived.place
    rw [← Run.final_append] at later
    rw [mem_artifactReadLocations]
    rcases later with has | ⟨absent, -, -⟩
    · exact has
    · obtain ⟨uri, location, member, owner, -⟩ := initial.copied_has copied
      exact absurd owner (absent location member)
  · intro event last unstable stable arrived
    obtain ⟨now, record, options, deadline, completes, latest, passed⟩ := settled.stable arrived unstable stable
    refine ⟨now, record, options, deadline, completes, latest, ?_, ?_⟩
    · intro whole
      rwa [Nat.div_mul_cancel (Nat.dvd_of_mod_eq_zero whole)] at passed
    · calc deadline = deadline / second * second + deadline % second := (Nat.div_add_mod' deadline second).symm
        _ < now + second := Nat.add_lt_add_of_le_of_lt passed (Nat.mod_lt deadline (by decide))

end Runs

section Early

/-- This is an artifact with two bytes of content. -/
def shortArtifact : ArtifactRow where
  id := 1
  projectID := 1
  versionID := none
  runID := none
  itemID := none
  artifactType := bytes "report"
  storageBackend := bytes "local"
  uri := bytes "a"
  sourcePath := bytes "r"
  sha256 := Json.digest (bytes "ok")
  sizeBytes := 2
  contentType := bytes "text/plain"
  metadata := []
  createdAt := 0

/-- This is a host with one content. -/
def shortHost : MigrationHost where
  sha256Hex := Json.digest
  writeConfigured backend _ _ content contentType :=
    .ok { backend := backend, uri := bytes "b", sha256 := Json.digest content, sizeBytes := content.length
          contentType := contentType }
  readConfigured _ _ := .ok (bytes "ok")
  lowerText := lowerASCII
  quote := Json.quote

def shortProject : ProjectRow := { id := 1, projectKey := bytes "p", archived := false, keyed := by decide }

def shortTables : ArtifactTables := { artifacts := { rows := [shortArtifact] } }

/-- This is a copy of the short artifact. -/
def shortCopy : CopyArtifactOptions :=
  { targetBackend := bytes "s3", targetRoot := [], actor := bytes "a", reason := bytes "r" }

/-- The artifact is copied at time 0, and the copy with the identifier 2 becomes the primary location until a deadline. -/
def moveUntil (deadline : Time) : List MigrationEvent :=
  [.read 1,
    .copy shortHost 0 shortProject 0 shortCopy,
    .activate 0 shortProject Int.toNat 1
      { targetLocationID := 2, observationUntil := deadline, actor := bytes "a", reason := bytes "r" }]

def stableAfter (events : List MigrationEvent) : Option Bool :=
  ((Run.final migrationStep { tables := shortTables } events).tables.artifact 1).map (·.stable)

/-- An artifact that has moved can still be read in its old place. -/
theorem movedArtifact_readable :
    bytes "a" ∈ (artifactReadLocations
      (Run.final migrationStep { tables := shortTables } (moveUntil 2000000000)).tables 1).map (·.uri) := by
  obtain ⟨-, -, -, -, -, -, readable, -⟩ :=
    @artifactLocations_invariant 1 shortArtifact shortTables (moveUntil 2000000000) (by decide) (by decide)
  refine readable ?_ [] (moveUntil 2000000000) shortArtifact rfl (by decide)
  exact ⟨[.read 1], _, _, _, _, _, _, shortArtifact, rfl, by decide, by decide +kernel, by decide +kernel⟩

/-- The observation until 1.5 seconds ends at 1.2 seconds. -/
theorem observation_endsEarly :
    (Run.final migrationStep { tables := shortTables } (moveUntil 1500000000)).deadline 1 = some 1500000000 ∧
      stableAfter (moveUntil 1500000000) = some false ∧
      stableAfter (moveUntil 1500000000 ++
        [.complete 1200000000 shortProject 1 { actor := bytes "a", reason := bytes "r" }]) = some true := by
  decide +kernel

end Early

end AreaFlow.Project
