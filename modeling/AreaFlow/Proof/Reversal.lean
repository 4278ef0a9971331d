import AreaFlow.Proof.Migration

namespace AreaFlow.Project
open Go

/-- The actor, the reason and the deadline of an activation are accepted. -/
structure ActivateArtifactOptions.Valid (options : ActivateArtifactOptions) (now : Time) : Prop where
  actor : trimSpace options.actor ≠ []
  reason : trimSpace options.reason ≠ []
  future : now < options.observationUntil

/-- A store that accepts a write reports the hash and the size of its content, and no hash is empty. -/
structure MigrationHost.Faithful (host : MigrationHost) : Prop where
  reports : ∀ backend root path content contentType stored,
    host.writeConfigured backend root path content contentType = .ok stored →
      stored.sha256 = host.sha256Hex content ∧ stored.sizeBytes = content.length
  hashed : ∀ content, host.sha256Hex content ≠ []

section Collision

variable {artifactID projectID : ID} {target : LocationRow} {locations : Locations} {options : ActivateArtifactOptions}
  {scan : ID → Nat}

/-- Besides a target an artifact has a primary location in the place of a source. -/
def Collides (artifactID : ID) (target : LocationRow) (locations : Locations) : Prop :=
  ∃ first ∈ locations.table.rows, ∃ second ∈ locations.table.rows, first.artifactID = artifactID ∧
    second.artifactID = artifactID ∧ first.role = .primary ∧ second.role = .migrationSource ∧ first.uri = second.uri ∧
    first ≠ target

theorem slot_inj {first second : LocationRow} (present : first ∈ locations.table.rows)
    (stored : second ∈ locations.table.rows) (same : first.slot = second.slot) : first = second :=
  List.inj_on_of_nodup_map locations.unique present stored same

/-- Rows are changed one after another exactly if all slots are distinct at every moment. -/
theorem changeRows_isSome {change : Table.Change LocationRow (·.id)} {ids : List ID} (once : ids.Nodup) :
    (∃ after, ids.foldlM (Locations.changeRow change) locations = some after) ↔
      ∀ visited rest, ids = visited ++ rest →
        ((locations.table.update (fun row => visited.contains row.id) change).rows.map (·.slot)).Nodup := by
  induction ids generalizing locations with
  | nil =>
      refine iff_of_true ⟨locations, rfl⟩ ?_
      intro visited rest split
      rw [(List.append_eq_nil_iff.mp split.symm).1]
      simpa [Table.update] using locations.unique
  | cons id later ih =>
      rw [List.nodup_cons] at once
      rw [List.foldlM_cons, Option.bind_eq_bind]
      constructor
      · rintro ⟨after, changed⟩ visited rest split
        obtain ⟨middle, first, more⟩ := Option.bind_eq_some_iff.mp changed
        cases visited with
        | nil => simpa [Table.update] using locations.unique
        | cons head visited =>
            obtain ⟨rfl, rfl⟩ := List.cons.inj split
            have clear := (ih once.2).mp ⟨after, more⟩ visited rest rfl
            rwa [changeRow_ok first, update_cons _ fun member => once.1 (List.mem_append_left rest member)] at clear
      · intro clear
        have alone : (locations.table.update (·.id == id) change) =
            locations.table.update (fun row => [id].contains row.id) change := by
          simp [Table.update]
        have first : locations.changeRow change id =
            some ⟨locations.table.update (·.id == id) change, alone ▸ clear [id] later rfl⟩ := by
          unfold Locations.changeRow
          rw [dif_pos]
        rw [first, Option.bind_some]
        refine (ih once.2).mpr ?_
        rintro visited rest rfl
        rw [update_cons _ fun member => once.1 (List.mem_append_left rest member)]
        exact clear (id :: visited) rest rfl

/-- This is the role of a location when a promotion has visited some locations. -/
def promotedRole (visited : List ID) (target : ID) (row : LocationRow) : LocationRole :=
  if visited.contains row.id then
    if row.id = target then .primary else if row.role = .primary then .migrationSource else row.role
  else row.role

/-- A role stays, or it is that of the target, or a primary location that is not the target was visited. -/
theorem promotedRole_cases (visited : List ID) (target : ID) (row : LocationRow) :
    promotedRole visited target row = row.role ∨ row.id = target ∧ promotedRole visited target row = .primary ∨
      row.id ≠ target ∧ row.id ∈ visited ∧ row.role = .primary ∧ promotedRole visited target row = .migrationSource := by
  unfold promotedRole
  split
  · rename_i seen
    split
    · rename_i chosen
      exact Or.inr (Or.inl ⟨chosen, rfl⟩)
    · rename_i other
      split
      · rename_i isPrimary
        exact Or.inr (Or.inr ⟨other, by simpa using seen, isPrimary, rfl⟩)
      · exact Or.inl rfl
  · exact Or.inl rfl

theorem promoted_slots (visited : List ID) :
    (locations.table.update (fun row => visited.contains row.id)
      ⟨promote options.targetLocationID options, fun _ => rfl⟩).rows.map (·.slot) =
      locations.table.rows.map fun row => (row.artifactID, promotedRole visited options.targetLocationID row, row.uri) := by
  simp only [Table.update, List.map_map]
  apply List.map_congr_left
  intro row _
  simp only [Function.comp_apply, promotedRole]
  split <;> rfl

section Clear

variable (clear : ¬ Collides artifactID target locations) (stored : target ∈ locations.table.rows)
  (own : target.artifactID = artifactID)
  (alone : ∀ row ∈ locations.table.rows, row.artifactID = artifactID → row.role = .primary → row.uri = target.uri →
    row = target)

include clear stored own alone

/-- Without a collision and without another primary location in the place of the target, the slots of locations are
distinct at every moment of a promotion. -/
theorem promoted_inj {visited : List ID}
    (owned : ∀ row ∈ locations.table.rows, row.id ∈ visited → row.artifactID = artifactID) {first second : LocationRow}
    (present : first ∈ locations.table.rows) (there : second ∈ locations.table.rows)
    (owners : first.artifactID = second.artifactID) (places : first.uri = second.uri)
    (roles : promotedRole visited target.id first = promotedRole visited target.id second) : first = second := by
  -- Only the target can take the role of another row, and only a demoted row that of a source.
  have taken {row other : LocationRow} (member : row ∈ locations.table.rows) (also : other ∈ locations.table.rows)
      (chosen : other.id = target.id) (same : row.artifactID = other.artifactID) (place : row.uri = other.uri)
      (isPrimary : row.role = .primary) : row = other := by
    obtain rfl := Table.unique also stored chosen
    exact alone row member (same.trans own) isPrimary place
  have apart {row other : LocationRow} (member : row ∈ locations.table.rows) (also : other ∈ locations.table.rows)
      (demoted : other.id ≠ target.id ∧ other.id ∈ visited ∧ other.role = .primary)
      (same : row.artifactID = other.artifactID) (place : row.uri = other.uri) (isSource : row.role = .migrationSource) :
      row = other := by
    have owner := owned other also demoted.2.1
    refine absurd ⟨other, also, row, member, owner, same.trans owner, demoted.2.2, isSource, place.symm, ?_⟩ clear
    rintro rfl
    exact demoted.1 rfl
  have equal (same : first.role = second.role) : first = second :=
    slot_inj present there (by rw [LocationRow.slot, LocationRow.slot, owners, places, same])
  rcases promotedRole_cases visited target.id first with one | ⟨isTarget, one⟩ | ⟨other, seen, isPrimary, one⟩
  · rcases promotedRole_cases visited target.id second with two | ⟨chosen, two⟩ | ⟨apartTarget, visitedToo, wasPrimary, two⟩
    · exact equal (one.symm.trans (roles.trans two))
    · exact taken present there chosen owners places (one.symm.trans (roles.trans two))
    · exact apart present there ⟨apartTarget, visitedToo, wasPrimary⟩ owners places (one.symm.trans (roles.trans two))
  · rcases promotedRole_cases visited target.id second with two | ⟨chosen, two⟩ | ⟨apartTarget, visitedToo, wasPrimary, two⟩
    · exact (taken there present isTarget owners.symm places.symm (two.symm.trans (roles.symm.trans one))).symm
    · exact Table.unique present there (isTarget.trans chosen.symm)
    · cases one.symm.trans (roles.trans two)
  · rcases promotedRole_cases visited target.id second with two | ⟨chosen, two⟩ | ⟨apartTarget, visitedToo, wasPrimary, two⟩
    · exact (apart there present ⟨other, seen, isPrimary⟩ owners.symm places.symm
        (two.symm.trans (roles.symm.trans one))).symm
    · cases one.symm.trans (roles.trans two)
    · exact equal (isPrimary.trans wasPrimary.symm)

theorem promotes_of_clear (named : target.id = options.targetLocationID) :
    ∃ after, locations.promotion scan projectID artifactID options = some after := by
  have visits := visited_perm locations scan fun row => row.projectID == projectID && row.artifactID == artifactID
  refine (changeRows_isSome (visits.nodup_iff.mpr (visited_nodup locations _))).mpr ?_
  intro visited rest split
  rw [promoted_slots]
  have owned : ∀ row ∈ locations.table.rows, row.id ∈ visited → row.artifactID = artifactID := by
    intro row member seen
    obtain ⟨other, chosen, same⟩ := List.mem_map.mp (visits.subset (split ▸ List.mem_append_left rest seen))
    obtain ⟨there, fits⟩ := List.mem_filter.mp chosen
    simp only [Bool.and_eq_true, beq_iff_eq] at fits
    exact Table.unique there member same ▸ fits.2
  apply List.Nodup.map_on ?_ (List.Nodup.of_map _ locations.unique)
  intro first present second there same
  simp only [Prod.mk.injEq, ← named] at same
  exact promoted_inj clear stored own alone owned present there same.1 same.2.2 same.2.1

end Clear

/-- A promotion fails at a collision, in whatever order it visits the locations: if it visits the primary location first,
that one takes the slot of the source, and if it visits the source as its target first, that one takes the slot of the
primary location. -/
theorem not_promotes_of_collides (collides : Collides artifactID target locations)
    (project : ∀ row ∈ locations.table.rows, row.artifactID = artifactID → row.projectID = projectID)
    (stored : target ∈ locations.table.rows) (named : target.id = options.targetLocationID) :
    ¬ ∃ after, locations.promotion scan projectID artifactID options = some after := by
  intro succeeds
  have visits := visited_perm locations scan fun row => row.projectID == projectID && row.artifactID == artifactID
  have once := visits.nodup_iff.mpr (visited_nodup locations _)
  have moments := (changeRows_isSome once).mp succeeds
  obtain ⟨first, present, second, there, owner, also, isPrimary, isSource, places, apart⟩ := collides
  have unnamed : first.id ≠ options.targetLocationID :=
    fun equal => apart (Table.unique present stored (equal.trans named.symm))
  have listed : first.id ∈ ((locations.table.rows.filter fun row =>
      row.projectID == projectID && row.artifactID == artifactID).map (·.id)) :=
    List.mem_map.mpr ⟨first, List.mem_filter.mpr ⟨present, by simp [owner, project first present owner]⟩, rfl⟩
  obtain ⟨earlier, later, split⟩ := List.append_of_mem (visits.symm.subset listed)
  have distinct {visited rest : List ID} (moment : earlier ++ first.id :: later = visited ++ rest)
      (roles : promotedRole visited options.targetLocationID first = promotedRole visited options.targetLocationID second) :
      False := by
    have unique := moments visited rest (split.trans moment)
    rw [promoted_slots] at unique
    have equal : first = second := by
      refine List.inj_on_of_nodup_map unique present there ?_
      simp only [roles, places, owner, also]
    rw [equal, isSource] at isPrimary
    cases isPrimary
  rw [split] at once
  have unseen : first.id ∉ earlier := fun member => (List.nodup_append.mp once).2.2 _ member _ List.mem_cons_self rfl
  by_cases taken : second.id = options.targetLocationID ∧ second.id ∈ earlier
  · refine @distinct earlier (first.id :: later) rfl ?_
    have seen := taken.2
    rw [promotedRole, promotedRole, if_neg (by simpa using unseen), if_pos (by simpa using seen), if_pos taken.1, isPrimary]
  · refine @distinct (earlier ++ [first.id]) later (by simp) ?_
    have kept : promotedRole (earlier ++ [first.id]) options.targetLocationID second = second.role := by
      rcases promotedRole_cases (earlier ++ [first.id]) options.targetLocationID second with
        same | ⟨chosen, -⟩ | ⟨-, -, wasPrimary, -⟩
      · exact same
      · have outside : second.id ∉ earlier ++ [first.id] := by
          rw [List.mem_append, List.mem_singleton, not_or]
          exact ⟨fun member => taken ⟨chosen, member⟩, fun same => unnamed (same ▸ chosen)⟩
        simp [promotedRole, outside]
      · cases isSource.symm.trans wasPrimary
    rw [kept, isSource]
    simp [promotedRole, unnamed, isPrimary]

end Collision

section Activation

variable {now : Time} {record : ProjectRow} {artifactID : ID} {row : ArtifactRow} {target : LocationRow}
  {tables : ArtifactTables} {options : ActivateArtifactOptions} {scan : ID → Nat}

theorem loadArtifactForMigration_found (found : tables.artifact artifactID = some row) (project : row.projectID = record.id) :
    loadArtifactForMigration tables record.id artifactID = .ok row := by
  have named := artifact_id found
  unfold loadArtifactForMigration
  rw [Table.find?_of_mem (Table.rowAt_mem found) (by simp [project, named]) (by simp +contextual [named])]

theorem loadArtifactLocation_found (stored : target ∈ tables.locations.table.rows) (project : target.projectID = record.id)
    (owner : target.artifactID = artifactID) :
    loadArtifactLocation tables record.id artifactID target.id = .ok target := by
  unfold loadArtifactLocation
  rw [Table.find?_of_mem stored (by simp [project, owner]) (by simp +contextual)]

/-- A location of an artifact is activated exactly if it is verified, has the hash and the size of the artifact, and its
promotion succeeds. -/
theorem activates_iff (valid : options.Valid now) (found : tables.artifact artifactID = some row)
    (project : row.projectID = record.id) (home : Home artifactID record.id row tables.locations)
    (stored : target ∈ tables.locations.table.rows) (owner : target.artifactID = artifactID)
    (named : target.id = options.targetLocationID) (positive : 0 < record.id ∧ 0 < artifactID ∧ 0 < target.id) :
    (∃ after, activateArtifactLocation now record scan artifactID options tables = .ok after) ↔
      target.verifiedAt ≠ none ∧ target.sha256 = row.sha256 ∧ target.sizeBytes = row.sizeBytes ∧
        ∃ promoted, tables.locations.promotion scan record.id artifactID options = some promoted := by
  have loaded := loadArtifactForMigration_found found project
  have located := loadArtifactLocation_found stored (home.project target stored owner) owner
  have identified : ¬ (record.id ≤ 0 ∨ artifactID ≤ 0 ∨ options.targetLocationID ≤ 0) := by
    rw [← named]
    simpa only [not_or, Int.not_le] using positive
  unfold activateArtifactLocation Locations.promotion
  rw [if_neg identified, if_neg (not_or.mpr ⟨valid.actor, valid.reason⟩), if_neg (Nat.not_le.mpr valid.future), loaded,
    ← named, located]
  simp only [bind, Except.bind]
  split
  · rename_i refused
    refine iff_of_false (by rintro ⟨_, same⟩; cases same) ?_
    rintro ⟨verified, hash, size, -⟩
    obtain missing | other | other := refused
    · exact verified missing
    · exact other hash
    · exact other size
  · rename_i accepted
    simp only [not_or, ne_eq, not_not] at accepted
    split
    · rename_i failed
      refine iff_of_false (by rintro ⟨_, same⟩; cases same) ?_
      rintro ⟨-, -, -, promoted, changed⟩
      rw [failed] at changed
      cases changed
    · rename_i promoted changed
      exact iff_of_true ⟨_, rfl⟩ ⟨accepted.1, accepted.2.1, accepted.2.2, promoted, changed⟩

end Activation

section Copying

variable {host : MigrationHost} {now : Time} {record : ProjectRow} {row source : ArtifactRow} {artifactID : ID}
  {locations : Locations} {options : CopyArtifactOptions} {stored : Stored}

theorem readArtifactRecordContent_ok {content : GoString × GoString}
    (read : readArtifactRecordContent host row = .ok content) :
    host.readConfigured row.storageBackend row.uri = .ok content.1 := by
  unfold readArtifactRecordContent at read
  split at read
  · cases read
  split at read
  · cases read
  obtain ⟨found, loaded, rest⟩ := Except.bind_ok read
  rw [Except.mapError_ok loaded]
  split at rest
  · cases rest
  split at rest
  · cases rest
  cases rest
  rfl

theorem verifyMigrated_ok {sha256 start : GoString} {sizeBytes : Nat} (verified : verifyMigrated row sha256 sizeBytes start = .ok ()) :
    (row.sha256 ≠ [] → row.sha256 = sha256) ∧ (0 < row.sizeBytes → row.sizeBytes = sizeBytes) := by
  unfold verifyMigrated at verified
  split at verified
  · cases verified
  · rename_i hash
    split at verified
    · cases verified
    · rename_i size
      exact ⟨fun known => by_contra fun other => hash ⟨known, other⟩, fun known => by_contra fun other => size ⟨known, other⟩⟩

/-- A copied artifact had a readable content that was written, and the copy agrees with what the row says of it. -/
theorem copyContent_ok (copied : copyContent host record row options = .ok stored) :
    ∃ content backend root path contentType, host.readConfigured row.storageBackend row.uri = .ok content ∧
      host.writeConfigured backend root path content contentType = .ok stored ∧
      (row.sha256 ≠ [] → row.sha256 = stored.sha256) ∧ (0 < row.sizeBytes → row.sizeBytes = stored.sizeBytes) := by
  unfold copyContent at copied
  split at copied
  · cases copied
  obtain ⟨content, read, copied⟩ := Except.bind_ok copied
  obtain ⟨path, -, copied⟩ := Except.bind_ok copied
  obtain ⟨written, accepted, copied⟩ := Except.bind_ok copied
  obtain ⟨_, verified, copied⟩ := Except.bind_ok copied
  obtain ⟨_, -, copied⟩ := Except.bind_ok copied
  obtain ⟨_, -, copied⟩ := Except.bind_ok copied
  cases copied
  exact ⟨content.1, _, _, _, _, readArtifactRecordContent_ok read, Except.mapError_ok accepted, verifyMigrated_ok verified⟩

/-- The row of an artifact has the hash and the size of its content. -/
def Described (host : MigrationHost) (row : ArtifactRow) : Prop :=
  row.sha256 ≠ [] ∧ (0 < row.sizeBytes ∨ host.readConfigured row.storageBackend row.uri = .ok [])

/-- A copy has the hash and the size of its artifact exactly if the artifact is described. -/
theorem copied_same_iff (faithful : host.Faithful) (copied : copyContent host record row options = .ok stored) :
    stored.sha256 = row.sha256 ∧ stored.sizeBytes = row.sizeBytes ↔ Described host row := by
  obtain ⟨content, _, _, _, _, read, written, knownHash, knownSize⟩ := copyContent_ok copied
  obtain ⟨hash, size⟩ := faithful.reports _ _ _ _ _ _ written
  unfold Described
  rw [read]
  constructor
  · rintro ⟨sameHash, sameSize⟩
    refine ⟨fun blank => faithful.hashed content ((hash.symm.trans sameHash).trans blank), ?_⟩
    rcases Nat.eq_zero_or_pos row.sizeBytes with zero | positive
    · right
      rw [List.eq_nil_of_length_eq_zero ((size.symm.trans sameSize).trans zero)]
    · exact Or.inl positive
  · rintro ⟨known, positive | empty⟩
    · exact ⟨(knownHash known).symm, (knownSize positive).symm⟩
    · refine ⟨(knownHash known).symm, ?_⟩
      rw [Except.ok.inj empty] at size
      rcases Nat.eq_zero_or_pos row.sizeBytes with zero | positive
      · rw [zero, size]
        rfl
      · exact (knownSize positive).symm

/-- An insert or an update in its place leaves the new values in the slot. -/
theorem upsertArtifactLocation_find {role : LocationRole} {verifiedAt : Option Time} {metadata : Metadata} :
    ∃ location ∈ (upsertArtifactLocation source role stored verifiedAt metadata locations).table.rows,
      location.slot = (source.id, role, stored.uri) ∧ location.sha256 = stored.sha256 ∧
      location.sizeBytes = stored.sizeBytes ∧ (verifiedAt ≠ none → location.verifiedAt ≠ none) := by
  unfold upsertArtifactLocation Locations.upsert
  split
  · rename_i taken
    obtain ⟨old, present, same⟩ := List.mem_map.mp taken
    refine ⟨_, Table.mem_update.mpr ⟨old, present, rfl⟩, ?_⟩
    rw [if_pos (by simp [same])]
    refine ⟨same, rfl, rfl, fun known => ?_⟩
    obtain ⟨time, rfl⟩ := Option.ne_none_iff_exists'.mp known
    exact Option.some_ne_none time
  · exact ⟨_, Table.mem_insert_self, rfl, rfl, rfl, fun known => known⟩

end Copying

section Journeys

/-- A journey is a state of the migrations with the place that each artifact has left by its latest activation. -/
structure Journey where
  state : MigrationState
  left : ID → Option GoString := fun _ => none

/-- An activation that succeeds leaves the place of its artifact. -/
def Journey.leftAfter (journey : Journey) (event : MigrationEvent) (answer : Except GoString Unit) (artifactID : ID) :
    Option GoString :=
  match event, answer with
  | .activate _ _ _ moved _, .ok () =>
      if moved = artifactID then (journey.state.tables.artifact artifactID).map (·.uri) else journey.left artifactID
  | _, _ => journey.left artifactID

def journeyStep (journey : Journey) (event : MigrationEvent) : Journey × Except GoString Unit :=
  ({ state := (migrationStep journey.state event).1
     left := journey.leftAfter event (migrationStep journey.state event).2 }, (migrationStep journey.state event).2)

/-- This is the journey of some events from tables. -/
def travel (tables : ArtifactTables) (events : List MigrationEvent) : Journey :=
  Run.final journeyStep { state := { tables := tables } } events

variable {artifactID : ID} {start row source : ArtifactRow} {state : MigrationState} {tables after : ArtifactTables}
  {before locations : Locations} {new : Table.New LocationRow (·.id)}

/-- A location has a positive identifier, and a source has the hash and the size of its artifact. -/
def SoundLocation (start : ArtifactRow) (location : LocationRow) : Prop :=
  0 < location.id ∧
    (location.role = .migrationSource → location.sha256 = start.sha256 ∧ location.sizeBytes = start.sizeBytes)

def SoundLocations (artifactID : ID) (start : ArtifactRow) (locations : Locations) : Prop :=
  ∀ location ∈ locations.table.rows, location.artifactID = artifactID → SoundLocation start location

/-- This is what a journey keeps of an artifact. -/
structure Placed (artifactID : ID) (start : ArtifactRow) (state : MigrationState) (row : ArtifactRow) : Prop extends
    Settled artifactID start state row where
  sound : SoundLocations artifactID start state.tables.locations

/-- An artifact that has left a place has a primary location and a source in this place. -/
def Left (artifactID : ID) (uri : GoString) (locations : Locations) : Prop :=
  (∃ location ∈ locations.table.rows, location.artifactID = artifactID ∧ location.role = .primary) ∧
    ∃ location ∈ locations.table.rows, location.slot = (artifactID, .migrationSource, uri)

/-- No slot of an artifact is lost. -/
def SlotsKept (artifactID : ID) (before after : Locations) : Prop :=
  ∀ old ∈ before.table.rows, old.artifactID = artifactID → ∃ location ∈ after.table.rows, location.slot = old.slot

theorem Left.kept {after : Locations} {uri : GoString} (slots : SlotsKept artifactID before after)
    (left : Left artifactID uri before) : Left artifactID uri after := by
  obtain ⟨⟨primary, present, owner, role⟩, source, stored, same⟩ := left
  obtain ⟨later, member, slot⟩ := slots primary present owner
  obtain ⟨last, there, equal⟩ := slots source stored (congrArg (·.1) same)
  exact ⟨⟨later, member, (congrArg (·.1) slot).trans owner, (congrArg (·.2.1) slot).trans role⟩, last, there,
    equal.trans same⟩

theorem upsert_slotsKept {change : Table.Change LocationRow (·.id)}
    {keeps : ∀ row, (change.apply row).slot = row.slot} :
    SlotsKept artifactID before (before.upsert new change keeps) := by
  intro old present _
  obtain ⟨location, member, -, same, -⟩ := @upsert_kept before new change keeps old present
  exact ⟨location, member, same⟩

/-- An insert keeps locations sound if the new row is and the change of the row in its slot does. -/
theorem sound_upsert {change : Table.Change LocationRow (·.id)} {keeps : ∀ row, (change.apply row).slot = row.slot}
    (sound : SoundLocations artifactID start before)
    (fresh : (before.table.next new).artifactID = artifactID → SoundLocation start (before.table.next new))
    (changed : ∀ old ∈ before.table.rows, old.artifactID = artifactID → old.slot = (before.table.next new).slot →
      SoundLocation start old → SoundLocation start (change.apply old)) :
    SoundLocations artifactID start (before.upsert new change keeps) := by
  intro location member owner
  rcases mem_upsert member with old | rfl | ⟨old, present, rfl, same⟩
  · exact sound location old owner
  · exact fresh owner
  · have also : old.artifactID = artifactID := (congrArg (·.1) (keeps old)).symm.trans owner
    exact changed old present also same (sound old present also)

theorem next_id_pos : 0 < (before.table.next new).id := by
  rw [Table.next, new.named]
  exact freshID_pos _

theorem sound_upsertArtifactLocation {role : LocationRole} {stored : Stored} {verifiedAt : Option Time} {metadata : Metadata}
    (sound : SoundLocations artifactID start before)
    (same : source.id = artifactID → role = .migrationSource →
      stored.sha256 = start.sha256 ∧ stored.sizeBytes = start.sizeBytes) :
    SoundLocations artifactID start (upsertArtifactLocation source role stored verifiedAt metadata before) := by
  apply sound_upsert sound
  · exact fun owner => ⟨next_id_pos, same owner⟩
  · intro old present owner slot known
    refine ⟨known.1, fun isSource => same ?_ ?_⟩
    · exact (congrArg (·.1) slot).symm.trans owner
    · exact (congrArg (·.2.1) slot).symm.trans isSource

theorem sound_retainSource {now : Time}
    (sound : SoundLocations artifactID start before)
    (same : source.id = artifactID → source.sha256 = start.sha256 ∧ source.sizeBytes = start.sizeBytes) :
    SoundLocations artifactID start (retainSource now source before) := by
  apply sound_upsert sound
  · exact fun owner => ⟨next_id_pos, fun _ => same owner⟩
  · exact fun _ _ _ _ known => known

section Steps

variable (placed : Placed artifactID start state row) {now : Time} {record : ProjectRow}

include placed

theorem Placed.copied {host : MigrationHost} {options : CopyArtifactOptions} (member : source ∈ state.readings)
    (done : copyArtifactToBackend host now record source options state.tables = .ok after) :
    SoundLocations artifactID start after.locations ∧ SlotsKept artifactID state.tables.locations after.locations := by
  obtain ⟨-, -, stored, metadata, -, -, inserted⟩ := copyArtifactToBackend_stored done
  rw [inserted]
  constructor
  · apply sound_upsertArtifactLocation
    · exact sound_upsertArtifactLocation placed.sound fun same _ => (placed.readings source member same).2
    · exact fun _ other => nomatch other
  · intro old present owner
    obtain ⟨middle, there, same⟩ := upsert_slotsKept old present owner
    obtain ⟨last, stays, equal⟩ := upsert_slotsKept middle there ((congrArg (·.1) same).trans owner)
    exact ⟨last, stays, equal.trans same⟩

theorem Placed.activatedOther {scan : ID → Nat} {moved : ID} {options : ActivateArtifactOptions}
    (other : moved ≠ artifactID)
    (done : activateArtifactLocation now record scan moved options state.tables = .ok after) :
    SoundLocations artifactID start after.locations ∧ SlotsKept artifactID state.tables.locations after.locations := by
  obtain ⟨source, target, promoted, -, -, named, -, -, -, -, -, changed, kept, -⟩ := activateArtifactLocation_moved done
  have sound : SoundLocations artifactID start promoted :=
    fun location member owner => placed.sound location ((promoted_other changed other owner).mp member) owner
  rw [kept]
  refine ⟨sound_retainSource sound fun own => absurd own (named ▸ other), ?_⟩
  intro old present owner
  exact upsert_slotsKept old ((promoted_other changed other owner).mpr present) owner

/-- An artifact that moves leaves its place. -/
theorem Placed.activated {scan : ID → Nat} {options : ActivateArtifactOptions}
    (done : activateArtifactLocation now record scan artifactID options state.tables = .ok after) :
    SoundLocations artifactID start after.locations ∧ Left artifactID row.uri after.locations := by
  obtain ⟨source, target, promoted, found, project, named, present, owner, chosen, -, -, changed, kept, -⟩ :=
    activateArtifactLocation_moved done
  obtain rfl : source = row := Option.some.inj (found.symm.trans placed.found)
  rw [← project, placed.project] at changed
  have rows := changeRoles_ok changed
  have sound : SoundLocations artifactID start promoted := by
    intro location member own
    rw [rows] at member
    obtain ⟨old, stored, same⟩ := Table.mem_update.mp member
    have known : old.artifactID = artifactID := by
      rw [← own, same]
      split <;> rfl
    have before := placed.sound old stored known
    rw [if_pos (by simp [known, placed.home.project old stored known])] at same
    rw [same]
    refine ⟨before.1, fun isSource => ?_⟩
    by_cases isPrimary : old.role = .primary
    · obtain ⟨-, -, sameHash, sameSize⟩ := placed.home.primary old stored known isPrimary
      exact ⟨sameHash.trans placed.hash, sameSize.trans placed.size⟩
    · by_cases isTarget : old.id = options.targetLocationID
      · simp [promote, isTarget] at isSource
      · simp only [promote, if_neg isTarget, if_neg isPrimary] at isSource
        exact before.2 isSource
  rw [kept]
  refine ⟨sound_retainSource sound fun _ => ⟨placed.hash, placed.size⟩, ?_, ?_⟩
  · have there : promote options.targetLocationID options target ∈ promoted.table.rows := by
      rw [rows]
      refine Table.mem_update.mpr ⟨target, present, ?_⟩
      rw [if_pos (by simp [owner, placed.home.project target present owner])]
    obtain ⟨location, member, same⟩ := upsert_slotsKept _ there owner
    refine ⟨location, member, (congrArg (·.1) same).trans owner, (congrArg (·.2.1) same).trans ?_⟩
    exact if_pos chosen
  · obtain ⟨location, member, same⟩ : ∃ location ∈ (retainSource now source promoted).table.rows,
        location.slot = (source.id, .migrationSource, source.uri) := upsert_slot
    exact ⟨location, member, named ▸ same⟩

theorem Placed.completed {observed : ID} {options : CompleteArtifactObservationOptions}
    (done : completeArtifactObservation now record observed options state.tables = .ok after) :
    SoundLocations artifactID start after.locations ∧ SlotsKept artifactID state.tables.locations after.locations := by
  rcases completeArtifactObservation_ok done with rfl | ⟨-, -, -, -, -, -, -, -, -, -, -, chosen, changed⟩
  · exact ⟨placed.sound, fun old present _ => ⟨old, present, rfl⟩⟩
  rw [changed]
  constructor
  · intro location member own
    obtain ⟨old, stored, -, same⟩ := mem_settled member
    have known := placed.sound old stored (same ▸ own)
    rw [← same] at known
    exact known
  · intro old stored _
    refine ⟨_, Table.mem_update.mpr ⟨old, stored, rfl⟩, ?_⟩
    split <;> rfl

end Steps

/-- An artifact is placed, and it has left the place that the journey names. -/
structure Travelled (artifactID : ID) (start : ArtifactRow) (journey : Journey) : Prop where
  placed : ∃ row, Placed artifactID start journey.state row
  left : ∀ uri, journey.left artifactID = some uri → Left artifactID uri journey.state.tables.locations

/-- One event of a journey keeps what is known of an artifact. -/
theorem Travelled.step {journey : Journey} (travelled : Travelled artifactID start journey) (event : MigrationEvent) :
    Travelled artifactID start (journeyStep journey event).1 := by
  obtain ⟨row, placed⟩ := travelled.placed
  obtain ⟨later, settled⟩ := (placed.toSettled.step event).settled
  have kept {after : Locations} (sound : SoundLocations artifactID start after)
      (slots : SlotsKept artifactID journey.state.tables.locations after) : SoundLocations artifactID start after ∧
        ∀ uri, journey.left artifactID = some uri → Left artifactID uri after :=
    ⟨sound, fun uri known => (travelled.left uri known).kept slots⟩
  have moved : SoundLocations artifactID start (migrationStep journey.state event).1.tables.locations ∧
      ∀ uri, journey.leftAfter event (migrationStep journey.state event).2 artifactID = some uri →
        Left artifactID uri (migrationStep journey.state event).1.tables.locations := by
    refine migrationStep_cases (motive := fun event stepped =>
      SoundLocations artifactID start stepped.1.tables.locations ∧
        ∀ uri, journey.leftAfter event stepped.2 artifactID = some uri →
          Left artifactID uri stepped.1.tables.locations) ?_ ?_ ?_ ?_ ?_ event
    · intro event failure
      refine ⟨placed.sound, fun uri known => travelled.left uri ?_⟩
      cases event <;> exact known
    · exact fun _ _ _ => ⟨placed.sound, travelled.left⟩
    · intro host now record reading options source tables taken done
      obtain ⟨sound, slots⟩ := placed.copied (List.mem_of_getElem? taken) done
      exact kept sound slots
    · intro now record scan moved options tables done
      by_cases own : moved = artifactID
      · subst own
        obtain ⟨sound, left⟩ := placed.activated done
        refine ⟨sound, fun uri known => ?_⟩
        rw [Journey.leftAfter, if_pos rfl, placed.found] at known
        exact Option.some.inj known ▸ left
      · obtain ⟨sound, slots⟩ := placed.activatedOther own done
        rw [Journey.leftAfter, if_neg own]
        exact kept sound slots
    · intro now record observed options tables done
      obtain ⟨sound, slots⟩ := placed.completed done
      exact kept sound slots
  exact ⟨⟨later, { settled with sound := moved.1 }⟩, moved.2⟩

/-- A whole journey keeps what is known of an artifact. -/
theorem Travelled.run {journey : Journey} (travelled : Travelled artifactID start journey) (events : List MigrationEvent) :
    Travelled artifactID start (Run.final journeyStep journey events) := by
  induction events generalizing journey with
  | nil => exact travelled
  | cons event rest ih => exact ih (travelled.step event)

theorem Travelled.initial (found : tables.artifact artifactID = some start)
    (none : ∀ location ∈ tables.locations.table.rows, location.artifactID ≠ artifactID) :
    Travelled artifactID start { state := { tables := tables } } where
  placed := ⟨start, { Settled.initial found none with
    sound := fun location member owner => absurd owner (none location member) }⟩
  left := fun _ known => nomatch known

end Journeys

section Main

variable {artifactID : ID} {start row : ArtifactRow} {state : MigrationState} {tables after : ArtifactTables}
  {record : ProjectRow} {location : LocationRow} {later : Time} {activation : ActivateArtifactOptions}
  {host : MigrationHost} {now : Time} {options : CopyArtifactOptions}

/-- An artifact has no primary location yet. -/
def Unmoved (artifactID : ID) (tables : ArtifactTables) : Prop :=
  ∀ location ∈ tables.locations.table.rows, location.artifactID = artifactID → location.role ≠ .primary

theorem find_slot {locations : Locations} {slot : ID × LocationRole × GoString} (found : locations.find slot = some location) :
    location ∈ locations.table.rows ∧ location.slot = slot :=
  ⟨List.mem_of_find?_eq_some found, by simpa using List.find?_some found⟩

theorem find_of_mem {locations : Locations} (stored : location ∈ locations.table.rows) :
    locations.find location.slot = some location := by
  cases found : locations.find location.slot with
  | none => exact absurd (List.find?_eq_none.mp found location stored) (by simp)
  | some other =>
      obtain ⟨present, same⟩ := find_slot found
      rw [slot_inj present stored same]

/-- A committed copy has a source in the place of its artifact. -/
theorem copied_source (done : copyArtifactToBackend host now record row options tables = .ok after) :
    ∃ location ∈ after.locations.table.rows, location.slot = (row.id, .migrationSource, row.uri) := by
  obtain ⟨-, -, stored, metadata, -, -, inserted⟩ := copyArtifactToBackend_stored done
  obtain ⟨source, present, slot⟩ : ∃ location ∈
      (upsertArtifactLocation row .migrationSource row.stored none retained tables.locations).table.rows,
      location.slot = (row.id, .migrationSource, row.uri) := upsert_slot
  rw [inserted]
  obtain ⟨last, member, same⟩ := upsert_slotsKept source present (congrArg (·.1) slot)
  exact ⟨last, member, same.trans slot⟩

/-- A location is activated with accepted options exactly under a condition, in whatever order the server visits the
locations. -/
def ActivatesIff (artifactID : ID) (record : ProjectRow) (tables : ArtifactTables) (location : LocationRow)
    (condition : Prop) : Prop :=
  ∀ later scan activation, activation.Valid later → activation.targetLocationID = location.id →
    ((∃ last, activateArtifactLocation later record scan artifactID activation tables = .ok last) ↔ condition)

/-- A fresh copy of an artifact can be promoted exactly if there is no primary location: the source that the copy retains
collides with one. -/
theorem copied_promotes_iff (placed : Placed artifactID start state row) {activation : ActivateArtifactOptions}
    {scan : ID → Nat} (done : copyArtifactToBackend host now record row options state.tables = .ok after)
    (home : Home artifactID record.id row after.locations) (stored : location ∈ after.locations.table.rows)
    (own : location.artifactID = artifactID) (role : location.role = .migrationCandidate)
    (named : location.id = activation.targetLocationID) :
    (∃ promoted, after.locations.promotion scan record.id artifactID activation = some promoted) ↔
      Unmoved artifactID state.tables := by
  obtain ⟨-, kept, uri, retained, copied⟩ := copyArtifactToBackend_ok done
  constructor
  · intro promotes primary present owner isPrimary
    obtain ⟨-, place, -, -⟩ := placed.home.primary primary present owner isPrimary
    obtain ⟨first, member, same, -⟩ := retained.kept primary present
    obtain ⟨last, there, equal, -⟩ := copied.kept first member
    have slot : last.slot = primary.slot := equal.trans same
    have lastRole : last.role = .primary := (congrArg (·.2.1) slot).trans isPrimary
    obtain ⟨source, held, known⟩ := copied_source done
    refine not_promotes_of_collides ?_ (fun row => home.project row) stored named promotes
    refine ⟨last, there, source, held, (congrArg (·.1) slot).trans owner,
      (congrArg (·.1) known).trans (artifact_id placed.found), lastRole, congrArg (·.2.1) known,
      ((congrArg (·.2.2) slot).trans place).trans (congrArg (·.2.2) known).symm, ?_⟩
    rintro rfl
    cases lastRole.symm.trans role
  · intro unmoved
    have without : ∀ other ∈ after.locations.table.rows, other.artifactID = artifactID → other.role ≠ .primary := by
      intro other present owner isPrimary
      exact unmoved other (retained.primary (by decide) (copied.primary (by decide) present isPrimary) isPrimary) owner
        isPrimary
    refine promotes_of_clear ?_ stored own ?_ named
    · rintro ⟨first, present, -, -, owner, -, isPrimary, -⟩
      exact without first present owner isPrimary
    · exact fun other present owner isPrimary => absurd isPrimary (without other present owner)

/-- The location that a fresh copy returns can be activated exactly if the artifact is described and has not moved yet. -/
theorem forward_iff (placed : Placed artifactID start state row) (faithful : host.Faithful)
    (project : row.projectID = record.id)
    (done : copyArtifactToBackend host now record row options state.tables = .ok after) :
    ∃ location, copiedLocation host record row options after = some location ∧
      ActivatesIff artifactID record after location (Described host row ∧ Unmoved artifactID state.tables) := by
  have named := artifact_id placed.found
  obtain ⟨positive, known, stored, metadata, copied, artifacts, inserted⟩ := copyArtifactToBackend_stored done
  obtain ⟨location, present, slot, hash, size, verified⟩ : ∃ location ∈ after.locations.table.rows,
      location.slot = (row.id, .migrationCandidate, stored.uri) ∧ location.sha256 = stored.sha256 ∧
      location.sizeBytes = stored.sizeBytes ∧ (some now ≠ none → location.verifiedAt ≠ none) := by
    rw [inserted]
    exact upsertArtifactLocation_find
  obtain ⟨same, read⟩ := (placed.toSettled.read placed.found).settled
  obtain rfl : row = same := Option.some.inj (placed.found.symm.trans read.found)
  have reading : Placed artifactID start { state with readings := state.readings ++ [row] } row :=
    { read with sound := placed.sound }
  have sound := (reading.copied (List.mem_append_right _ List.mem_cons_self) done).1
  obtain ⟨last, settled⟩ := (read.copied (List.mem_append_right _ List.mem_cons_self) done).settled
  have found := (artifact_congr artifacts).trans placed.found
  obtain rfl : row = last := Option.some.inj (found.symm.trans settled.found)
  have owner : location.artifactID = artifactID := (congrArg (·.1) slot).trans named
  refine ⟨location, ?_, fun later scan activation valid chosen => ?_⟩
  · unfold copiedLocation
    rw [copied]
    dsimp only
    rw [← slot]
    exact find_of_mem present
  · have home : Home artifactID record.id row after.locations := by
      rw [← project, placed.project]
      exact settled.home
    rw [activates_iff valid found project home present owner chosen.symm
      ⟨positive, named ▸ known, (sound location present owner).1⟩,
      copied_promotes_iff placed done home present owner (congrArg (·.2.1) slot) chosen.symm, ← copied_same_iff faithful copied, hash, size]
    exact ⟨fun ⟨_, sameHash, sameSize, unmoved⟩ => ⟨⟨sameHash, sameSize⟩, unmoved⟩,
      fun ⟨⟨sameHash, sameSize⟩, unmoved⟩ => ⟨verified (Option.some_ne_none now), sameHash, sameSize, unmoved⟩⟩

/-- The source of a place that was left can be activated exactly if it is verified and there is no source in the present
place. -/
theorem back_iff (placed : Placed artifactID start state row) {uri : GoString}
    (left : Left artifactID uri state.tables.locations) (project : row.projectID = record.id)
    (positive : 0 < record.id ∧ 0 < artifactID) :
    ∃ location, state.tables.locations.find (artifactID, .migrationSource, uri) = some location ∧
      ActivatesIff artifactID record state.tables location
        (location.verifiedAt ≠ none ∧ state.tables.locations.find (artifactID, .migrationSource, row.uri) = none) := by
  obtain ⟨⟨primary, stored, also, isPrimary⟩, location, present, slot⟩ := left
  have owner : location.artifactID = artifactID := congrArg (·.1) slot
  have role : location.role = .migrationSource := congrArg (·.2.1) slot
  obtain ⟨positiveID, known⟩ := placed.sound location present owner
  obtain ⟨hash, size⟩ := known role
  have home : Home artifactID record.id row state.tables.locations := by
    rw [← project, placed.project]
    exact placed.home
  refine ⟨location, slot ▸ find_of_mem present, fun later scan activation valid chosen => ?_⟩
  have promotes : (∃ promoted, state.tables.locations.promotion scan record.id artifactID activation = some promoted) ↔
      state.tables.locations.find (artifactID, .migrationSource, row.uri) = none := by
    constructor
    · intro promotes
      by_contra taken
      obtain ⟨other, found⟩ := Option.ne_none_iff_exists'.mp taken
      obtain ⟨there, otherSlot⟩ := find_slot found
      obtain ⟨-, place, -, -⟩ := home.primary primary stored also isPrimary
      refine not_promotes_of_collides ?_ (fun row => home.project row) present chosen.symm promotes
      refine ⟨primary, stored, other, there, also, congrArg (·.1) otherSlot, isPrimary, congrArg (·.2.1) otherSlot,
        place.trans (congrArg (·.2.2) otherSlot).symm, ?_⟩
      rintro rfl
      cases isPrimary.symm.trans role
    · intro free
      have unheld : ∀ second ∈ state.tables.locations.table.rows, second.artifactID = artifactID →
          second.role = .migrationSource → second.uri ≠ row.uri := by
        intro second held secondOwner secondRole place
        have secondSlot : second.slot = (artifactID, .migrationSource, row.uri) := by
          rw [LocationRow.slot, secondOwner, secondRole, place]
        rw [← secondSlot, find_of_mem held] at free
        cases free
      refine promotes_of_clear ?_ present owner ?_ chosen.symm
      · rintro ⟨first, there, second, held, firstOwner, secondOwner, firstRole, secondRole, places, -⟩
        obtain ⟨-, firstPlace, -, -⟩ := home.primary first there firstOwner firstRole
        exact unheld second held secondOwner secondRole (places.symm.trans firstPlace)
      · intro other there otherOwner otherRole place
        obtain ⟨-, otherPlace, -, -⟩ := home.primary other there otherOwner otherRole
        exact absurd (place.symm.trans otherPlace) (unheld location present owner role)
  rw [activates_iff valid placed.found project home present owner chosen.symm ⟨positive.1, positive.2, positiveID⟩, promotes,
    hash, size, placed.hash, placed.size]
  exact ⟨fun ⟨verified, _, _, free⟩ => ⟨verified, free⟩, fun ⟨verified, free⟩ => ⟨verified, rfl, rfl, free⟩⟩

/-- In every state of every journey, a fresh copy can be activated exactly if its artifact is described and has no primary
location yet; and the source of the place that an artifact has left can be activated exactly if it is verified and there is
no source in the present place. The order in which the server visits the locations does not matter. -/
theorem migration_forward_back_iff (events : List MigrationEvent) (found : tables.artifact artifactID = some start)
    (none : ∀ location ∈ tables.locations.table.rows, location.artifactID ≠ artifactID) :
    ∃ row, (travel tables events).state.tables.artifact artifactID = some row ∧
      (∀ host now record options after, host.Faithful → row.projectID = record.id →
        copyArtifactToBackend host now record row options (travel tables events).state.tables = .ok after →
        ∃ location, copiedLocation host record row options after = some location ∧
          ActivatesIff artifactID record after location
            (Described host row ∧ Unmoved artifactID (travel tables events).state.tables)) ∧
      ∀ uri record, (travel tables events).left artifactID = some uri → row.projectID = record.id →
        0 < record.id ∧ 0 < artifactID →
        ∃ location, (travel tables events).state.tables.locations.find (artifactID, .migrationSource, uri) = some location ∧
          ActivatesIff artifactID record (travel tables events).state.tables location
            (location.verifiedAt ≠ Option.none ∧
              (travel tables events).state.tables.locations.find (artifactID, .migrationSource, row.uri) = Option.none) := by
  obtain ⟨⟨row, placed⟩, left⟩ := (Travelled.initial found none).run events
  refine ⟨row, placed.found, ?_, ?_⟩
  · exact fun host now record options after faithful project done => forward_iff placed faithful project done
  · exact fun uri record known project positive => back_iff placed (left uri known) project positive

end Main

section Rounds

theorem shortHost_faithful : shortHost.Faithful where
  reports := by
    rintro backend root path content contentType stored ⟨⟩
    exact ⟨rfl, rfl⟩
  hashed := Json.digest_ne_nil

/-- This is an activation of a location of the short artifact until two seconds. -/
def shortActivation (location : ID) : ActivateArtifactOptions :=
  { targetLocationID := location, observationUntil := 2000000000, actor := bytes "a", reason := bytes "r" }

theorem shortActivation_valid (location : ID) : (shortActivation location).Valid 0 where
  actor := show trimSpace (bytes "a") ≠ [] by decide
  reason := show trimSpace (bytes "r") ≠ [] by decide
  future := show 0 < 2000000000 by decide

/-- The first copy of an artifact can be activated. -/
theorem firstCopy_activates :
    shortHost.Faithful ∧ shortTables.artifact 1 = some shortArtifact ∧
      ∃ after location last, copyArtifactToBackend shortHost 0 shortProject shortArtifact shortCopy shortTables = .ok after ∧
        copiedLocation shortHost shortProject shortArtifact shortCopy after = some location ∧
        activateArtifactLocation 0 shortProject Int.toNat 1 (shortActivation location.id) after = .ok last := by
  have found : shortTables.artifact 1 = some shortArtifact := by decide
  obtain ⟨after, done⟩ : ∃ after,
      copyArtifactToBackend shortHost 0 shortProject shortArtifact shortCopy shortTables = .ok after := ⟨_, rfl⟩
  obtain ⟨row, same, forward, -⟩ := migration_forward_back_iff [] found (by decide)
  obtain rfl : shortArtifact = row := Option.some.inj (found.symm.trans same)
  obtain ⟨location, returned, activates⟩ := forward shortHost 0 shortProject shortCopy after shortHost_faithful rfl done
  have unmoved : Unmoved 1 shortTables := fun _ member => nomatch member
  obtain ⟨last, moved⟩ := (activates 0 Int.toNat (shortActivation location.id) (shortActivation_valid _) rfl).mpr
    ⟨⟨by decide, Or.inl (by decide)⟩, unmoved⟩
  exact ⟨shortHost_faithful, found, after, location, last, done, returned, moved⟩

/-- This is the short artifact after its first round. -/
def firstRound : Journey := travel shortTables (moveUntil 2000000000)

/-- This is the short artifact after a copy in its second round. -/
def secondCopy : Journey :=
  Run.final journeyStep firstRound [.read 1, .copy shortHost 0 shortProject 1 shortCopy]

/-- After its first round an artifact cannot move back, and after a second copy it cannot move on. -/
theorem secondRound_stuck :
    firstRound.left 1 = some (bytes "a") ∧
      (firstRound.state.tables.locations.find (1, .migrationSource, bytes "a")).map (·.id) = some 1 ∧
      activateArtifactLocation 0 shortProject Int.toNat 1 (shortActivation 1) firstRound.state.tables =
        .error (bytes "target artifact location is not verified against source metadata") ∧
      (secondCopy.state.tables.locations.find (1, .migrationCandidate, bytes "b")).map (·.id) = some 4 ∧
      activateArtifactLocation 0 shortProject Int.toNat 1 (shortActivation 4) secondCopy.state.tables =
        .error (bytes "promote artifact location: duplicate key value violates unique constraint") := by
  decide +kernel

end Rounds

end AreaFlow.Project
