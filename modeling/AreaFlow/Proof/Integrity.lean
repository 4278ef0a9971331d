import AreaFlow.Proof.Reversal

namespace AreaFlow.Project
open Go

section Checks

variable {host : MigrationHost} {row : ArtifactRow} {content : GoString}

/-- The bytes in the place of a row can be read. -/
structure Reachable (host : MigrationHost) (row : ArtifactRow) (content : GoString) : Prop where
  backend : row.storageBackend = bytes "local" ∨ row.storageBackend = bytes "s3" ∨ row.storageBackend = bytes "object"
  address : trimSpace row.uri ≠ []
  read : host.readConfigured row.storageBackend row.uri = .ok content

/-- The bytes in the place of a row are those that the row describes. -/
structure Intact (host : MigrationHost) (row : ArtifactRow) (content : GoString) : Prop where
  reachable : Reachable host row content
  hash : host.sha256Hex content = row.sha256
  size : row.sizeBytes = 0 ∨ row.sizeBytes = content.length

/-- A read that succeeds has compared the hash. -/
theorem readArtifactRecordContent_hash {contentType : GoString} (hashed : row.sha256 ≠ [])
    (read : readArtifactRecordContent host row = .ok (content, contentType)) : host.sha256Hex content = row.sha256 := by
  unfold readArtifactRecordContent at read
  split at read
  · cases read
  split at read
  · cases read
  obtain ⟨found, -, read⟩ := Except.bind_ok read
  split at read
  · cases read
  rename_i same
  split at read
  · cases read
  cases read
  by_contra other
  exact same ⟨hashed, Ne.symm other⟩

theorem Intact.read (intact : Intact host row content) : ∃ answer, readArtifactRecordContent host row = .ok answer := by
  have backend : ¬ (row.storageBackend ≠ bytes "local" ∧ row.storageBackend ≠ bytes "s3" ∧
      row.storageBackend ≠ bytes "object") := by
    have known := intact.reachable.backend
    tauto
  have sized : ¬ (0 < row.sizeBytes ∧ row.sizeBytes ≠ content.length) := by
    have size := intact.size
    omega
  have hashed : ¬ (row.sha256 ≠ [] ∧ row.sha256 ≠ host.sha256Hex content) := by
    simp [intact.hash]
  unfold readArtifactRecordContent
  rw [if_neg backend, if_neg intact.reachable.address, intact.reachable.read]
  exact ⟨_, (if_neg hashed).trans (if_neg sized)⟩

/-- A location with the hash of the artifact is read with that hash. -/
def SameContent (start : ArtifactRow) (location : LocationRow) : Prop :=
  location.sha256 = start.sha256 ∧ (start.sizeBytes = 0 ∨ location.sizeBytes = start.sizeBytes)

/-- Every content that the loop returns has been compared with the hash of the artifact. -/
theorem readFallbacks_hash {hosts : Nat → MigrationHost} {sha256Hex : GoString → GoString} {start : ArtifactRow}
    {moment : Nat} {failure contentType : GoString} {locations : List LocationRow}
    (hashes : ∀ moment, (hosts moment).sha256Hex = sha256Hex) (hashed : start.sha256 ≠ [])
    (same : ∀ location ∈ locations, SameContent start location)
    (read : readFallbacks hosts row moment failure locations = .ok (content, contentType)) :
    sha256Hex content = start.sha256 := by
  induction locations generalizing moment failure with
  | nil => cases read
  | cons location rest ih =>
      have later : ∀ location ∈ rest, SameContent start location := fun other member => same other (List.mem_cons_of_mem _ member)
      have first := (same location List.mem_cons_self).1
      rw [readFallbacks] at read
      split at read
      · exact ih later read
      · split at read
        · rename_i answer found
          cases read
          have own : (row.readAt location).sha256 ≠ [] := fun empty => hashed (first.symm.trans empty)
          have compared := readArtifactRecordContent_hash own found
          rw [hashes] at compared
          exact compared.trans first
        · exact ih later read

/-- The loop returns a content if the bytes of one of the locations that it tries are intact. -/
theorem readFallbacks_ok {hosts : Nat → MigrationHost} {moment : Nat} {failure : GoString} {locations : List LocationRow}
    {location : LocationRow} (member : location ∈ locations) (tried : row.passesOver location = false)
    (intact : ∀ moment, Intact (hosts moment) (row.readAt location) content) :
    ∃ answer, readFallbacks hosts row moment failure locations = .ok answer := by
  induction locations generalizing moment failure with
  | nil => cases member
  | cons first rest ih =>
      rw [readFallbacks]
      rcases List.mem_cons.mp member with rfl | later
      · obtain ⟨answer, read⟩ := (intact moment).read
        simp [tried, read]
      · split
        · exact ih later
        · split
          · exact ⟨_, rfl⟩
          · exact ih later

end Checks

section Runs

variable {artifactID : ID} {start : ArtifactRow} {state : MigrationState}

/-- The row of an artifact, the rows that copies have read, and its locations all have the hash of its start. -/
structure Hashed (artifactID : ID) (start : ArtifactRow) (state : MigrationState) : Prop where
  row : ∀ row, state.tables.artifact artifactID = some row → row.sha256 = start.sha256 ∧ row.sizeBytes = start.sizeBytes
  readings : ∀ reading ∈ state.readings, reading.id = artifactID →
    reading.sha256 = start.sha256 ∧ reading.sizeBytes = start.sizeBytes
  locations : ∀ location ∈ state.tables.locations.table.rows, location.artifactID = artifactID → SameContent start location

/-- The locations of one state are carried to a later one: no location is lost or moved, and a location of the artifact has
an old content or the content of the artifact. -/
structure Carried (artifactID : ID) (start : ArtifactRow) (before after : Locations) : Prop where
  kept : ∀ old ∈ before.table.rows, ∃ row ∈ after.table.rows, row.id = old.id ∧ row.artifactID = old.artifactID ∧
    row.storageBackend = old.storageBackend ∧ row.uri = old.uri
  new : ∀ row ∈ after.table.rows, (∃ old ∈ before.table.rows, row.artifactID = old.artifactID ∧ row.sha256 = old.sha256 ∧
    row.sizeBytes = old.sizeBytes) ∨ (row.artifactID = artifactID → SameContent start row)

namespace Carried

variable {before middle after : Locations}

theorem refl (locations : Locations) : Carried artifactID start locations locations where
  kept := fun old present => ⟨old, present, rfl, rfl, rfl, rfl⟩
  new := fun row member => Or.inl ⟨row, member, rfl, rfl, rfl⟩

theorem trans (first : Carried artifactID start before middle) (second : Carried artifactID start middle after) :
    Carried artifactID start before after where
  kept := by
    intro old present
    obtain ⟨between, there, id, owner, backend, uri⟩ := first.kept old present
    obtain ⟨row, member, laterID, laterOwner, laterBackend, laterURI⟩ := second.kept between there
    exact ⟨row, member, laterID.trans id, laterOwner.trans owner, laterBackend.trans backend, laterURI.trans uri⟩
  new := by
    intro row member
    rcases second.new row member with ⟨between, there, owner, hash, size⟩ | fresh
    · rcases first.new between there with ⟨old, present, oldOwner, oldHash, oldSize⟩ | fresh
      · exact Or.inl ⟨old, present, owner.trans oldOwner, hash.trans oldHash, size.trans oldSize⟩
      · refine Or.inr fun own => ?_
        have same := fresh (owner.symm.trans own)
        exact ⟨hash.trans same.1, same.2.imp id size.trans⟩
    · exact Or.inr fresh

/-- All locations of the artifact have its content if they had it before. -/
theorem same (carried : Carried artifactID start before after)
    (old : ∀ location ∈ before.table.rows, location.artifactID = artifactID → SameContent start location) :
    ∀ location ∈ after.table.rows, location.artifactID = artifactID → SameContent start location := by
  intro location member own
  rcases carried.new location member with ⟨earlier, present, owner, hash, size⟩ | fresh
  · have content := old earlier present (owner.symm.trans own)
    exact ⟨hash.trans content.1, content.2.imp id size.trans⟩
  · exact fresh own

/-- An update that changes neither the place nor the content of a location carries all locations. -/
theorem of_update {chosen : LocationRow → Bool} {change : Table.Change LocationRow (·.id)}
    (changed : after.table = before.table.update chosen change)
    (keeps : ∀ row, (change.apply row).artifactID = row.artifactID ∧ (change.apply row).storageBackend = row.storageBackend ∧
      (change.apply row).uri = row.uri ∧ (change.apply row).sha256 = row.sha256 ∧
      (change.apply row).sizeBytes = row.sizeBytes) : Carried artifactID start before after where
  kept := by
    intro old present
    rw [changed]
    refine ⟨_, Table.mem_update.mpr ⟨old, present, rfl⟩, ?_⟩
    split
    · exact ⟨change.keeps old, (keeps old).1, (keeps old).2.1, (keeps old).2.2.1⟩
    · exact ⟨rfl, rfl, rfl, rfl⟩
  new := by
    intro row member
    rw [changed] at member
    obtain ⟨old, present, same⟩ := Table.mem_update.mp member
    refine Or.inl ⟨old, present, ?_⟩
    rw [same]
    split
    · exact ⟨(keeps old).1, (keeps old).2.2.2⟩
    · exact ⟨rfl, rfl, rfl⟩

/-- An insert of a location with the content of the artifact carries all locations. -/
theorem of_upsert {new : Table.New LocationRow (·.id)} {change : Table.Change LocationRow (·.id)}
    {keeps : ∀ row, (change.apply row).slot = row.slot}
    (place : ∀ row, (change.apply row).storageBackend = row.storageBackend)
    (content : ∀ row, ((change.apply row).sha256 = row.sha256 ∧ (change.apply row).sizeBytes = row.sizeBytes) ∨
      ((change.apply row).sha256 = (before.table.next new).sha256 ∧
        (change.apply row).sizeBytes = (before.table.next new).sizeBytes))
    (fresh : (before.table.next new).artifactID = artifactID → SameContent start (before.table.next new)) :
    Carried artifactID start before (before.upsert new change keeps) where
  kept := by
    intro old present
    unfold Locations.upsert
    split
    · refine ⟨_, Table.mem_update.mpr ⟨old, present, rfl⟩, ?_⟩
      split
      · exact ⟨change.keeps old, congrArg (·.1) (keeps old), place old, congrArg (·.2.2) (keeps old)⟩
      · exact ⟨rfl, rfl, rfl, rfl⟩
    · exact ⟨old, Table.mem_insert_of_mem present, rfl, rfl, rfl, rfl⟩
  new := by
    intro row member
    rcases mem_upsert member with old | rfl | ⟨old, present, rfl, slot⟩
    · exact Or.inl ⟨row, old, rfl, rfl, rfl⟩
    · exact Or.inr fresh
    · have owner : (change.apply old).artifactID = old.artifactID := congrArg (·.1) (keeps old)
      rcases content old with ⟨hash, size⟩ | ⟨hash, size⟩
      · exact Or.inl ⟨old, present, owner, hash, size⟩
      · refine Or.inr fun own => ?_
        have new := fresh ((congrArg (·.1) slot).symm.trans (owner.symm.trans own))
        exact ⟨hash.trans new.1, new.2.imp id size.trans⟩

end Carried

/-- A state and a later one: the artifact still has its hash, and its locations are carried. -/
structure Checked (artifactID : ID) (start : ArtifactRow) (state after : MigrationState) : Prop where
  hashed : Hashed artifactID start after
  carried : Carried artifactID start state.tables.locations after.tables.locations

theorem Hashed.stays (hashed : Hashed artifactID start state) : Checked artifactID start state state :=
  ⟨hashed, Carried.refl _⟩

theorem Checked.trans {middle after : MigrationState} (first : Checked artifactID start state middle)
    (second : Checked artifactID start middle after) : Checked artifactID start state after :=
  ⟨second.hashed, first.carried.trans second.carried⟩

/-- The rows of artifacts are changed without their hashes and their sizes. -/
theorem Hashed.rows {tables : ArtifactTables} {projectID changed : ID} {change : Table.Change ArtifactRow (·.id)}
    (hashed : Hashed artifactID start state)
    (artifacts : tables.artifacts = (state.tables.updateArtifact projectID changed change).artifacts)
    (keeps : ∀ row, state.tables.artifact artifactID = some row → changed = artifactID →
      (change.apply row).sha256 = row.sha256 ∧ (change.apply row).sizeBytes = row.sizeBytes) :
    ∀ row, tables.artifact artifactID = some row → row.sha256 = start.sha256 ∧ row.sizeBytes = start.sizeBytes := by
  intro row found
  rw [artifact_congr artifacts, artifact_update] at found
  obtain ⟨old, present, same⟩ := Option.map_eq_some_iff.mp found
  have before := hashed.row old present
  rw [← same]
  split
  · rename_i chosen
    simp only [Bool.and_eq_true, beq_iff_eq] at chosen
    have kept := keeps old present (chosen.2.symm.trans (artifact_id present))
    exact ⟨kept.1.trans before.1, kept.2.trans before.2⟩
  · exact before

theorem Hashed.copied {tables : ArtifactTables} {host : MigrationHost} {now : Time} {record : ProjectRow}
    {source : ArtifactRow} {options : CopyArtifactOptions} (known : start.sha256 ≠ [])
    (hashed : Hashed artifactID start state) (taken : source ∈ state.readings)
    (done : copyArtifactToBackend host now record source options state.tables = .ok tables) :
    Checked artifactID start state { state with tables := tables } := by
  obtain ⟨-, -, stored, metadata, copied, artifacts, locations⟩ := copyArtifactToBackend_stored done
  obtain ⟨-, -, -, -, -, -, -, sameHash, sameSize⟩ := copyContent_ok copied
  have kept : Carried artifactID start state.tables.locations
      (upsertArtifactLocation source .migrationSource source.stored none retained state.tables.locations) := by
    apply Carried.of_upsert (fun _ => rfl) (fun _ => Or.inr ⟨rfl, rfl⟩)
    intro own
    obtain ⟨hash, size⟩ := hashed.readings source taken own
    exact ⟨hash, Or.inr size⟩
  have carried : Carried artifactID start state.tables.locations tables.locations := by
    rw [locations]
    apply kept.trans
    apply Carried.of_upsert (fun _ => rfl) (fun _ => Or.inr ⟨rfl, rfl⟩)
    intro own
    obtain ⟨hash, size⟩ := hashed.readings source taken own
    refine ⟨(sameHash (hash ▸ known)).symm.trans hash, ?_⟩
    rw [← size]
    exact (Nat.eq_zero_or_pos source.sizeBytes).imp id fun positive => (sameSize positive).symm
  refine ⟨?_, carried⟩
  exact {
    row := fun row found => hashed.row row ((artifact_congr artifacts).symm.trans found)
    readings := hashed.readings
    locations := carried.same hashed.locations }

theorem Hashed.activated {tables : ArtifactTables} {now : Time} {record : ProjectRow} {scan : ID → Nat} {moved : ID}
    {options : ActivateArtifactOptions} {deadlines : List (ID × Time)} (hashed : Hashed artifactID start state)
    (done : activateArtifactLocation now record scan moved options state.tables = .ok tables) :
    Checked artifactID start state { state with tables := tables, deadlines := deadlines } := by
  obtain ⟨source, target, promoted, found, project, named, present, owner, -, sameHash, sameSize, changed, locations,
    artifacts⟩ := activateArtifactLocation_moved done
  have carried : Carried artifactID start state.tables.locations tables.locations := by
    have promotion : Carried artifactID start state.tables.locations promoted :=
      Carried.of_update (changeRoles_ok changed) fun _ => ⟨rfl, rfl, rfl, rfl, rfl⟩
    rw [locations]
    apply promotion.trans
    apply Carried.of_upsert (fun _ => rfl) (fun _ => Or.inl ⟨rfl, rfl⟩)
    intro own
    have same : source.id = artifactID := own
    obtain ⟨hash, size⟩ := hashed.row source (same ▸ named ▸ found)
    exact ⟨hash, Or.inr size⟩
  refine ⟨?_, carried⟩
  refine { row := ?_, readings := hashed.readings, locations := carried.same hashed.locations }
  apply hashed.rows artifacts
  intro row there own
  subst own
  obtain rfl : source = row := Option.some.inj (found.symm.trans there)
  exact ⟨sameHash, sameSize⟩

theorem Hashed.completed {tables : ArtifactTables} {now : Time} {record : ProjectRow} {observed : ID}
    {options : CompleteArtifactObservationOptions} (hashed : Hashed artifactID start state)
    (done : completeArtifactObservation now record observed options state.tables = .ok tables) :
    Checked artifactID start state { state with tables := tables } := by
  rcases completeArtifactObservation_ok done with rfl | ⟨_, _, _, _, _, _, _, _, _, _, artifacts, chosen, locations⟩
  · exact hashed.stays
  · have carried : Carried artifactID start state.tables.locations tables.locations := by
      rw [locations]
      exact Carried.of_update rfl fun _ => ⟨rfl, rfl, rfl, rfl, rfl⟩
    refine ⟨?_, carried⟩
    exact {
      row := hashed.rows artifacts fun _ _ _ => ⟨rfl, rfl⟩
      readings := hashed.readings
      locations := carried.same hashed.locations }

theorem Hashed.step (known : start.sha256 ≠ []) (hashed : Hashed artifactID start state) (event : MigrationEvent) :
    Checked artifactID start state (migrationStep state event).1 := by
  refine migrationStep_cases (motive := fun _ stepped => Checked artifactID start state stepped.1) ?_ ?_ ?_ ?_ ?_ event
  · exact fun _ _ => hashed.stays
  · intro readID row found
    refine ⟨{ hashed with readings := ?_ }, Carried.refl _⟩
    intro reading member own
    rcases List.mem_append.mp member with old | new
    · exact hashed.readings reading old own
    · obtain rfl := List.mem_singleton.mp new
      have same : readID = artifactID := (artifact_id found).symm.trans own
      exact hashed.row reading (same ▸ found)
  · exact fun _ _ _ _ _ _ _ taken done => hashed.copied known (List.mem_of_getElem? taken) done
  · exact fun _ _ _ _ _ _ done => hashed.activated done
  · exact fun _ _ _ _ _ done => hashed.completed done

theorem Hashed.run (known : start.sha256 ≠ []) (hashed : Hashed artifactID start state) (events : List MigrationEvent) :
    Checked artifactID start state (Run.final migrationStep state events) := by
  induction events generalizing state with
  | nil => exact hashed.stays
  | cons event rest ih =>
      have one := hashed.step known event
      exact one.trans (ih one.hashed)

theorem mem_listed {tables : ArtifactTables} {location : LocationRow} :
    location ∈ artifactReadLocations tables artifactID ↔
      location ∈ tables.locations.table.rows ∧ location.artifactID = artifactID := by
  simp [artifactReadLocations]

/-- A location in the place of the row itself is intact only if the row is. -/
theorem Intact.same_place {host : MigrationHost} {row : ArtifactRow} {location : LocationRow} {content : GoString}
    (intact : Intact host (row.readAt location) content) (backend : location.storageBackend = row.storageBackend)
    (uri : location.uri = row.uri) (hash : row.sha256 = location.sha256)
    (size : row.sizeBytes = 0 ∨ location.sizeBytes = row.sizeBytes) : Intact host row content where
  reachable := {
    backend := backend ▸ intact.reachable.backend
    address := uri ▸ intact.reachable.address
    read := backend ▸ uri ▸ intact.reachable.read }
  hash := intact.hash.trans hash.symm
  size := size.elim Or.inl fun same => same ▸ intact.size

variable {hosts : Nat → MigrationHost} {row : ArtifactRow} {content : GoString} {locations : List LocationRow}

theorem getArtifactContent_hash {sha256Hex : GoString → GoString} {contentType : GoString}
    (hashes : ∀ moment, (hosts moment).sha256Hex = sha256Hex) (known : start.sha256 ≠ []) (own : row.sha256 = start.sha256)
    (same : ∀ location ∈ locations, SameContent start location)
    (read : getArtifactContent hosts row locations = .ok (content, contentType)) : sha256Hex content = start.sha256 := by
  unfold getArtifactContent at read
  split at read
  · rename_i found
    cases read
    have compared := readArtifactRecordContent_hash (own ▸ known) found
    rw [hashes] at compared
    exact compared.trans own
  · exact readFallbacks_hash hashes known same read

/-- An observed artifact is read if the bytes in its place or in one of its locations are intact. -/
theorem getArtifactContent_ok (observing : row.observing = true) (own : row.sha256 = start.sha256)
    (ownSize : row.sizeBytes = start.sizeBytes) (same : ∀ location ∈ locations, SameContent start location)
    (intact : (∀ moment, Intact (hosts moment) row content) ∨
      ∃ location ∈ locations, ∀ moment, Intact (hosts moment) (row.readAt location) content) :
    ∃ answer, getArtifactContent hosts row locations = .ok answer := by
  have primary (whole : Intact (hosts 0) row content) : ∃ answer, getArtifactContent hosts row locations = .ok answer := by
    obtain ⟨answer, read⟩ := whole.read
    exact ⟨answer, by rw [getArtifactContent, read]⟩
  rcases intact with whole | ⟨location, member, whole⟩
  · exact primary (whole 0)
  · cases tried : row.passesOver location with
    | false =>
        unfold getArtifactContent
        split
        · exact ⟨_, rfl⟩
        · exact readFallbacks_ok member tried whole
    | true =>
        simp only [ArtifactRow.passesOver, observing, Bool.not_true, Bool.and_false, Bool.or_false, Bool.and_eq_true,
          beq_iff_eq] at tried
        obtain ⟨hash, size⟩ := same location member
        exact primary ((whole 0).same_place tried.1 tried.2 (own.trans hash.symm)
          (by rw [ownSize]; exact size))

/-- In every run the content that an artifact is read with has been compared with the hash of the artifact, wherever it was
read from; an observed artifact is read as long as one of its places is intact; and no place is ever lost. The row of the
artifact and its locations may be read at different moments, and so may the contents. -/
theorem artifactReads_checked {tables : ArtifactTables} {sha256Hex : GoString → GoString}
    (found : tables.artifact artifactID = some start)
    (none : ∀ location ∈ tables.locations.table.rows, location.artifactID ≠ artifactID) (known : start.sha256 ≠ [])
    (events more : List MigrationEvent) (hashes : ∀ moment, (hosts moment).sha256Hex = sha256Hex)
    (present : (Run.final migrationStep { tables := tables } events).tables.artifact artifactID = some row)
    (listed : locations =
      artifactReadLocations (Run.final migrationStep { tables := tables } (events ++ more)).tables artifactID) :
    (∀ content contentType, getArtifactContent hosts row locations = .ok (content, contentType) →
      sha256Hex content = start.sha256) ∧
    (row.observing = true → ∀ content, ((∀ moment, Intact (hosts moment) row content) ∨
        ∃ location ∈ locations, ∀ moment, Intact (hosts moment) (row.readAt location) content) →
      ∃ answer, getArtifactContent hosts row locations = .ok answer) ∧
    ∀ before rest, events ++ more = before ++ rest →
      ∀ old ∈ (Run.final migrationStep { tables := tables } before).tables.locations.table.rows,
        old.artifactID = artifactID → ∃ location ∈ locations, location.id = old.id ∧
          location.storageBackend = old.storageBackend ∧ location.uri = old.uri := by
  have initial : Hashed artifactID start { tables := tables } := {
    row := fun row there => by rw [Option.some.inj (there.symm.trans found)]; exact ⟨rfl, rfl⟩
    readings := fun _ member => absurd member List.not_mem_nil
    locations := fun location member own => absurd own (none location member) }
  obtain ⟨ownHash, ownSize⟩ := (initial.run known events).hashed.row row present
  have later := (initial.run known (events ++ more)).hashed
  have same : ∀ location ∈ locations, SameContent start location := by
    intro location member
    rw [listed, mem_listed] at member
    exact later.locations location member.1 member.2
  refine ⟨fun content contentType => getArtifactContent_hash hashes known ownHash same,
    fun observing content => getArtifactContent_ok observing ownHash ownSize same, ?_⟩
  intro before rest split old there owner
  have carried := ((initial.run known before).hashed.run known rest).carried
  rw [← Run.final_append, ← split] at carried
  obtain ⟨location, member, id, sameOwner, backend, uri⟩ := carried.kept old there
  exact ⟨location, listed ▸ mem_listed.mpr ⟨member, sameOwner.trans owner⟩, id, backend, uri⟩

end Runs

/-- This host has lost the content of one place. -/
def lossyHost (lost : GoString) : MigrationHost :=
  { shortHost with
    readConfigured := fun _ uri => if uri = lost then .error (bytes "no such file") else .ok (bytes "ok") }

/-- An artifact that has moved is read from its old place when the new one is lost. -/
theorem lostCopy_fallsBack :
    ∃ row, (Run.final migrationStep { tables := shortTables } (moveUntil 2000000000)).tables.artifact 1 = some row ∧
      row.uri = bytes "b" ∧ ∃ answer, getArtifactContent (fun _ => lossyHost (bytes "b")) row (artifactReadLocations
        (Run.final migrationStep { tables := shortTables } (moveUntil 2000000000 ++ [])).tables 1) = .ok answer := by
  have moved : ∃ row, (Run.final migrationStep { tables := shortTables } (moveUntil 2000000000)).tables.artifact 1 = some row ∧
      row.uri = bytes "b" ∧ row.observing = true := by
    refine ⟨((Run.final migrationStep { tables := shortTables } (moveUntil 2000000000)).tables.artifact 1).getD
      shortArtifact, ?_, ?_, ?_⟩ <;> decide +kernel
  obtain ⟨row, present, place, observing⟩ := moved
  have retained : ∃ location ∈ (Run.final migrationStep { tables := shortTables }
      (moveUntil 2000000000 ++ [])).tables.locations.table.rows, location.artifactID = 1 ∧
        location.storageBackend = bytes "local" ∧ location.uri = bytes "a" ∧ location.sha256 = Json.digest (bytes "ok") ∧
        location.sizeBytes = 2 := by decide +kernel
  obtain ⟨location, stored, owner, backend, uri, hash, size⟩ := retained
  have member := mem_listed.mpr ⟨stored, owner⟩
  have intact : ∀ moment : Nat, Intact (lossyHost (bytes "b")) (row.readAt location) (bytes "ok") := fun _ => {
    reachable := {
      backend := Or.inl backend
      address := by
        show trimSpace location.uri ≠ []
        rw [uri]
        decide
      read := by
        show (if location.uri = bytes "b" then _ else _) = _
        rw [uri]
        rfl }
    hash := hash.symm
    size := Or.inr size }
  refine ⟨row, present, place, ?_⟩
  exact (artifactReads_checked (show shortTables.artifact 1 = some shortArtifact by decide) (by decide) (by decide)
    (moveUntil 2000000000) [] (fun _ => rfl) present rfl).2.1 observing (bytes "ok") (Or.inr ⟨location, member, intact⟩)

end AreaFlow.Project
