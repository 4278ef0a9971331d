import AreaFlow.Construction.Project.Commands
import AreaFlow.Library.Run

namespace AreaFlow.Project
open Go Auth

inductive LocationRole
  | primary
  | migrationCandidate
  | migrationSource
  deriving DecidableEq

/-- This is a place where the content of an artifact is stored. -/
structure LocationRow where
  id : ID
  projectID : ID
  artifactID : ID
  role : LocationRole
  storageBackend : GoString
  uri : GoString
  sha256 : GoString
  sizeBytes : Nat
  contentType : GoString
  verifiedAt : Option Time
  metadata : Metadata
  deriving DecidableEq

/-- The unique index on locations has these columns. -/
def LocationRow.slot (row : LocationRow) : ID × LocationRole × GoString := (row.artifactID, row.role, row.uri)

theorem nodup_noSlots : (([] : List LocationRow).map (·.slot)).Nodup := List.nodup_nil

/-- These are the locations of all artifacts; their slots are unique. -/
structure Locations where
  table : Table LocationRow (·.id) := {}
  unique : (table.rows.map (·.slot)).Nodup := by first | exact nodup_noSlots | decide
  deriving DecidableEq

/-- These are the tables that a migration of artifacts uses. -/
structure ArtifactTables where
  artifacts : Table ArtifactRow (·.id) := {}
  locations : Locations := {}
  audits : List AuditRow := []
  deriving DecidableEq

/-- This record holds what a migration uses of its host: the hash and the configured backends. -/
structure MigrationHost where
  sha256Hex : GoString → GoString
  writeConfigured : GoString → GoString → GoString → GoString → GoString → Except GoString Stored
  readConfigured : GoString → GoString → Except GoString GoString
  lowerText : GoString → GoString
  quote : GoString → GoString

structure CopyArtifactOptions where
  targetBackend : GoString
  targetRoot : GoString
  actor : GoString
  reason : GoString
  deriving DecidableEq

structure ActivateArtifactOptions where
  targetLocationID : ID
  observationUntil : Time
  actor : GoString
  reason : GoString
  deriving DecidableEq

structure CompleteArtifactObservationOptions where
  actor : GoString
  reason : GoString
  deriving DecidableEq

/-- This is one second. -/
def second : Time := 1000000000

/-- The text format of a deadline has whole seconds. -/
def formatRFC3339 (time : Time) : MetaValue := .time (some (time / second * second))

/-- This function reads a text value of the metadata of an artifact. -/
def artifactMetadataString (metadata : Metadata) (key : GoString) : GoString := trimSpace (metadataString metadata key)

def parseRFC3339 (metadata : Metadata) (key : GoString) : Option Time :=
  match metadataGet metadata key with
  | some (.time value) => value
  | _ => none

/-- A row of an artifact is changed without its identifier. -/
abbrev ArtifactTables.updateArtifact (tables : ArtifactTables) (projectID artifactID : ID)
    (change : Table.Change ArtifactRow (·.id)) : ArtifactTables :=
  { tables with
    artifacts := tables.artifacts.update (fun row => row.projectID == projectID && row.id == artifactID) change }

section Rows

/-- A new row is inserted in a free slot. -/
def Locations.insert (locations : Locations) (new : Table.New LocationRow (·.id))
    (free : (locations.table.next new).slot ∉ locations.table.rows.map (·.slot)) : Locations where
  table := locations.table.insert new
  unique := Table.nodup_append_fresh locations.unique free

/-- The rows in a slot are changed without their slots. -/
def Locations.update (locations : Locations) (chosen : LocationRow → Bool) (change : Table.Change LocationRow (·.id))
    (keeps : ∀ row, (change.apply row).slot = row.slot) : Locations where
  table := locations.table.update chosen change
  unique := by
    refine Table.nodup_map ?_ locations.unique
    intro row
    split
    · exact keeps row
    · rfl

/-- An insert changes the row that has its slot already. -/
def Locations.upsert (locations : Locations) (new : Table.New LocationRow (·.id))
    (change : Table.Change LocationRow (·.id)) (keeps : ∀ row, (change.apply row).slot = row.slot) : Locations :=
  if free : (locations.table.next new).slot ∈ locations.table.rows.map (·.slot) then
    locations.update (fun row => row.slot == (locations.table.next new).slot) change keeps
  else locations.insert new free

/-- The update of one row fails if another row has its new slot at that moment. -/
def Locations.changeRow (change : Table.Change LocationRow (·.id)) (locations : Locations) (id : ID) : Option Locations :=
  if unique : ((locations.table.update (·.id == id) change).rows.map (·.slot)).Nodup then
    some { table := locations.table.update (·.id == id) change, unique := unique }
  else none

/-- An update of the roles visits the chosen rows in the order of a scan. The unique index is not deferred, so that it is
checked at each row. -/
def Locations.changeRoles (locations : Locations) (scan : ID → Nat) (chosen : LocationRow → Bool)
    (change : Table.Change LocationRow (·.id)) : Option Locations :=
  (((locations.table.rows.filter chosen).map (·.id)).insertionSort fun first second => scan first ≤ scan second).foldlM
    (Locations.changeRow change) locations

/-- This is the row that a slot holds. -/
def Locations.find (locations : Locations) (slot : ID × LocationRole × GoString) : Option LocationRow :=
  locations.table.rows.find? fun row => row.slot == slot

end Rows

section Operations

variable (host : MigrationHost) (now : Time) (record : ProjectRow)

def normalizedArtifactBackend (value : GoString) : GoString :=
  let value := host.lowerText (trimSpace value)
  if value = bytes "object" then bytes "s3" else value

/-- This function reads the content of an artifact and compares it with the row. -/
def readArtifactRecordContent (row : ArtifactRow) : Except GoString (GoString × GoString) :=
  if row.storageBackend ≠ bytes "local" ∧ row.storageBackend ≠ bytes "s3" ∧ row.storageBackend ≠ bytes "object" then
    .error (bytes "artifact content unavailable: storage backend " ++ host.quote row.storageBackend ++
      bytes " is metadata-only for content API")
  else if trimSpace row.uri = [] then .error (bytes "artifact content unavailable: artifact URI is missing")
  else do
    let content ← (host.readConfigured row.storageBackend row.uri).mapError fun failure =>
      bytes "artifact content unavailable: read artifact: " ++ failure
    if row.sha256 ≠ [] ∧ row.sha256 ≠ host.sha256Hex content then
      .error (bytes "artifact content mismatch: sha256 mismatch")
    else if 0 < row.sizeBytes ∧ row.sizeBytes ≠ content.length then
      .error (bytes "artifact content mismatch: size mismatch")
    else
      let contentType := trimSpace row.contentType
      .ok (content, if contentType = [] then bytes "application/octet-stream" else contentType)

def artifactMigrationRelativePath (source : ArtifactRow) : Except GoString GoString :=
  let named := bytes "artifact-" ++ sprintID source.id
  let path := trimSpace source.sourcePath
  let path := pathClean (if path = [] then named else path)
  if path.head? = some slash ∨ path = bytes "." ∨ hasPrefix path (bytes "../") = true then
    .error (bytes "artifact source path is outside project namespace")
  else .ok (pathJoin [record.projectKey, bytes "migration", named, path])

/-- A copy has the hash and the size of its source; an unknown one is not compared. -/
def verifyMigrated (source : ArtifactRow) (sha256 : GoString) (sizeBytes : Nat) (start : GoString) : Except GoString Unit :=
  if source.sha256 ≠ [] ∧ source.sha256 ≠ sha256 then .error (start ++ bytes " sha256 mismatch")
  else if 0 < source.sizeBytes ∧ source.sizeBytes ≠ sizeBytes then .error (start ++ bytes " size mismatch")
  else .ok ()

/-- This is the part of a copy before its transaction: the content is copied and read back. -/
def copyContent (source : ArtifactRow) (options : CopyArtifactOptions) : Except GoString Stored := do
  if source.projectID ≠ record.id then .error (bytes "artifact not found")
  else
    let content ← readArtifactRecordContent host source
    let relativePath ← artifactMigrationRelativePath record source
    let stored ← (host.writeConfigured (normalizedArtifactBackend host options.targetBackend) options.targetRoot relativePath
      content.1 content.2).mapError fun failure =>
        bytes "copy artifact to " ++ normalizedArtifactBackend host options.targetBackend ++ bytes ": " ++ failure
    verifyMigrated source stored.sha256 stored.sizeBytes (bytes "migrated artifact")
    let verified ← (host.readConfigured stored.backend stored.uri).mapError fun failure =>
      bytes "read back migrated artifact: " ++ failure
    verifyMigrated source (host.sha256Hex verified) verified.length (bytes "migrated artifact readback")
    .ok stored

/-- This operation inserts a location of an artifact or brings the one in its slot up to date. -/
def upsertArtifactLocation (source : ArtifactRow) (role : LocationRole) (stored : Stored) (verifiedAt : Option Time)
    (metadata : Metadata) (locations : Locations) : Locations :=
  locations.upsert
    ⟨fun id =>
      { id := id, projectID := source.projectID, artifactID := source.id, role := role, storageBackend := stored.backend,
        uri := stored.uri, sha256 := stored.sha256, sizeBytes := stored.sizeBytes, contentType := stored.contentType,
        verifiedAt := verifiedAt, metadata := metadata }, fun _ => rfl⟩
    ⟨fun row =>
      { row with
        sha256 := stored.sha256, sizeBytes := stored.sizeBytes, contentType := stored.contentType,
        verifiedAt := verifiedAt.or row.verifiedAt, metadata := setKeys row.metadata metadata }, fun _ => rfl⟩
    fun _ => rfl

/-- An artifact is a location of its own content. -/
def ArtifactRow.stored (row : ArtifactRow) : Stored :=
  { backend := row.storageBackend, uri := row.uri, sha256 := row.sha256, sizeBytes := row.sizeBytes,
    contentType := row.contentType }

def retained : Metadata := [(bytes "status", .text (bytes "retained")), (bytes "delete_allowed", .flag false)]

/-- This is the audit row of a migration. -/
def migrationAudit (projectID : ID) (action : GoString) (artifactID : ID) (actor reason : GoString) (metadata : Metadata) :
    AuditRow where
  projectID := some projectID
  actorID := none
  action := action
  capability := bytes "manage_artifacts"
  resourceType := bytes "artifact"
  resource := sprintID artifactID
  decision := bytes "allowed"
  reason := trimSpace reason
  metadata := fields [metadata, [(bytes "actor", .text (trimSpace actor))]]

/-- This operation copies an artifact. The row of the artifact was read before the transaction. -/
def copyArtifactToBackend (source : ArtifactRow) (options : CopyArtifactOptions) (tables : ArtifactTables) :
    Except GoString ArtifactTables := do
  if record.id ≤ 0 ∨ source.id ≤ 0 then .error (bytes "project id and artifact id are required")
  else if normalizedArtifactBackend host options.targetBackend = [] ∨ trimSpace options.actor = [] ∨
      trimSpace options.reason = [] then
    .error (bytes "target backend, actor and reason are required")
  else
    let stored ← copyContent host record source options
    let kept := upsertArtifactLocation source .migrationSource source.stored none retained tables.locations
    let copied := upsertArtifactLocation source .migrationCandidate stored (some now)
      [(bytes "status", .text (bytes "verified")), (bytes "actor", .text (trimSpace options.actor)),
        (bytes "reason", .text (trimSpace options.reason))] kept
    .ok { tables with
      locations := copied
      audits := appendAudit tables.audits (migrationAudit source.projectID (bytes "artifact.migration.copy") source.id
        options.actor options.reason
        [(bytes "source_backend", .text source.storageBackend), (bytes "source_uri", .text source.uri),
          (bytes "target_backend", .text stored.backend), (bytes "target_uri", .text stored.uri),
          (bytes "target_location_id",
            .number (((copied.find (source.id, .migrationCandidate, stored.uri)).map (·.id)).getD 0)),
          (bytes "sha256", .text stored.sha256), (bytes "size_bytes", .number stored.sizeBytes)]) }

/-- This is the location that a copy returns. -/
def copiedLocation (source : ArtifactRow) (options : CopyArtifactOptions) (tables : ArtifactTables) : Option LocationRow :=
  match copyContent host record source options with
  | .error _ => none
  | .ok stored => tables.locations.find (source.id, .migrationCandidate, stored.uri)

/-- This operation finds the row of an artifact of a project. -/
def loadArtifactForMigration (tables : ArtifactTables) (projectID artifactID : ID) : Except GoString ArtifactRow :=
  match tables.artifacts.rows.find? fun row => row.projectID == projectID && row.id == artifactID with
  | none => .error (bytes "artifact not found")
  | some row => .ok row

def loadArtifactLocation (tables : ArtifactTables) (projectID artifactID locationID : ID) : Except GoString LocationRow :=
  match tables.locations.table.rows.find? fun row =>
    row.projectID == projectID && row.artifactID == artifactID && row.id == locationID with
  | none => .error (bytes "artifact migration target location not found")
  | some row => .ok row

/-- The target becomes the primary location, and an earlier one is kept as a source. -/
def promote (target : ID) (options : ActivateArtifactOptions) (row : LocationRow) : LocationRow :=
  { row with
    role := if row.id = target then .primary else if row.role = .primary then .migrationSource else row.role
    metadata := setKeys row.metadata
      (if row.id = target then
        [(bytes "status", .text (bytes "observing")), (bytes "observation_until", formatRFC3339 options.observationUntil),
          (bytes "actor", .text (trimSpace options.actor)), (bytes "reason", .text (trimSpace options.reason))]
      else retained) }

/-- The place of an artifact stays readable after the artifact has moved. -/
def retainSource (source : ArtifactRow) (locations : Locations) : Locations :=
  locations.upsert
    ⟨fun id =>
      { id := id, projectID := source.projectID, artifactID := source.id, role := .migrationSource,
        storageBackend := source.storageBackend, uri := source.uri, sha256 := source.sha256, sizeBytes := source.sizeBytes,
        contentType := source.contentType, verifiedAt := some now, metadata := retained }, fun _ => rfl⟩
    ⟨fun row => { row with metadata := setKeys row.metadata retained }, fun _ => rfl⟩ fun _ => rfl

/-- The row of an artifact takes the place of its target. -/
def moveTo (target : LocationRow) (options : ActivateArtifactOptions) (row : ArtifactRow) : ArtifactRow :=
  { row with
    storageBackend := target.storageBackend, uri := target.uri, sha256 := target.sha256, sizeBytes := target.sizeBytes,
    contentType := target.contentType
    metadata := setKeys row.metadata
      [(bytes "artifact_migration_status", .text (bytes "observing")),
        (bytes "artifact_migration_observation_until", formatRFC3339 options.observationUntil)] }

/-- This is the promotion of a location of an artifact. -/
abbrev Locations.promotion (locations : Locations) (scan : ID → Nat) (projectID artifactID : ID)
    (options : ActivateArtifactOptions) : Option Locations :=
  locations.changeRoles scan (fun row => row.projectID == projectID && row.artifactID == artifactID)
    ⟨promote options.targetLocationID options, fun _ => rfl⟩

/-- This operation makes a verified location the primary one. The scan is the order in which the server finds the rows. -/
def activateArtifactLocation (scan : ID → Nat) (artifactID : ID) (options : ActivateArtifactOptions) (tables : ArtifactTables) :
    Except GoString ArtifactTables := do
  if record.id ≤ 0 ∨ artifactID ≤ 0 ∨ options.targetLocationID ≤ 0 then
    .error (bytes "project, artifact and target location ids are required")
  else if trimSpace options.actor = [] ∨ trimSpace options.reason = [] then
    .error (bytes "actor, reason and observation deadline are required")
  else if options.observationUntil ≤ now then .error (bytes "observation deadline must be in the future")
  else
    let source ← loadArtifactForMigration tables record.id artifactID
    let target ← loadArtifactLocation tables record.id artifactID options.targetLocationID
    if target.verifiedAt = none ∨ target.sha256 ≠ source.sha256 ∨ target.sizeBytes ≠ source.sizeBytes then
      .error (bytes "target artifact location is not verified against source metadata")
    else
      match tables.locations.promotion scan record.id artifactID options with
      | none => .error (bytes "promote artifact location: duplicate key value violates unique constraint")
      | some promoted =>
          .ok
            { artifacts := (tables.updateArtifact record.id artifactID ⟨moveTo target options, fun _ => rfl⟩).artifacts
              locations := retainSource now source promoted
              audits := appendAudit tables.audits (migrationAudit source.projectID (bytes "artifact.migration.activate")
                source.id options.actor options.reason
                [(bytes "source_backend", .text source.storageBackend), (bytes "source_uri", .text source.uri),
                  (bytes "target_backend", .text target.storageBackend), (bytes "target_uri", .text target.uri),
                  (bytes "target_location_id", .number target.id),
                  (bytes "observation_until", formatRFC3339 options.observationUntil)]) }

/-- The primary location of an artifact is no longer observed. -/
def settle (options : CompleteArtifactObservationOptions) (row : LocationRow) : LocationRow :=
  { row with
    metadata := setKeys row.metadata
      [(bytes "status", .text (bytes "stable")), (bytes "observed_at", .time (some now)),
        (bytes "actor", .text (trimSpace options.actor)), (bytes "reason", .text (trimSpace options.reason))] }

def markStable (row : ArtifactRow) : ArtifactRow :=
  { row with
    metadata := setKeys row.metadata
      [(bytes "artifact_migration_status", .text (bytes "stable")),
        (bytes "artifact_migration_observed_at", .time (some now))] }

/-- An artifact is stable after its observation. -/
def ArtifactRow.stable (row : ArtifactRow) : Bool :=
  artifactMetadataString row.metadata (bytes "artifact_migration_status") == bytes "stable"

/-- This operation ends the observation of an artifact. -/
def completeArtifactObservation (artifactID : ID) (options : CompleteArtifactObservationOptions) (tables : ArtifactTables) :
    Except GoString ArtifactTables := do
  if record.id ≤ 0 ∨ artifactID ≤ 0 then .error (bytes "project id and artifact id are required")
  else if trimSpace options.actor = [] ∨ trimSpace options.reason = [] then
    .error (bytes "actor and reason are required")
  else
    let state ← loadArtifactForMigration tables record.id artifactID
    if state.stable then .ok tables
    else
      match parseRFC3339 state.metadata (bytes "artifact_migration_observation_until") with
      | none => .error (bytes "artifact observation deadline is missing or invalid")
      | some deadline =>
          let chosen (row : LocationRow) : Bool :=
            row.projectID == record.id && row.artifactID == artifactID && row.role == .primary && row.verifiedAt.isSome
          if now < deadline then .error (bytes "artifact observation period has not completed")
          else if tables.locations.table.rows.countP chosen ≠ 1 then
            .error (bytes "exactly one verified primary artifact location is required")
          else
            .ok
              { artifacts := (tables.updateArtifact record.id artifactID ⟨markStable now, fun _ => rfl⟩).artifacts
                locations := tables.locations.update chosen ⟨settle now options, fun _ => rfl⟩ fun _ => rfl
                audits := appendAudit tables.audits (migrationAudit record.id
                  (bytes "artifact.migration.observe.complete") artifactID options.actor options.reason
                  [(bytes "storage_backend", .text state.storageBackend), (bytes "uri", .text state.uri),
                    (bytes "observation_until", .time (some deadline))]) }

end Operations

/-- The locations of an artifact are read in this order: the primary one, the candidates and the sources, each the newest
first. -/
def LocationRow.before (first second : LocationRow) : Bool :=
  let rank (row : LocationRow) : Nat :=
    match row.role with
    | .primary => 0
    | .migrationCandidate => 1
    | .migrationSource => 2
  decide (rank first < rank second) || (rank first == rank second && decide (second.id ≤ first.id))

def artifactReadLocations (tables : ArtifactTables) (artifactID : ID) : List LocationRow :=
  (tables.locations.table.rows.filter fun row => row.artifactID == artifactID).mergeSort LocationRow.before

section Reads

/-- The content of an artifact is read from a location with the hash and the size of the location. -/
def ArtifactRow.readAt (row : ArtifactRow) (location : LocationRow) : ArtifactRow :=
  { row with
    storageBackend := location.storageBackend, uri := location.uri, sha256 := location.sha256,
    sizeBytes := location.sizeBytes, contentType := location.contentType }

/-- An artifact is observed after its activation. -/
def ArtifactRow.observing (row : ArtifactRow) : Bool :=
  artifactMetadataString row.metadata (bytes "artifact_migration_status") == bytes "observing"

/-- A reader passes over the place it has read already, and over the sources of an artifact that is not observed. -/
def ArtifactRow.passesOver (row : ArtifactRow) (location : LocationRow) : Bool :=
  (location.storageBackend == row.storageBackend && location.uri == row.uri) ||
    (location.role == .migrationSource && !row.observing)

/-- This loop tries the locations of an artifact. Each read happens at a moment of its own. -/
def readFallbacks (host : Nat → MigrationHost) (row : ArtifactRow) :
    Nat → GoString → List LocationRow → Except GoString (GoString × GoString)
  | _, failure, [] => .error failure
  | moment, failure, location :: rest =>
      if row.passesOver location then readFallbacks host row moment failure rest
      else
        match readArtifactRecordContent (host moment) (row.readAt location) with
        | .ok content => .ok content
        | .error other => readFallbacks host row (moment + 1) (failure ++ bytes "\n" ++ other) rest

/-- This function reads the content of an artifact from the place in its row, or from one of its locations. -/
def getArtifactContent (host : Nat → MigrationHost) (row : ArtifactRow) (locations : List LocationRow) :
    Except GoString (GoString × GoString) :=
  match readArtifactRecordContent (host 0) row with
  | .ok content => .ok content
  | .error failure => readFallbacks host row 1 failure locations

end Reads

/-- A copy reads the row of its artifact at one moment and runs its transaction at a later one. -/
inductive MigrationEvent
  | read (artifactID : ID)
  | copy (host : MigrationHost) (now : Time) (record : ProjectRow) (reading : Nat) (options : CopyArtifactOptions)
  | activate (now : Time) (record : ProjectRow) (scan : ID → Nat) (artifactID : ID) (options : ActivateArtifactOptions)
  | complete (now : Time) (record : ProjectRow) (artifactID : ID) (options : CompleteArtifactObservationOptions)

/-- These are the tables, the rows that copies have read so far, and the deadlines of the activations, the latest
first. -/
structure MigrationState where
  tables : ArtifactTables
  readings : List ArtifactRow := []
  deadlines : List (ID × Time) := []
  deriving DecidableEq

/-- This is the row of an artifact. -/
def ArtifactTables.artifact (tables : ArtifactTables) (artifactID : ID) : Option ArtifactRow :=
  Table.rowAt (·.id) tables.artifacts.rows artifactID

/-- A call that fails leaves the tables alone. -/
def migrationStep (state : MigrationState) (event : MigrationEvent) : MigrationState × Except GoString Unit :=
  match event with
  | .read artifactID =>
      match state.tables.artifact artifactID with
      | none => (state, .error (bytes "artifact not found"))
      | some row => ({ state with readings := state.readings ++ [row] }, .ok ())
  | .copy host now record reading options =>
      match state.readings[reading]? with
      | none => (state, .error (bytes "artifact not found"))
      | some source =>
          match copyArtifactToBackend host now record source options state.tables with
          | .error failure => (state, .error failure)
          | .ok tables => ({ state with tables := tables }, .ok ())
  | .activate now record scan artifactID options =>
      match activateArtifactLocation now record scan artifactID options state.tables with
      | .error failure => (state, .error failure)
      | .ok tables =>
          ({ state with tables := tables, deadlines := (artifactID, options.observationUntil) :: state.deadlines }, .ok ())
  | .complete now record artifactID options =>
      match completeArtifactObservation now record artifactID options state.tables with
      | .error failure => (state, .error failure)
      | .ok tables => ({ state with tables := tables }, .ok ())

end AreaFlow.Project
