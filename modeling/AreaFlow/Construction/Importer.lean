import AreaFlow.Construction.Adapter.AreaMatrix
import AreaFlow.Construction.Project.Database
import AreaFlow.Library.Tx

namespace AreaFlow.Importer
open Go AreaMatrix

section Tables

/-- A version is authored in the product, or only its metadata is imported. -/
inductive ImportMode where
  | authored
  | metadataOnly
  deriving DecidableEq

/-- These are the columns of a version that an import fills. -/
structure VersionContent where
  displayLabel : GoString
  versionKind : GoString
  lifecycleStatus : GoString
  sourcePath : Option GoString
  sourceHash : Option GoString
  immutable : Bool
  statusSummary : Json.Value

structure VersionRow where
  id : ID
  projectID : ID
  importMode : ImportMode
  content : VersionContent
  importedAt : Option Time

structure ResidualContent where
  residualKey : GoString
  status : GoString
  type : GoString
  title : Option GoString
  sourcePath : Option GoString
  currentImpact : Option GoString
  executableTask : Bool
  promotionRequired : Bool
  closeCondition : Option GoString
  metadata : Json.Value
  immutable : Bool

structure ResidualRow where
  id : ID
  projectID : ID
  versionID : Option ID
  content : ResidualContent
  importedAt : Option Time

structure ArtifactContent where
  artifactType : GoString
  uri : GoString
  sourcePath : Option GoString
  sha256 : Option GoString
  sizeBytes : Option Nat
  contentType : Option GoString
  metadata : Json.Value

structure ArtifactRow where
  id : ID
  projectID : ID
  versionID : Option ID
  runID : Option ID
  storageBackend : GoString
  content : ArtifactContent

structure RunRow where
  id : ID
  projectID : Option ID
  versionID : Option ID
  runType : GoString
  status : GoString
  finishedAt : Option Time
  summary : GoString

structure StatusSnapshotRow where
  id : ID
  projectID : ID
  snapshotKind : GoString
  summary : GoString
  sourceHash : Option GoString
  createdAt : Time

structure EventRow where
  id : ID
  projectID : Option ID
  runID : Option ID
  versionID : Option ID
  eventType : GoString
  severity : GoString
  message : GoString
  metadata : GoString

structure AuditRow where
  id : ID
  projectID : Option ID
  action : GoString
  resourceType : GoString
  resource : GoString
  decision : GoString
  reason : GoString
  metadata : GoString

/-- This is a row of another table that refers to a version. -/
structure DependentRow where
  id : ID
  projectID : ID
  versionID : Option ID

/-- Items, their links, gate results, transition previews and approvals go with their version. Tasks, attempts and status
projections lose the reference. -/
structure Database where
  versions : Table VersionRow (·.id)
  residuals : Table ResidualRow (·.id)
  artifacts : Table ArtifactRow (·.id)
  runs : Table RunRow (·.id)
  statusSnapshots : Table StatusSnapshotRow (·.id)
  events : Table EventRow (·.id)
  audits : Table AuditRow (·.id)
  commands : List Project.CommandRow
  items : List DependentRow
  links : List DependentRow
  gateResults : List DependentRow
  transitionPreviews : List DependentRow
  approvals : List DependentRow
  tasks : List DependentRow
  attempts : List DependentRow
  statusProjections : List DependentRow

end Tables

section Command

structure Record where
  id : ID
  key : GoString
  adapter : GoString
  rootPath : GoString

structure Options where
  idempotencyKey : GoString := []
  actor : GoString := []
  reason : GoString := []

structure Result where
  projectKey : GoString
  versions : Int
  residuals : Int
  artifacts : Int
  activeTasks : Int
  v1Done : Int
  v1Total : Int
  statusSnapshot : GoString
  runID : ID
  idempotencyKey : GoString
  created : Bool

/-- The server refuses some texts and some documents, such as those with a zero byte. -/
structure Postgres where
  acceptsText : GoString → Bool
  acceptsJSON : Json.Value → Bool

/-- These are the time of a call and its number among the calls of the process. -/
structure Clock where
  now : Time
  sequence : Nat

abbrev Import (A : Type) := Tx Unit Database GoString A

def commandType : GoString := bytes "project.import"

def externalProject : GoString := bytes "external_project"

def defaultReason : GoString := bytes "read-only AreaMatrix metadata import"

def normalizeOptions (options : Options) : Options where
  idempotencyKey := trimSpace options.idempotencyKey
  actor := if trimSpace options.actor = [] then bytes "local-user" else trimSpace options.actor
  reason := if trimSpace options.reason = [] then defaultReason else trimSpace options.reason

variable (host : Host) (files : Files) (postgres : Postgres) (clock : Clock)

def importRequestHash (record : Record) (sourceHash statusJSON : GoString) (options : Options) : GoString :=
  host.sha256Hex (Json.object
    [(bytes "actor", Json.quote options.actor), (bytes "adapter", Json.quote record.adapter),
      (bytes "command_type", Json.quote commandType), (bytes "project_id", bytes (toString record.id)),
      (bytes "project_key", Json.quote record.key), (bytes "reason", Json.quote options.reason),
      (bytes "root_path", Json.quote record.rootPath), (bytes "source_hash", Json.quote sourceHash),
      (bytes "summary", statusJSON)])

def importIdempotencyKey (record : Record) (sourceHash : GoString) : GoString :=
  [58].intercalate
    [commandType, record.key, sourceHash, bytes (toString clock.now), bytes (toString clock.sequence)]

/-- This is the answer of a completed import from its stored response. -/
def loadImportResultByCommandResponse (record : Record) (key : GoString) : Import Result := Tx.check fun db =>
  let number (response : Metadata) (name : GoString) : Int :=
    match Project.metadataGet response name with
    | some (.number value) => value
    | _ => 0
  let text (response : Metadata) (name : GoString) : GoString :=
    match Project.metadataGet response name with
    | some (.text value) => value
    | _ => []
  match db.commands.find? fun row => row.projectID == record.id && row.commandType == commandType &&
      row.idempotencyKey == key with
  | none => .error (bytes "load import command response: no rows in result set")
  | some row =>
      if row.completed = false then .error (bytes "import command request is not complete: " ++ key)
      else
        let projectKey := text row.response (bytes "project_key")
        .ok
          { projectKey := if projectKey = [] then record.key else projectKey
            versions := number row.response (bytes "versions"), residuals := number row.response (bytes "residuals")
            artifacts := number row.response (bytes "artifacts")
            activeTasks := number row.response (bytes "active_tasks"), v1Done := number row.response (bytes "v1_done")
            v1Total := number row.response (bytes "v1_total")
            statusSnapshot := text row.response (bytes "status_snapshot")
            runID := number row.response (bytes "run_id"), idempotencyKey := key, created := false }

def reserve (record : Record) (key requestHash : GoString) : Import Bool := fun idle db =>
  match Project.reserveCommandRequest db.commands record.id commandType key requestHash with
  | .conflict => (idle, .error (bytes "idempotency key conflict: " ++ key))
  | .repeated => (idle, .ok (false, db))
  | .created commands => (idle, .ok (true, { db with commands := commands }))

def startRun (projectID : ID) : Import ID := Tx.write fun db =>
  let new : Table.New RunRow (·.id) :=
    { make := fun id =>
        { id := id, projectID := some projectID, versionID := none, runType := bytes "import", status := bytes "running"
          finishedAt := none, summary := bytes "\x7b\x7d" }
      named := fun _ => rfl }
  (db.runs.nextID, { db with runs := db.runs.insert new })

end Command

section Clearing

/-- The rows of a dependent table that refer to a deleted version are deleted with it. -/
def cascade (deleted : List ID) (rows : List DependentRow) : List DependentRow :=
  rows.filter fun row => !(row.versionID.any deleted.contains)

def setNull (deleted : List ID) (reference : Option ID) : Option ID :=
  if reference.any deleted.contains then none else reference

/-- The rows of a dependent table that refer to a deleted version lose the reference. -/
def nulled (deleted : List ID) (rows : List DependentRow) : List DependentRow :=
  rows.map fun row => { row with versionID := setNull deleted row.versionID }

def nullArtifact (deleted : List ID) : Table.Change ArtifactRow (·.id) where
  apply row := { row with versionID := setNull deleted row.versionID }
  keeps _ := rfl

def nullRun (deleted : List ID) : Table.Change RunRow (·.id) where
  apply row := { row with versionID := setNull deleted row.versionID }
  keeps _ := rfl

/-- Versions are deleted with what refers to them. An event is append-only, so that it holds on to its version. -/
def deleteVersions (chosen : VersionRow → Bool) (db : Database) : Except GoString Database :=
  let deleted := (db.versions.rows.filter chosen).map (·.id)
  if db.events.rows.any fun event => event.versionID.any deleted.contains then
    .error (bytes "clear current import index: events is append-only; UPDATE is not allowed")
  else .ok
    { db with
      versions := db.versions.delete chosen
      residuals := db.residuals.delete fun row => row.versionID.any deleted.contains
      artifacts := db.artifacts.update (fun _ => true) (nullArtifact deleted)
      runs := db.runs.update (fun _ => true) (nullRun deleted)
      items := cascade deleted db.items, links := cascade deleted db.links
      gateResults := cascade deleted db.gateResults
      transitionPreviews := cascade deleted db.transitionPreviews, approvals := cascade deleted db.approvals
      tasks := nulled deleted db.tasks, attempts := nulled deleted db.attempts
      statusProjections := nulled deleted db.statusProjections }

def isExternal (projectID : ID) (row : ArtifactRow) : Bool :=
  row.projectID == projectID && row.storageBackend == externalProject

def isImported (projectID : ID) (row : ResidualRow) : Bool := row.projectID == projectID && row.importedAt.isSome

def isMirrored (projectID : ID) (row : VersionRow) : Bool :=
  row.projectID == projectID && decide (row.importMode = .metadataOnly)

def clearCurrentImportIndex (projectID : ID) : Import Unit := fun idle db =>
  match deleteVersions (isMirrored projectID)
      { db with
        artifacts := db.artifacts.delete (isExternal projectID)
        residuals := db.residuals.delete (isImported projectID) } with
  | .error failure => (idle, .error failure)
  | .ok after => (idle, .ok ((), after))

end Clearing

section Inserting

/-- This is the JSON form of counts as the server reads it. -/
def countsValue (counts : List (GoString × Nat)) : Json.Value :=
  .object (counts.map fun entry => (Json.toValid entry.1, .number (bytes (toString entry.2))))

def versionContent (version : Version) (status : Json.Value) : VersionContent where
  displayLabel := version.label
  versionKind := bytes "workflow_version"
  lifecycleStatus := version.lifecycle
  sourcePath := some version.sourcePath
  sourceHash := some version.sourceHash
  immutable := version.immutable
  statusSummary := .object [(bytes "artifact_counts", countsValue version.artifactCounts), (bytes "status", status)]

def residualContent (residual : Residual) : ResidualContent where
  residualKey := residual.key
  status := residual.status
  type := residual.type
  title := some residual.title
  sourcePath := some residual.sourcePath
  currentImpact := some residual.currentImpact
  executableTask := residual.executableTask
  promotionRequired := residual.promotionRequired
  closeCondition := some residual.closeCondition
  metadata := residual.metadata
  immutable := residual.immutable

def artifactContent (artifact : Artifact) : ArtifactContent where
  artifactType := artifact.type
  uri := artifact.sourcePath
  sourcePath := some artifact.sourcePath
  sha256 := some artifact.sha256
  sizeBytes := some artifact.sizeBytes
  contentType := some artifact.contentType
  metadata := artifact.metadata

variable (postgres : Postgres) (now : Time) (projectID : ID)

def newVersion (content : VersionContent) : Table.New VersionRow (·.id) where
  make id := { id := id, projectID := projectID, importMode := .metadataOnly, content := content, importedAt := some now }
  named _ := rfl

/-- A label is used once in a project. -/
def insertVersionRow (content : VersionContent) : Import ID := fun idle db =>
  if [content.displayLabel, content.lifecycleStatus, content.sourcePath.getD [], content.sourceHash.getD []].all
        postgres.acceptsText && postgres.acceptsJSON content.statusSummary &&
      !(db.versions.rows.any fun row => row.projectID == projectID && row.content.displayLabel == content.displayLabel) then
    (idle, .ok (db.versions.nextID, { db with versions := db.versions.insert (newVersion now projectID content) }))
  else (idle, .error (bytes "insert workflow version " ++ content.displayLabel))

def upsertVersion (version : Version) : Import ID :=
  match version.statusSummary with
  | none => Tx.fail (bytes "marshal version summary")
  | some status => insertVersionRow postgres now projectID (versionContent version status)

/-- The versions are inserted one after another, and their identifiers are kept under their labels. -/
def insertVersions : List Version → List (GoString × ID) → Import (List (GoString × ID))
  | [], ids => pure ids
  | version :: rest, ids => do
      let id ← upsertVersion postgres now projectID version
      insertVersions rest ((version.label, id) :: ids)

def newResidual (versionID : Option ID) (content : ResidualContent) : Table.New ResidualRow (·.id) where
  make id := { id := id, projectID := projectID, versionID := versionID, content := content, importedAt := some now }
  named _ := rfl

/-- A key is used once in a project. -/
def upsertResidual (ids : List (GoString × ID)) (residual : Residual) : Import Unit := fun idle db =>
  if [residual.key, residual.status, residual.type, residual.title, residual.sourcePath, residual.currentImpact,
        residual.closeCondition].all postgres.acceptsText && postgres.acceptsJSON residual.metadata &&
      !(db.residuals.rows.any fun row => row.projectID == projectID && row.content.residualKey == residual.key) then
    let new := newResidual now projectID (ids.lookup residual.versionLabel) (residualContent residual)
    (idle, .ok ((), { db with residuals := db.residuals.insert new }))
  else (idle, .error (bytes "insert residual " ++ residual.key))

def newArtifact (versionID : Option ID) (runID : ID) (content : ArtifactContent) : Table.New ArtifactRow (·.id) where
  make id :=
    { id := id, projectID := projectID, versionID := versionID, runID := some runID, storageBackend := externalProject
      content := content }
  named _ := rfl

def insertArtifact (ids : List (GoString × ID)) (runID : ID) (artifact : Artifact) : Import Unit := fun idle db =>
  if [artifact.type, artifact.sourcePath, artifact.sha256, artifact.contentType].all postgres.acceptsText &&
      postgres.acceptsJSON artifact.metadata then
    let new := newArtifact projectID (ids.lookup artifact.versionLabel) runID (artifactContent artifact)
    (idle, .ok ((), { db with artifacts := db.artifacts.insert new }))
  else (idle, .error (bytes "insert artifact " ++ artifact.sourcePath))

end Inserting

section Import

variable (host : Host) (files : Files) (postgres : Postgres) (clock : Clock)

def recordImport (record : Record) (runID : ID) (snapshot : Snapshot) (runSummary : GoString) : Import Unit :=
  Tx.write fun db => ((),
    { db with
      statusSnapshots := db.statusSnapshots.insert
        { make := fun id =>
            { id := id, projectID := record.id, snapshotKind := bytes "import", summary := snapshot.statusSummary
              sourceHash := some snapshot.statusSourceHash, createdAt := clock.now }
          named := fun _ => rfl }
      events := db.events.insert
        { make := fun id =>
            { id := id, projectID := some record.id, runID := some runID, versionID := none
              eventType := bytes "project.import.completed", severity := bytes "info"
              message := bytes "AreaMatrix metadata import completed", metadata := snapshot.statusSummary }
          named := fun _ => rfl }
      runs := db.runs.update (·.id == runID)
        { apply := fun row =>
            { row with status := bytes "completed", finishedAt := some clock.now, summary := runSummary }
          keeps := fun _ => rfl }
      audits := db.audits.insert
        { make := fun id =>
            { id := id, projectID := some record.id, action := commandType, resourceType := bytes "project"
              resource := record.key, decision := bytes "allowed", reason := defaultReason, metadata := runSummary }
          named := fun _ => rfl } })

def completeCommandRequest (record : Record) (key : GoString) (result : Result) : Import Unit := Tx.write fun db => ((),
  { db with
    commands := Project.completeCommandRequestResponse db.commands record.id commandType key
      [(bytes "project_key", .text result.projectKey), (bytes "run_id", .number result.runID),
        (bytes "versions", .number result.versions), (bytes "residuals", .number result.residuals),
        (bytes "artifacts", .number result.artifacts), (bytes "active_tasks", .number result.activeTasks),
        (bytes "v1_done", .number result.v1Done), (bytes "v1_total", .number result.v1Total),
        (bytes "status_snapshot", .text result.statusSnapshot)] })

def importResult (record : Record) (snapshot : Snapshot) (runID : ID) (key : GoString) : Result where
  projectKey := record.key
  versions := snapshot.versions.length
  residuals := snapshot.residuals.length
  artifacts := snapshot.artifacts.length
  activeTasks := snapshot.taskSummary.activeCount
  v1Done := snapshot.taskSummary.v1ExecutionDone
  v1Total := snapshot.taskSummary.v1ExecutionTotal
  statusSnapshot := snapshot.statusSourceHash
  runID := runID
  idempotencyKey := key
  created := true

/-- This is the part of an import that replaces the rows of the earlier one. -/
def replaceRows (record : Record) (snapshot : Snapshot) : Import ID := do
  let runID ← startRun record.id
  clearCurrentImportIndex record.id
  let ids ← insertVersions postgres clock.now record.id snapshot.versions []
  Tx.forEach (upsertResidual postgres clock.now record.id ids) snapshot.residuals
  Tx.forEach (insertArtifact postgres record.id ids runID) snapshot.artifacts
  pure runID

/-- This is the transaction of an import. -/
def importSnapshot (record : Record) (options : Options) (snapshot : Snapshot) : Import Result := do
  let requestHash := importRequestHash host record snapshot.statusSourceHash snapshot.statusSummary options
  let key := if options.idempotencyKey = [] then importIdempotencyKey clock record snapshot.statusSourceHash
    else options.idempotencyKey
  let created ← reserve record key requestHash
  if created then do
    let runID ← replaceRows postgres clock record snapshot
    let runSummary := Json.object
      [(bytes "artifacts", bytes (toString snapshot.artifacts.length)),
        (bytes "residuals", bytes (toString snapshot.residuals.length)),
        (bytes "versions", bytes (toString snapshot.versions.length))]
    recordImport clock record runID snapshot runSummary
    let result := importResult record snapshot runID key
    completeCommandRequest record key result
    pure result
  else loadImportResultByCommandResponse record key

/-- This function is `importer.ImportProject`. An error rolls the transaction back. -/
def importProject (record : Record) (options : Options) (db : Database) : Database × Except GoString Result :=
  if record.adapter ≠ bytes "areamatrix" then (db, .error (bytes "unsupported adapter " ++ record.adapter))
  else if record.rootPath = [] then (db, .error (bytes "project " ++ record.key ++ bytes " has no local root path"))
  else
    match (load host files record.rootPath).outcome with
    | .error failure => (db, .error failure)
    | .ok snapshot =>
        let outcome := (importSnapshot host postgres clock record (normalizeOptions options) snapshot).commit () db
        (outcome.1.2, outcome.2)

end Import

end AreaFlow.Importer
