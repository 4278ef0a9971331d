import AreaFlow.Construction.Project.WorkflowGates

namespace AreaFlow.Project
open Go Auth

structure MarkWorkflowItemReadyOptions where
  stage : GoString
  itemType : GoString
  actor : GoString := []
  reason : GoString := []
  deriving DecidableEq

def normalizeMarkWorkflowItemReadyOptions (options : MarkWorkflowItemReadyOptions) : MarkWorkflowItemReadyOptions where
  stage := trimSpace options.stage
  itemType := trimSpace options.itemType
  actor := textOr (bytes "local-user") options.actor
  reason := textOr (bytes "mark workflow item ready") options.reason

section Items

variable {Files : Type} (env : Env Files) (now : Time) (record : ProjectRow) (version : VersionRow)

/-- This operation inserts the row of a stored artifact of an item. -/
abbrev insertArtifactRecord (itemID : ID) (artifactType sourcePath : GoString) (stored : Stored) (metadata : Metadata) :
    Command Files ArtifactRow :=
  insertArtifact
    (storedArtifact now record.id (some version.id) none (some itemID) artifactType sourcePath stored metadata)

def loadWorkflowItemByStageType (db : Database) (stage itemType : GoString) : Option ItemRow :=
  db.items.find? fun item =>
    item.projectID == record.id && item.versionID == version.id && item.stage == stage && item.itemType == itemType

section Ready

variable (options : MarkWorkflowItemReadyOptions) (item : ItemRow)

/-- A ready marker names the item and who marked it; its path is made from the stage and the type of the item alone. -/
def writeAndInsertReadyMarkerArtifact : Command Files ArtifactRow := do
  let content := env.marshalIndent
    [(bytes "kind", .text (bytes "workflow_item_ready_marker")), (bytes "project", .text record.projectKey),
      (bytes "display_label", .text version.displayLabel), (bytes "stage", .text item.stage),
      (bytes "item_type", .text item.itemType), (bytes "external_key", .text item.externalKey),
      (bytes "actor", .text options.actor), (bytes "reason", .text options.reason),
      (bytes "phase", .text (bytes "v0.4-ready-path")), (bytes "read_only", .flag true)] ++ bytes "\n"
  let relativePath := pathJoin [version.displayLabel, item.stage, item.itemType ++ bytes "-ready.json"]
  let stored ← writeProjectArtifact env record relativePath content (bytes "application/json")
  insertArtifactRecord now record version item.id (bytes "workflow_item_ready_marker") relativePath stored
    [(bytes "phase", .text (bytes "v0.4-ready-path")), (bytes "owned_by", .text (bytes "areaflow")),
      (bytes "stage", .text item.stage), (bytes "item_type", .text item.itemType),
      (bytes "display_label", .text version.displayLabel), (bytes "read_only", .flag true)]

/-- This is an item after it was marked ready. -/
def readyItem (artifact : ArtifactRow) (item : ItemRow) : ItemRow :=
  { item with
    status := bytes "ready"
    sourcePath := artifact.sourcePath
    sourceHash := artifact.sha256
    metadata := (setKeys item.metadata
      [(bytes "ready_actor", .text options.actor), (bytes "ready_reason", .text options.reason),
        (bytes "ready_artifact_id", .number artifact.id), (bytes "ready_artifact_type", .text artifact.artifactType),
        (bytes "ready_phase", .text (bytes "v0.4-ready-path")), (bytes "read_only", .flag true)]).filter
          fun entry => entry.1 != bytes "blocked_until" }

def updateWorkflowItemReady (artifact : ArtifactRow) : Command Files ItemRow :=
  Tx.write fun db =>
    (readyItem options artifact item,
      { db with items := db.items.map fun row => if row.id = item.id then readyItem options artifact row else row })

/-- These fields stand in the event and in the audit row of a ready item. -/
def readyMetadata (artifact : ArtifactRow) : Metadata :=
  [(bytes "display_label", .text version.displayLabel), (bytes "workflow_version_id", .number version.id),
    (bytes "workflow_item_id", .number item.id), (bytes "stage", .text item.stage),
    (bytes "item_type", .text item.itemType), (bytes "artifact_id", .number artifact.id),
    (bytes "source_hash", .text item.sourceHash), (bytes "actor", .text options.actor)]

/-- This operation marks an item ready; the version is read before the transaction. -/
def markWorkflowItemReady (seen : Database) (label : GoString) (raw : MarkWorkflowItemReadyOptions) :
    Command Files (ItemRow × ArtifactRow) :=
  let options := normalizeMarkWorkflowItemReadyOptions raw
  if options.stage = [] ∨ options.itemType = [] then Tx.fail (.failed (bytes "stage and item type are required"))
  else do
    let version ← Tx.check fun _ => (getAuthoredVersion seen record label).mapError StoreError.workflow
    let found ← Tx.check fun db =>
      match loadWorkflowItemByStageType record version db options.stage options.itemType with
      | none => .error (.failed (bytes "workflow item not found: " ++ options.stage ++ bytes "/" ++ options.itemType))
      | some item => .ok item
    let artifact ← writeAndInsertReadyMarkerArtifact env now record version options found
    let item ← updateWorkflowItemReady options found artifact
    let _ ← insertEvent
      { projectID := some record.id, runID := none, versionID := some version.id,
        eventType := bytes "workflow.item.ready_marked", severity := bytes "info",
        message := bytes "Workflow item marked ready",
        metadata := fields [readyMetadata version options item artifact,
          [(bytes "reason", .text options.reason), (bytes "read_only", .flag true)]] }
    let _ ← insertAuditEvent
      { projectID := some record.id, actorID := none, action := bytes "workflow.item.mark_ready", capability := [],
        resourceType := bytes "workflow_item", resource := item.externalKey, decision := bytes "allowed",
        reason := options.reason,
        metadata := fields [readyMetadata version options item artifact, [(bytes "read_only", .flag true)]] }
    pure (item, artifact)

end Ready

end Items

end AreaFlow.Project
