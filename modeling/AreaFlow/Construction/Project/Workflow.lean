import AreaFlow.Construction.Auth.Token
import AreaFlow.Construction.Project.Database

namespace AreaFlow.Project
open Go Auth

/-- These are the errors of the workflow commands. -/
inductive WorkflowError where
  | invalidLabel
  | versionNotFound (label : GoString)
  | versionNotAuthored (label : GoString)
  | idempotencyConflict (idempotencyKey : GoString)
  | invalidDecision (decision : GoString)
  | previewNotReady
  | previewNotFound (previewID : ID)
  | selfApproval
  | approvalNotFound (idempotencyKey : GoString)
  | unsupportedGate (gateName : GoString)
  | failed (message : GoString)
  deriving DecidableEq

def isAlphanumeric (b : UInt8) : Bool :=
  (97 ≤ b && b ≤ 122) || (65 ≤ b && b ≤ 90) || (48 ≤ b && b ≤ 57)

/-- This is the pattern of a version label. -/
def validateWorkflowVersionLabel : GoString → Bool
  | [] => false
  | first :: rest =>
      isAlphanumeric first && rest.length ≤ 63 && rest.all fun b => isAlphanumeric b || b == 46 || b == 95 || b == 45

/-- This function loads a version of a project by its label. -/
def getWorkflowVersion (db : Database) (record : ProjectRow) (label : GoString) : Except WorkflowError VersionRow :=
  if !validateWorkflowVersionLabel label then .error .invalidLabel
  else
    match db.versions.find? fun version => version.projectID == record.id && version.displayLabel == label with
    | none => .error (.versionNotFound label)
    | some version => .ok version

/-- This function loads a version that is authored in the product. -/
def getAuthoredVersion (db : Database) (record : ProjectRow) (label : GoString) : Except WorkflowError VersionRow :=
  match getWorkflowVersion db record label with
  | .error failure => .error failure
  | .ok version => if version.importMode ≠ .authored then .error (.versionNotAuthored label) else .ok version

/-- The queries that a call makes before its transaction may see different states of the tables. -/
structure Sights where
  version : Database
  items : Database
  gate : Database
  approval : Database
  preview : Database

/-- All queries of a call saw the same tables. -/
def Sights.all (db : Database) : Sights := ⟨db, db, db, db, db⟩

/-- This is a trimmed text, or its default when nothing is left. -/
def textOr (fallback text : GoString) : GoString := if trimSpace text = [] then fallback else trimSpace text

structure PreviewTransitionOptions where
  fromStage : GoString
  toStage : GoString
  actor : GoString
  reason : GoString
  idempotencyKey : GoString := []
  deriving DecidableEq

def normalizePreviewTransitionOptions (options : PreviewTransitionOptions) : PreviewTransitionOptions where
  fromStage := textOr (bytes "promotion_preview") options.fromStage
  toStage := textOr (bytes "approval") options.toStage
  actor := textOr (bytes "local-user") options.actor
  reason := textOr (bytes "preview workflow transition") options.reason
  idempotencyKey := options.idempotencyKey

/-- This is the latest result of a gate. -/
def latestGateResult (db : Database) (projectID versionID : ID) (gateName : GoString) : Option GateRow :=
  newest (fun gate => (gate.checkedAt, gate.id)) (db.gates.filter fun gate =>
    gate.projectID == projectID && gate.versionID == versionID && gate.gateName == gateName)

/-- These are the reasons that block a transition. -/
def previewBlockers (gate : Option GateRow) : List GoString :=
  match gate with
  | none => [bytes "missing promotion_preview gate result"]
  | some result =>
      if result.status ≠ bytes "pass" then [bytes "latest promotion_preview gate status is " ++ result.status] else []

/-- This function decides a transition from the latest result of its gate; it names its actor. -/
def evaluateWorkflowTransitionPreview (record : ProjectRow) (version : VersionRow) (gate : Option GateRow)
    (options : PreviewTransitionOptions) (id : ID) (now : Time) : PreviewRow where
  id := id
  projectID := record.id
  versionID := version.id
  fromStage := options.fromStage
  toStage := options.toStage
  status := if previewBlockers gate = [] then .ready else .blocked
  requiredGateName := bytes "promotion_preview"
  gateResultID := (gate.map (·.id)).getD 0
  blockers := previewBlockers gate
  warnings := [bytes "transition preview is read-only; it does not promote or execute"]
  metadata :=
    [(bytes "actor", .text options.actor), (bytes "reason", .text options.reason), (bytes "phase", .text (bytes "v0.3d")),
      (bytes "display_label", .text version.displayLabel), (bytes "gate_found", .flag gate.isSome)]
  createdAt := now

section Preview

variable (codec : Codec) (record : ProjectRow) (version : VersionRow) (preview : PreviewRow)
  (options : PreviewTransitionOptions)

/-- This function joins texts with colons. -/
def colons (texts : List GoString) : GoString := (bytes ":").intercalate texts

def workflowTransitionPreviewIdempotencyKey (now : Time) (sequence : Nat) : GoString :=
  let payload := colons [record.projectKey, version.displayLabel, preview.fromStage, preview.toStage, options.actor,
    options.reason]
  colons [bytes "workflow.transition.preview", record.projectKey, version.displayLabel, preview.fromStage,
    preview.toStage, sprintID now, sprintID sequence, (codec.sha256Hex payload).take 16]

def workflowTransitionPreviewRequestHash : GoString :=
  codec.sha256Hex (codec.marshal
    [(bytes "command_type", .text (bytes "workflow.transition.preview")),
      (bytes "project_key", .text record.projectKey), (bytes "workflow_version_id", .number version.id),
      (bytes "display_label", .text version.displayLabel), (bytes "from_stage", .text preview.fromStage),
      (bytes "to_stage", .text preview.toStage), (bytes "status", .text preview.status.name),
      (bytes "required_gate_name", .text preview.requiredGateName),
      (bytes "gate_result_id", .number preview.gateResultID), (bytes "blockers", .texts preview.blockers),
      (bytes "warnings", .texts preview.warnings), (bytes "actor", .text options.actor),
      (bytes "reason", .text options.reason), (bytes "read_only", .flag true)])

def transitionPreviewCommandResponse (eventID auditEventID : ID) : Metadata :=
  [(bytes "transition_preview_id", .number preview.id), (bytes "event_id", .number eventID),
    (bytes "audit_event_id", .number auditEventID), (bytes "workflow_version_id", .number preview.versionID),
    (bytes "from_stage", .text preview.fromStage), (bytes "to_stage", .text preview.toStage),
    (bytes "status", .text preview.status.name), (bytes "required_gate_name", .text preview.requiredGateName),
    (bytes "gate_result_id", .number preview.gateResultID), (bytes "project_write_attempted", .flag false),
    (bytes "execution_write_attempted", .flag false), (bytes "read_only", .flag true)]

/-- This is the event of a stored preview. -/
def transitionPreviewEvent : EventRow where
  projectID := some record.id
  runID := none
  versionID := some version.id
  eventType := bytes "workflow.transition.previewed"
  severity := if preview.status = .blocked then bytes "warning" else bytes "info"
  message := bytes "Workflow transition previewed"
  metadata :=
    [(bytes "transition_preview_id", .number preview.id), (bytes "display_label", .text version.displayLabel),
      (bytes "workflow_version_id", .number version.id), (bytes "from_stage", .text preview.fromStage),
      (bytes "to_stage", .text preview.toStage), (bytes "status", .text preview.status.name),
      (bytes "blockers", .texts preview.blockers), (bytes "warnings", .texts preview.warnings),
      (bytes "actor", .text options.actor), (bytes "reason", .text options.reason)]

/-- This is the audit row of a stored preview. -/
def transitionPreviewAudit : AuditRow where
  projectID := some record.id
  actorID := none
  action := bytes "workflow.transition.preview"
  capability := []
  resourceType := bytes "workflow_transition"
  resource := version.displayLabel ++ bytes ":" ++ preview.fromStage ++ bytes "->" ++ preview.toStage
  decision := bytes "allowed"
  reason := options.reason
  metadata := transitionPreviewCommandResponse preview 0 0

end Preview

/-- A repeated preview is stored again; only a different request under the same key is refused. -/
def reservedOrRepeated (reservation : Reservation) (commands : List CommandRow) : Option (List CommandRow) :=
  match reservation with
  | .created reserved => some reserved
  | .repeated => some commands
  | .conflict => none

/-- This function stores a transition preview with its event, its audit row and its command. -/
def storePreview (db : Database) (record : ProjectRow) (version : VersionRow) (options : PreviewTransitionOptions)
    (preview : PreviewRow) (idempotencyKey : GoString) (commands : List CommandRow) : Database :=
  let events := appendEvent db.events (transitionPreviewEvent record version preview options)
  let audits := appendAudit db.identity.audits (transitionPreviewAudit record version preview options)
  { db with
    identity := { db.identity with audits := audits }
    previews := db.previews ++ [preview]
    events := events
    commands := completeCommandRequestResponse commands record.id (bytes "workflow.transition.preview") idempotencyKey
      (transitionPreviewCommandResponse preview (freshID (db.events.map (·.id)))
        (freshID (db.identity.audits.map (·.id)))) }

/-- This is the key of a preview: the given one, or one made from its content and its time. -/
def previewKey (codec : Codec) (record : ProjectRow) (version : VersionRow) (preview : PreviewRow)
    (options : PreviewTransitionOptions) (now : Time) (sequence : Nat) : GoString :=
  if options.idempotencyKey = [] then
    workflowTransitionPreviewIdempotencyKey codec record version preview options now sequence
  else options.idempotencyKey

/-- This function previews a transition of an authored version from what its queries saw. -/
def previewWorkflowTransitionFrom (codec : Codec) (seen : Sights) (db : Database) (now : Time) (sequence : Nat)
    (record : ProjectRow) (label : GoString) (raw : PreviewTransitionOptions) :
    Except WorkflowError (Database × PreviewRow) :=
  let options := normalizePreviewTransitionOptions raw
  match getAuthoredVersion seen.version record label with
  | .error failure => .error failure
  | .ok version =>
      let preview := evaluateWorkflowTransitionPreview record version
        (latestGateResult seen.gate record.id version.id (bytes "promotion_preview")) options
        (freshID (db.previews.map (·.id))) now
      let key := previewKey codec record version preview options now sequence
      let hash := workflowTransitionPreviewRequestHash codec record version preview options
      match reservedOrRepeated (reserveCommandRequest db.commands record.id (bytes "workflow.transition.preview") key hash)
        db.commands with
      | none => .error (.idempotencyConflict key)
      | some commands => .ok (storePreview db record version options preview key commands, preview)

structure CreateApprovalOptions where
  decision : GoString
  approvalKind : GoString
  actor : GoString
  reason : GoString
  riskLevel : GoString
  idempotencyKey : GoString
  transitionPreviewID : ID
  metadata : Metadata
  deriving DecidableEq

def normalizeCreateApprovalOptions (options : CreateApprovalOptions) : CreateApprovalOptions where
  decision := textOr (bytes "approved") options.decision
  approvalKind := textOr (bytes "workflow_transition") options.approvalKind
  actor := textOr (bytes "local-user") options.actor
  reason := textOr (bytes "explicit workflow approval") options.reason
  riskLevel := textOr (bytes "normal") options.riskLevel
  idempotencyKey := trimSpace options.idempotencyKey
  transitionPreviewID := options.transitionPreviewID
  metadata := options.metadata

section Approval

variable (codec : Codec)

/-- A risk level is high by its trimmed lower-case name. -/
def highRiskApproval (riskLevel : GoString) : Bool :=
  [bytes "high", bytes "critical", bytes "l4"].any fun name =>
    codec.cases.toLower (trimSpace riskLevel) == runes name

/-- The approver has the name of the requester, up to case and white space. -/
def sameActor (approver : GoString) (requester : Option MetaValue) : Bool :=
  match requester with
  | some (.text name) => name != [] && codec.cases.equalFold (trimSpace approver) (trimSpace name)
  | _ => false

/-- This is the preview that an approval is linked to: the named one, or the latest of the version. -/
def resolveApprovalTransitionPreview (db : Database) (projectID versionID previewID : ID) : Option PreviewRow :=
  newest (fun preview => (preview.createdAt, preview.id)) (db.previews.filter fun preview =>
    preview.projectID == projectID && preview.versionID == versionID && (previewID == 0 || preview.id == previewID))

/-- This is the latest approval of a version. -/
def latestApprovalRecord (db : Database) (projectID versionID : ID) : Option ApprovalRow :=
  newest (fun approval => (approval.createdAt, approval.id)) (db.approvals.filter fun approval =>
    approval.projectID == projectID && approval.versionID == versionID)

/-- These are the checks of an approval: its decision, its version and its preview. -/
def checkApproval (seen : Sights) (record : ProjectRow) (label : GoString) (options : CreateApprovalOptions) :
    Except WorkflowError (Decision × VersionRow × Option PreviewRow) :=
  match Decision.ofName options.decision with
  | none => .error (.invalidDecision options.decision)
  | some decision =>
      match getAuthoredVersion seen.version record label with
      | .error failure => .error failure
      | .ok version =>
          let preview := resolveApprovalTransitionPreview seen.preview record.id version.id options.transitionPreviewID
          if options.transitionPreviewID ≠ 0 ∧ preview = none then .error (.previewNotFound options.transitionPreviewID)
          else if decision = .approved ∧ preview.map (·.status) ≠ some .ready then .error .previewNotReady
          else if decision = .approved ∧ highRiskApproval codec options.riskLevel = true ∧
              sameActor codec options.actor (preview.bind fun found => metadataGet found.metadata (bytes "actor")) = true then
            .error .selfApproval
          else .ok (decision, version, preview)

/-- This function builds the row of an approval; the fields of its preview overwrite the metadata of the request. -/
def buildApprovalRecord (record : ProjectRow) (version : VersionRow) (preview : Option PreviewRow) (decision : Decision)
    (options : CreateApprovalOptions) (id : ID) (now : Time) : ApprovalRow where
  id := id
  projectID := record.id
  versionID := version.id
  transitionPreviewID := (preview.map (·.id)).getD 0
  approvalKind := options.approvalKind
  decision := decision
  scopeType := bytes "workflow_version"
  scopeID := version.displayLabel
  actor := options.actor
  reason := options.reason
  riskLevel := options.riskLevel
  metadata :=
    setKeys
      (setKeys
        [(bytes "phase", .text (bytes "v0.3d")), (bytes "preview_found", .flag preview.isSome),
          (bytes "approval_is_execution", .flag false)] options.metadata)
      (match preview with
        | none => []
        | some found =>
            [(bytes "transition_status", .text found.status.name), (bytes "from_stage", .text found.fromStage),
              (bytes "to_stage", .text found.toStage)])
  createdAt := now

def approvalRecordRequestHash (record : ProjectRow) (version : VersionRow) (approval : ApprovalRow) : GoString :=
  codec.sha256Hex (codec.marshal
    [(bytes "command_type", .text (bytes "workflow.approval.record")), (bytes "project_key", .text record.projectKey),
      (bytes "workflow_version_id", .number version.id), (bytes "display_label", .text version.displayLabel),
      (bytes "transition_preview_id", .number approval.transitionPreviewID),
      (bytes "approval_kind", .text approval.approvalKind), (bytes "decision", .text approval.decision.name),
      (bytes "scope_type", .text approval.scopeType), (bytes "scope_id", .text approval.scopeID),
      (bytes "actor", .text approval.actor), (bytes "reason", .text approval.reason),
      (bytes "risk_level", .text approval.riskLevel), (bytes "metadata", .json (codec.marshal approval.metadata))])

def approvalRecordIdempotencyKey (record : ProjectRow) (version : VersionRow) (approval : ApprovalRow)
    (requestHash : GoString) : GoString :=
  colons [bytes "workflow.approval.record", record.projectKey, version.displayLabel, approval.decision.name,
    if approval.transitionPreviewID = 0 then bytes "none" else sprintID approval.transitionPreviewID,
    requestHash.take 16]

end Approval

/-- This is the metadata that the event and the audit row of an approval share. -/
def approvalMetadata (version : VersionRow) (approval : ApprovalRow) : Metadata :=
  [(bytes "approval_record_id", .number approval.id), (bytes "display_label", .text version.displayLabel),
    (bytes "workflow_version_id", .number version.id),
    (bytes "transition_preview_id", .number approval.transitionPreviewID),
    (bytes "approval_kind", .text approval.approvalKind), (bytes "decision", .text approval.decision.name),
    (bytes "actor", .text approval.actor), (bytes "risk_level", .text approval.riskLevel)]

/-- This function stores an approval with its event, its audit row and its command. -/
def storeApproval (db : Database) (record : ProjectRow) (version : VersionRow) (approval : ApprovalRow)
    (idempotencyKey : GoString) (commands : List CommandRow) : Database :=
  { db with
    identity := { db.identity with audits := appendAudit db.identity.audits {
      projectID := some record.id, actorID := none, action := bytes "workflow.approval.record", capability := [],
      resourceType := bytes "workflow_version", resource := version.displayLabel,
      decision := approval.decision.name, reason := approval.reason,
      metadata := approvalMetadata version approval } }
    approvals := db.approvals ++ [approval]
    events := appendEvent db.events {
      projectID := some record.id, runID := none, versionID := some version.id,
      eventType := bytes "workflow.approval.recorded",
      severity := if approval.decision = .rejected then bytes "warning" else bytes "info",
      message := bytes "Workflow approval recorded", metadata := approvalMetadata version approval }
    commands := completeCommandRequestResponse commands record.id (bytes "workflow.approval.record") idempotencyKey
      [(bytes "approval_record_id", .number approval.id), (bytes "event_id", .number (freshID (db.events.map (·.id)))),
        (bytes "audit_event_id", .number (freshID (db.identity.audits.map (·.id)))),
        (bytes "workflow_version_id", .number version.id), (bytes "display_label", .text version.displayLabel),
        (bytes "transition_preview_id", .number approval.transitionPreviewID),
        (bytes "decision", .text approval.decision.name)] }

/-- This function loads the approval of a completed command. -/
def loadApprovalRecordByIdempotency (db : Database) (projectID : ID) (idempotencyKey : GoString) :
    Except WorkflowError ApprovalRow :=
  match db.commands.find? (fun row =>
      row.projectID == projectID && row.commandType == bytes "workflow.approval.record" &&
        row.idempotencyKey == idempotencyKey) with
  | none => .error (.approvalNotFound idempotencyKey)
  | some command =>
      match db.approvals.find? fun approval =>
        metadataGet command.response (bytes "approval_record_id") == some (.number approval.id) with
      | none => .error (.approvalNotFound idempotencyKey)
      | some approval => .ok approval

/-- This is the key of an approval: the given one, or one made from its content. -/
def approvalKey (codec : Codec) (record : ProjectRow) (version : VersionRow) (approval : ApprovalRow)
    (options : CreateApprovalOptions) : GoString :=
  if options.idempotencyKey = [] then
    approvalRecordIdempotencyKey record version approval (approvalRecordRequestHash codec record version approval)
  else options.idempotencyKey

/-- This function records an approval of an authored version from what its queries saw. -/
def createApprovalRecordFrom (codec : Codec) (seen : Sights) (db : Database) (now : Time) (record : ProjectRow)
    (label : GoString) (raw : CreateApprovalOptions) : Except WorkflowError (Database × ApprovalRow) :=
  let options := normalizeCreateApprovalOptions raw
  match checkApproval codec seen record label options with
  | .error failure => .error failure
  | .ok (decision, version, preview) =>
      let approval := buildApprovalRecord record version preview decision options
        (freshID (db.approvals.map (·.id))) now
      let key := approvalKey codec record version approval options
      match reserveCommandRequest db.commands record.id (bytes "workflow.approval.record") key
        (approvalRecordRequestHash codec record version approval) with
      | .conflict => .error (.idempotencyConflict key)
      | .repeated => (loadApprovalRecordByIdempotency db record.id key).map fun found => (db, found)
      | .created commands => .ok (storeApproval db record version approval key commands, approval)

/-- This function records an approval of an authored version. -/
def createApprovalRecord (codec : Codec) (db : Database) (now : Time) (record : ProjectRow) (label : GoString)
    (raw : CreateApprovalOptions) : Except WorkflowError (Database × ApprovalRow) :=
  createApprovalRecordFrom codec (.all db) db now record label raw

end AreaFlow.Project
