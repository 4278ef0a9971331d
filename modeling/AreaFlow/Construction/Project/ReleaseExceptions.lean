import AreaFlow.Construction.Project.Release
import AreaFlow.Construction.Project.Worker

namespace AreaFlow.Project
open Go Auth

/-- A draft is what a gate item asks to be excepted. -/
structure ReleaseExceptionRecordDraft where
  key : GoString
  sourceGateItem : GoString := []
  sourceDecision : GoString
  acceptanceType : GoString := []
  status : GoString
  owner : GoString
  reason : GoString
  requiredEvidence : Option (List GoString) := none
  rollbackPlan : GoString
  reviewRequired : Bool := false
  metadata : Metadata
  deriving DecidableEq

section Drafts

variable (codec : Codec)

/-- This is the draft of a gate item. -/
def draftOf (item : ReleaseAcceptanceGateItem) (status reason rollbackPlan : GoString) (reviewRequired : Bool) :
    ReleaseExceptionRecordDraft where
  key := bytes "release_exception:" ++ trimPrefix item.key (bytes "gate:accept:")
  sourceGateItem := item.key
  sourceDecision := item.decisionStatus
  acceptanceType := item.acceptanceType
  status := status
  owner := item.owner
  reason := reason
  requiredEvidence := item.requiredEvidence
  rollbackPlan := rollbackPlan
  reviewRequired := reviewRequired
  metadata := setKeys item.metadata
    [(bytes "gate_item_status", .text item.status), (bytes "decision_status", .text item.decisionStatus),
      (bytes "exception_writable", .flag false),
      (bytes "source_fingerprint", .text (releaseExceptionSourceFingerprint codec item.key item.category
        item.acceptanceType item.owner item.requiredEvidence))]

/-- Only an item that needs a decision can be requested. -/
def releaseExceptionDraftForGateItem (item : ReleaseAcceptanceGateItem) : ReleaseExceptionRecordDraft :=
  if item.decisionStatus = bytes "needs_decision" then
    draftOf codec item (bytes "draft") item.message
      (bytes "revoke the exception record and rerun release acceptance gate before release apply") true
  else if item.decisionStatus = bytes "ready" then
    draftOf codec item (bytes "not_required") (bytes "release acceptance gate item already passes")
      (bytes "no exception rollback required") false
  else
    draftOf codec item (bytes "blocked")
      (bytes "release gate item cannot produce an exception record until the blocker is remediated")
      (bytes "repair the source blocker and regenerate the exception record preview") true

/-- These are the drafts of a gate. -/
def releaseExceptionDrafts (gate : ReleaseAcceptanceGate) : List ReleaseExceptionRecordDraft :=
  if gate.items = [] then
    [{ key := bytes "release_exception:none", sourceDecision := bytes "missing", status := bytes "blocked",
       owner := bytes "release_owner", reason := bytes "release exception record preview has no gate items to draft",
       rollbackPlan := bytes "rerun release acceptance gate after restoring release readiness inputs",
       metadata := [] }]
  else gate.items.map (releaseExceptionDraftForGateItem codec)

def releaseExceptionDraftByKey (drafts : List ReleaseExceptionRecordDraft) (key : GoString) :
    Option ReleaseExceptionRecordDraft :=
  drafts.find? fun draft => draft.key == key

end Drafts

structure RequestReleaseExceptionOptions where
  exceptionKey : GoString
  actor : GoString
  reason : GoString
  owner : GoString := []
  reviewAt : Option Time := none
  expiresAt : Option Time := none
  idempotencyKey : GoString := []
  deriving DecidableEq

structure DecideReleaseExceptionOptions where
  exceptionKey : GoString
  actor : GoString
  reason : GoString
  idempotencyKey : GoString := []
  deriving DecidableEq

/-- An exception is approved or revoked. -/
inductive ExceptionDecision where
  | approve
  | revoke
  deriving DecidableEq

namespace ExceptionDecision

def commandType : ExceptionDecision → GoString
  | approve => bytes "release.exception.approve"
  | revoke => bytes "release.exception.revoke"

def targetStatus : ExceptionDecision → ExceptionStatus
  | approve => .approved
  | revoke => .revoked

end ExceptionDecision

def releaseExceptionRequestCommandType : GoString := bytes "release.exception.request"

/-- The operations return the row of an exception with the key of the command. -/
structure ReleaseExceptionRecord where
  row : ReleaseExceptionRow
  idempotencyKey : GoString
  created : Bool
  deriving DecidableEq

section Keys

variable (codec : Codec) (record : ProjectRow)

def releaseExceptionRequestHash (options : RequestReleaseExceptionOptions) (draft : ReleaseExceptionRecordDraft) : GoString :=
  requestHash codec
    [(bytes "project_id", .number record.id), (bytes "exception_key", .text options.exceptionKey),
      (bytes "actor", .text options.actor), (bytes "reason", .text options.reason), (bytes "owner", .text options.owner),
      (bytes "review_at", .time options.reviewAt), (bytes "expires_at", .time options.expiresAt),
      (bytes "source_gate_item", .text draft.sourceGateItem), (bytes "acceptance_type", .text draft.acceptanceType)]

def releaseExceptionDecisionHash (options : DecideReleaseExceptionOptions) (status : ExceptionStatus) : GoString :=
  requestHash codec
    [(bytes "project_id", .number record.id), (bytes "exception_key", .text options.exceptionKey),
      (bytes "actor", .text options.actor), (bytes "reason", .text options.reason), (bytes "status", .text status.name)]

def releaseExceptionIdempotencyKey (commandType projectKey exceptionKey hash : GoString) : GoString :=
  colons [commandType, projectKey, exceptionKey, hash.take 12]

end Keys

def validateReleaseExceptionTransition (current : ExceptionStatus) (decision : ExceptionDecision) : Bool :=
  match decision with
  | .approve => current == .requested
  | .revoke => current == .requested || current == .approved

/-- A release operation is a transaction on the release tables. -/
abbrev ReleaseCommand (Answer : Type) : Type := Tx Unit ReleaseTables StoreError Answer

/-- This is a command on the database as one on the release tables. -/
def onReleaseDatabase {A : Type} (command : Command Unit A) : ReleaseCommand A :=
  Tx.within (·.database) (fun database tables => { tables with database := database }) command

section Operations

variable (codec : Codec) (host : Migrate.MigrateHost) (now : Time) (record : ProjectRow)

/-- The row that a key names in a project. -/
def ReleaseTables.exceptionAt (tables : ReleaseTables) (projectID : ID) (exceptionKey : GoString) :
    Option ReleaseExceptionRow :=
  tables.exceptions.rows.find? fun row => row.projectID == projectID && row.exceptionKey == exceptionKey

/-- The table admits these types of acceptance only. -/
def acceptanceTypes : List GoString :=
  [bytes "metadata_only_history", bytes "future_only_gap", bytes "archive_exception"]

/-- A request stores this row under the key of its draft. -/
def requestedException (options : RequestReleaseExceptionOptions) (draft : ReleaseExceptionRecordDraft) (createdAt : Time)
    (auditEventID id : ID) : ReleaseExceptionRow where
  id := id
  projectID := record.id
  exceptionKey := draft.key
  sourceGateItem := draft.sourceGateItem
  sourceDecision := draft.sourceDecision
  acceptanceType := draft.acceptanceType
  status := .requested
  owner := options.owner
  reason := options.reason
  requiredEvidence := draft.requiredEvidence
  rollbackPlan := draft.rollbackPlan
  reviewRequired := draft.reviewRequired
  reviewAt := options.reviewAt
  expiresAt := options.expiresAt
  requestedBy := options.actor
  auditEventID := auditEventID
  metadata := draft.metadata
  createdAt := createdAt

/-- A request may take the place of an exception with one of these states. -/
def ExceptionStatus.ended : ExceptionStatus → Bool
  | revoked => true
  | rejected => true
  | expired => true
  | _ => false

def upsertRequestedReleaseException (options : RequestReleaseExceptionOptions) (draft : ReleaseExceptionRecordDraft) :
    ReleaseCommand ReleaseExceptionRow := fun files tables =>
  if draft.acceptanceType ∉ acceptanceTypes then
    (files, .error (.failed (bytes "request release exception: acceptance type check")))
  else
    match tables.exceptionAt record.id draft.key with
    | none =>
        let new : Table.New ReleaseExceptionRow (·.id) :=
          ⟨fun id => requestedException record options draft now 0 id, fun _ => rfl⟩
        (files, .ok (tables.exceptions.next new, { tables with exceptions := tables.exceptions.insert new }))
    | some old =>
        if old.status.ended then
          let change : Table.Change ReleaseExceptionRow (·.id) :=
            ⟨fun row => requestedException record options draft row.createdAt row.auditEventID row.id, fun _ => rfl⟩
          (files, .ok (change.apply old,
            { tables with exceptions := tables.exceptions.update (·.id == old.id) change }))
        else (files, .error (.failed (bytes "release exception " ++ draft.key ++ bytes " is already active")))

/-- This step changes one exception. -/
def updateException (id : ID) (change : Table.Change ReleaseExceptionRow (·.id)) : ReleaseCommand Unit :=
  Tx.write fun tables => ((), { tables with exceptions := tables.exceptions.update (·.id == id) change })

def insertReleaseExceptionAuditEvent (row : ReleaseExceptionRow) (actor reason action : GoString) : ReleaseCommand ID :=
  onReleaseDatabase (insertAuditEvent
    { projectID := some row.projectID, actorID := none, action := action, capability := bytes "release_exception",
      resourceType := bytes "release_exception", resource := row.exceptionKey, decision := bytes "allowed",
      reason := reason, metadata :=
        [(bytes "exception_id", .number row.id), (bytes "exception_key", .text row.exceptionKey),
          (bytes "acceptance_type", .text row.acceptanceType), (bytes "status", .text row.status.name),
          (bytes "actor", .text actor), (bytes "source_gate_item", .text row.sourceGateItem)] })

def releaseExceptionCommandResponse (row : ReleaseExceptionRow) : Metadata :=
  [(bytes "release_exception_id", .number row.id), (bytes "exception_key", .text row.exceptionKey),
    (bytes "status", .text row.status.name), (bytes "audit_event_id", .number row.auditEventID)]

/-- A changed exception is audited, bound to its audit row, and answered. -/
def recordException (row : ReleaseExceptionRow) (actor reason commandType idempotencyKey : GoString) :
    ReleaseCommand ReleaseExceptionRecord := do
  let auditID ← insertReleaseExceptionAuditEvent row actor reason commandType
  let bound := { row with auditEventID := auditID }
  updateException row.id ⟨fun row => { row with auditEventID := auditID }, fun _ => rfl⟩
  onReleaseDatabase (complete record.id commandType idempotencyKey (releaseExceptionCommandResponse bound))
  pure { row := bound, idempotencyKey := idempotencyKey, created := true }

/-- A repeated command is answered from the row that its response names. -/
def loadReleaseExceptionCommandResult (commandType idempotencyKey : GoString) : ReleaseCommand ReleaseExceptionRecord := do
  let response ← Tx.check fun tables =>
    match tables.database.command record.id commandType idempotencyKey with
    | none => .error (.failed (bytes "load release exception command response"))
    | some command => .ok command.response
  let row ← Tx.check fun tables =>
    match tables.exceptions.rows.find? (·.id == metadataInt64 response (bytes "release_exception_id")) with
    | none => .error (.failed (bytes "load idempotent release exception"))
    | some row => .ok row
  pure { row := row, idempotencyKey := idempotencyKey, created := false }

/-- A new command runs its body; a repeated one is answered from its stored response, which ends without a commit. -/
def onceReleased (commandType idempotencyKey hash : GoString) (body : ReleaseCommand ReleaseExceptionRecord) :
    ReleaseCommand ReleaseExceptionRecord := do
  let created ← onReleaseDatabase (reserve record.id commandType idempotencyKey hash)
  if created then body else loadReleaseExceptionCommandResult record commandType idempotencyKey

/-- These are the trimmed options of a request. -/
def trimRequest (options : RequestReleaseExceptionOptions) : RequestReleaseExceptionOptions :=
  { options with
    exceptionKey := trimSpace options.exceptionKey
    actor := trimSpace options.actor
    reason := trimSpace options.reason
    owner := trimSpace options.owner }

/-- This operation requests an exception for a draft of the current gate. -/
def requestReleaseException (plan : ReleaseRemediationPlan) (raw : RequestReleaseExceptionOptions) :
    ReleaseCommand ReleaseExceptionRecord :=
  let trimmed := trimRequest raw
  if trimmed.exceptionKey = [] ∨ trimmed.actor = [] ∨ trimmed.reason = [] then
    Tx.fail (.failed (bytes "exception key, actor and reason are required"))
  else if trimmed.expiresAt.any fun expiry => decide (expiry ≤ now) then
    Tx.fail (.failed (bytes "release exception expiry must be in the future"))
  else do
    let (applied, effective) ← Tx.check fun tables => releaseExceptionApproval host tables
    if !(effective && applied) then
      Tx.fail (.failed (bytes "release exception migration must be applied with an effective approval"))
    else do
      let gate ← Tx.check fun tables => releaseAcceptanceGate codec host tables (buildReleaseAcceptancePreview plan)
        { generatedAt := now, projectID := record.id, projectKey := record.projectKey }
      match releaseExceptionDraftByKey (releaseExceptionDrafts codec gate) trimmed.exceptionKey with
      | none =>
          Tx.fail (.failed (bytes "requestable release exception draft not found: " ++ trimmed.exceptionKey))
      | some draft =>
          if draft.status ≠ bytes "draft" then
            Tx.fail (.failed (bytes "requestable release exception draft not found: " ++ trimmed.exceptionKey))
          else
            let owned := { trimmed with owner := if trimmed.owner = [] then draft.owner else trimmed.owner }
            let hash := releaseExceptionRequestHash codec record owned draft
            let key := keyOr owned.idempotencyKey (releaseExceptionIdempotencyKey releaseExceptionRequestCommandType
              record.projectKey owned.exceptionKey hash)
            onceReleased record releaseExceptionRequestCommandType key hash (do
              let row ← upsertRequestedReleaseException now record owned draft
              recordException record row owned.actor owned.reason releaseExceptionRequestCommandType key)

/-- This is an exception after a decision. -/
def decidedException (decision : ExceptionDecision) (options : DecideReleaseExceptionOptions) (row : ReleaseExceptionRow) :
    ReleaseExceptionRow :=
  match decision with
  | .approve =>
      { row with status := .approved, decisionReason := options.reason, approvedBy := options.actor, approvedAt := some now }
  | .revoke =>
      { row with status := .revoked, decisionReason := options.reason, revokedBy := options.actor, revokedAt := some now }

theorem decidedException_id (decision : ExceptionDecision) (options : DecideReleaseExceptionOptions)
    (row : ReleaseExceptionRow) : (decidedException now decision options row).id = row.id := by
  cases decision <;> rfl

/-- A revocation needs the applied migration only; an approval needs the effective approval of the migration too. -/
def decideReleaseException (decision : ExceptionDecision) (raw : DecideReleaseExceptionOptions) :
    ReleaseCommand ReleaseExceptionRecord :=
  let options := { raw with
    exceptionKey := trimSpace raw.exceptionKey, actor := trimSpace raw.actor, reason := trimSpace raw.reason }
  if options.exceptionKey = [] ∨ options.actor = [] ∨ options.reason = [] then
    Tx.fail (.failed (bytes "exception key, actor and reason are required"))
  else do
    let (applied, effective) ← Tx.check fun tables => releaseExceptionApproval host tables
    if !applied || (decision.targetStatus != .revoked && !effective) then
      Tx.fail (.failed (bytes "release exception writes are disabled without an effective applied migration approval"))
    else
      let hash := releaseExceptionDecisionHash codec record options decision.targetStatus
      let key := keyOr options.idempotencyKey
        (releaseExceptionIdempotencyKey decision.commandType record.projectKey options.exceptionKey hash)
      onceReleased record decision.commandType key hash (do
        let current ← Tx.check fun tables =>
          match tables.exceptionAt record.id options.exceptionKey with
          | none => .error (.failed (bytes "release exception not found: " ++ options.exceptionKey))
          | some row => .ok row
        if !validateReleaseExceptionTransition current.status decision then
          Tx.fail (.failed (bytes "invalid release exception transition " ++ current.status.name ++ bytes " -> " ++
            decision.targetStatus.name))
        else do
          updateException current.id ⟨decidedException now decision options, decidedException_id now decision options⟩
          recordException record (decidedException now decision options current) options.actor options.reason
            decision.commandType key)

/-- This operation approves a requested exception. -/
def approveReleaseException (options : DecideReleaseExceptionOptions) : ReleaseCommand ReleaseExceptionRecord :=
  decideReleaseException codec host now record .approve options

/-- This operation revokes a requested or approved exception. -/
def revokeReleaseException (options : DecideReleaseExceptionOptions) : ReleaseCommand ReleaseExceptionRecord :=
  decideReleaseException codec host now record .revoke options

end Operations

end AreaFlow.Project
