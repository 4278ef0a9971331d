import AreaFlow.Construction.Migrate

namespace AreaFlow.Project
open Go Auth

/-- The readiness of a release asks for actions. -/
structure ReleaseRemediationAction where
  key : GoString
  category : GoString
  status : GoString
  sourceItem : GoString
  owner : GoString
  nextCommand : GoString := []
  acceptance : GoString := []
  metadata : Metadata := []
  deriving DecidableEq

structure ReleaseRemediationPlan where
  status : GoString
  actions : List ReleaseRemediationAction
  deriving DecidableEq

/-- An action is decided before a release: it is ready, it needs a decision, or it cannot be accepted. A list of evidence
may be nil. -/
structure ReleaseAcceptanceDecision where
  key : GoString
  sourceAction : GoString := []
  category : GoString
  status : GoString
  acceptanceType : GoString
  owner : GoString
  reason : GoString := []
  requiredEvidence : Option (List GoString)
  nextCommand : GoString := []
  metadata : Metadata := []
  deriving DecidableEq

structure ReleaseAcceptancePreview where
  status : GoString := bytes "ready"
  decisions : List ReleaseAcceptanceDecision := []
  deriving DecidableEq

section Preview

variable (action : ReleaseRemediationAction)

def acceptanceMetadata : Metadata :=
  setKeys action.metadata
    [(bytes "remediation_status", .text action.status), (bytes "remediation_acceptance", .text action.acceptance)]

/-- This is a decision on an action. -/
def decisionOn (status acceptanceType reason : GoString) (evidence : List GoString) : ReleaseAcceptanceDecision where
  key := bytes "accept:" ++ action.sourceItem
  sourceAction := action.key
  category := action.category
  status := status
  acceptanceType := acceptanceType
  owner := action.owner
  reason := reason
  requiredEvidence := some evidence
  nextCommand := action.nextCommand
  metadata := acceptanceMetadata action

def needsDecision (acceptanceType reason : GoString) (evidence : List GoString) : ReleaseAcceptanceDecision :=
  decisionOn action (bytes "needs_decision") acceptanceType reason evidence

def notAcceptableDecision (reason : GoString) : ReleaseAcceptanceDecision :=
  decisionOn action (bytes "not_acceptable") (bytes "none") reason [action.acceptance]

/-- Only gaps in restores, audits and artifacts can be accepted. -/
def acceptanceDecisionForAction : ReleaseAcceptanceDecision :=
  if action.status = bytes "ready" then
    decisionOn action (bytes "ready") (bytes "none") (bytes "source remediation action is already ready") [action.acceptance]
  else if action.status = bytes "blocked" then
    notAcceptableDecision action
      (bytes "blocked release remediation actions must be repaired before release acceptance")
  else if action.category = bytes "restore" then
    needsDecision action (bytes "metadata_only_history")
      (bytes "historical project reference artifacts can be accepted only as an explicit metadata-only release exception")
      [bytes "release notes state which historical artifact originals remain outside AreaFlow-owned storage",
        bytes "archive owner accepts restore limitation", bytes "restore dry-run plan remains reproducible"]
  else if action.category = bytes "audit" then
    needsDecision action (bytes "future_only_gap")
      (bytes "future-only audit gaps can be accepted only when they are disabled capabilities with named owners")
      [bytes "audit coverage lists missing actions",
        bytes "each future-only gap has an owner and enablement milestone",
        bytes "enabled capabilities have no missing audit evidence"]
  else if action.category = bytes "artifact" then
    needsDecision action (bytes "archive_exception")
      (bytes "skipped project-reference artifacts can be accepted only with an explicit archive ownership decision")
      [bytes "artifact integrity lists skipped references",
        bytes "archive owner accepts metadata-only historical references",
        bytes "local AreaFlow-owned artifacts still pass hash and size checks"]
  else if action.category = bytes "permission" then
    notAcceptableDecision action (bytes "permission policy gaps are release blockers and cannot be accepted by preview")
  else if action.category = bytes "conformance" then
    notAcceptableDecision action
      (bytes "adapter/profile conformance gaps are release blockers and cannot be accepted by preview")
  else if action.category = bytes "backup" then
    notAcceptableDecision action (bytes "backup manifest gaps are release blockers and cannot be accepted by preview")
  else notAcceptableDecision action (action.category ++ bytes " remediation has no release acceptance rule")

end Preview

def acceptancePreviewStatusRank (status : GoString) : Nat :=
  if status = bytes "not_acceptable" ∨ status = bytes "blocked" then 3
  else if status = bytes "needs_decision" ∨ status = bytes "needs_attention" then 2
  else if status = bytes "ready" ∨ status = bytes "acceptable" then 1
  else 0

/-- A decision or a gate item without a type has the type `none`. -/
def typedOr (acceptanceType : GoString) : GoString := if acceptanceType = [] then bytes "none" else acceptanceType

/-- A preview takes the worst status of its decisions. -/
def ReleaseAcceptancePreview.addDecision (preview : ReleaseAcceptancePreview) (decision : ReleaseAcceptanceDecision) :
    ReleaseAcceptancePreview where
  decisions := preview.decisions ++ [{ decision with acceptanceType := typedOr decision.acceptanceType }]
  status :=
    if acceptancePreviewStatusRank preview.status < acceptancePreviewStatusRank decision.status then decision.status
    else preview.status

def buildReleaseAcceptancePreview (plan : ReleaseRemediationPlan) : ReleaseAcceptancePreview :=
  let preview := plan.actions.foldl (fun preview action => preview.addDecision (acceptanceDecisionForAction action)) {}
  if preview.decisions = [] ∧ plan.status = bytes "ready" then
    preview.addDecision
      { key := bytes "release_ready", sourceAction := bytes "release_ready", category := bytes "release",
        status := bytes "ready", acceptanceType := bytes "none", owner := bytes "release_owner",
        reason := bytes "release remediation plan has no acceptance candidates",
        requiredEvidence := some [bytes "release readiness remains ready"],
        metadata := [(bytes "remediation_status", .text plan.status)] }
  else preview

/-- The table admits these states of an exception. -/
inductive ExceptionStatus where
  | requested
  | approved
  | rejected
  | revoked
  | expired
  deriving DecidableEq

def ExceptionStatus.name : ExceptionStatus → GoString
  | requested => bytes "requested"
  | approved => bytes "approved"
  | rejected => bytes "rejected"
  | revoked => bytes "revoked"
  | expired => bytes "expired"

structure ReleaseExceptionRow where
  id : ID
  projectID : ID
  exceptionKey : GoString
  sourceGateItem : GoString
  sourceDecision : GoString
  acceptanceType : GoString
  status : ExceptionStatus
  owner : GoString
  reason : GoString
  requiredEvidence : Option (List GoString)
  rollbackPlan : GoString
  reviewRequired : Bool
  reviewAt : Option Time
  expiresAt : Option Time
  requestedBy : GoString
  approvedBy : GoString := []
  revokedBy : GoString := []
  decisionReason : GoString := []
  auditEventID : ID := 0
  metadata : Metadata
  createdAt : Time
  approvedAt : Option Time := none
  revokedAt : Option Time := none
  deriving DecidableEq

/-- These are the tables that the release operations use. The table of exceptions is created by its migration. -/
structure ReleaseTables where
  database : Database := {}
  migrations : Migrate.MigrationDatabase := {}
  exceptions : Table ReleaseExceptionRow (·.id) := {}
  deriving DecidableEq

structure ReleaseAcceptanceGateItem where
  key : GoString
  category : GoString
  status : GoString
  decisionStatus : GoString
  acceptanceType : GoString
  message : GoString
  owner : GoString
  requiredEvidence : Option (List GoString)
  nextCommand : GoString := []
  metadata : Metadata
  deriving DecidableEq

structure ReleaseAcceptanceGate where
  status : GoString := bytes "pass"
  items : List ReleaseAcceptanceGateItem := []
  deriving DecidableEq

section Gate

variable (codec : Codec)

/-- The fingerprint of a gate item is the hash of a JSON object. -/
def releaseExceptionSourceFingerprint (gateItem category acceptanceType owner : GoString)
    (requiredEvidence : Option (List GoString)) : GoString :=
  codec.sha256Hex (Json.object
    [(bytes "acceptance_type", Json.quote acceptanceType), (bytes "category", Json.quote category),
      (bytes "gate_item", Json.quote gateItem), (bytes "owner", Json.quote owner),
      (bytes "required_evidence", Json.strings requiredEvidence)])

/-- This is the fingerprint that a decision has now. -/
def decisionFingerprint (decision : ReleaseAcceptanceDecision) : GoString :=
  releaseExceptionSourceFingerprint codec (bytes "gate:" ++ decision.key) decision.category decision.acceptanceType
    decision.owner decision.requiredEvidence

def matchingEffectiveReleaseException (decision : ReleaseAcceptanceDecision) (exceptions : List ReleaseExceptionRow) :
    Option ReleaseExceptionRow :=
  exceptions.find? fun exception =>
    exception.status == .approved && exception.sourceGateItem == bytes "gate:" ++ decision.key &&
      exception.acceptanceType == decision.acceptanceType &&
      metadataString exception.metadata (bytes "source_fingerprint") == decisionFingerprint codec decision

/-- This is the gate item of a decision. -/
def gateItemOf (decision : ReleaseAcceptanceDecision) (status message : GoString) (metadata : Metadata) :
    ReleaseAcceptanceGateItem where
  key := bytes "gate:" ++ decision.key
  category := decision.category
  status := status
  decisionStatus := decision.status
  acceptanceType := decision.acceptanceType
  message := message
  owner := decision.owner
  requiredEvidence := decision.requiredEvidence
  nextCommand := decision.nextCommand
  metadata := metadata

/-- A decision passes if it is ready or covered by an exception. -/
def acceptanceGateItemForDecision (decision : ReleaseAcceptanceDecision) (exception : Option ReleaseExceptionRow) :
    ReleaseAcceptanceGateItem :=
  let metadata := setKeys decision.metadata
    [(bytes "decision_status", .text decision.status), (bytes "source_action", .text decision.sourceAction)]
  if decision.status = bytes "ready" then
    gateItemOf decision (bytes "pass") (bytes "release acceptance decision is ready") metadata
  else if decision.status = bytes "needs_decision" then
    match exception with
    | some row =>
        { gateItemOf decision (bytes "pass")
            (bytes "release acceptance decision is covered by an effective approved exception")
            (setKeys metadata
              [(bytes "approved_exception_key", .text row.exceptionKey), (bytes "approved_exception_id", .number row.id),
                (bytes "approved_exception_expires_at", .time row.expiresAt),
                (bytes "source_decision_status", .text decision.status)]) with
          decisionStatus := bytes "ready"
          owner := row.owner
          requiredEvidence := some [bytes "approved release exception remains effective and matches the current gate item"]
          nextCommand := bytes "areaflow release acceptance-gate --json" }
    | none =>
        gateItemOf decision (bytes "blocked")
          (bytes "explicit release acceptance evidence is required before this exception can pass") metadata
  else if decision.status = bytes "not_acceptable" then
    gateItemOf decision (bytes "blocked") (bytes "release blocker cannot be accepted and must be remediated") metadata
  else gateItemOf decision (bytes "blocked") (bytes "release acceptance decision has an unknown status") metadata

/-- A blocked item blocks the gate. -/
def ReleaseAcceptanceGate.addItem (gate : ReleaseAcceptanceGate) (item : ReleaseAcceptanceGateItem) :
    ReleaseAcceptanceGate where
  items := gate.items ++ [{ item with acceptanceType := typedOr item.acceptanceType }]
  status := if item.status = bytes "blocked" then bytes "blocked" else gate.status

def buildReleaseAcceptanceGateWithExceptions (preview : ReleaseAcceptancePreview) (exceptions : List ReleaseExceptionRow) :
    ReleaseAcceptanceGate :=
  let gate := preview.decisions.foldl (fun gate decision => gate.addItem
    (acceptanceGateItemForDecision decision (matchingEffectiveReleaseException codec decision exceptions))) {}
  if gate.items = [] then
    gate.addItem
      { key := bytes "release_acceptance", category := bytes "release", status := bytes "blocked",
        decisionStatus := bytes "missing", acceptanceType := bytes "none",
        message := bytes "release acceptance preview produced no decisions", owner := bytes "release_owner",
        requiredEvidence := some [bytes "release acceptance preview contains at least one decision"],
        metadata := [(bytes "preview_status", .text preview.status)] }
  else gate

end Gate

/-- This is the order in which exceptions are listed. -/
def olderException (first second : ReleaseExceptionRow) : Bool :=
  decide (first.createdAt < second.createdAt ∨ first.createdAt = second.createdAt ∧ first.id ≤ second.id)

/-- These are the approved exceptions of a project that have not expired. -/
def effectiveReleaseExceptions (tables : ReleaseTables) (projectID : ID) (moment : Time) : List ReleaseExceptionRow :=
  (tables.exceptions.rows.filter fun row =>
    row.projectID == projectID && row.status == .approved && row.expiresAt.all fun expiry => decide (moment < expiry))
    |>.insertionSort fun first second => olderException first second

structure ReleaseAcceptanceGateOptions where
  generatedAt : Time
  projectID : ID := 0
  projectKey : GoString := []
  deriving DecidableEq

/-- A gate is that of a project, by its key or by its number, or of the platform, which has the number zero here. -/
def resolveReleaseProjectScope (db : Database) (projectID : ID) (projectKey : GoString) : Except StoreError ID :=
  if trimSpace projectKey ≠ [] then
    match db.getByKey (trimSpace projectKey) with
    | none => .error (.failed (bytes "get project " ++ trimSpace projectKey))
    | some record => .ok record.id
  else if 0 < projectID then .ok projectID
  else .ok 0

/-- This function reads the approval of the migration: whether it is applied, and whether its approval is effective. -/
def releaseExceptionApproval (host : Migrate.MigrateHost) (tables : ReleaseTables) : Except StoreError (Bool × Bool) :=
  (do
    let state ← Migrate.currentApproval host tables.migrations Migrate.releaseExceptionMigrationName
    let effective ← Migrate.approvalEffective host Migrate.releaseExceptionMigrationName state
    pure (state.applied, effective) : Except GoString (Bool × Bool)).mapError .failed

/-- This function evaluates the acceptance gate of a release on the decisions of its preview. -/
def releaseAcceptanceGate (codec : Codec) (host : Migrate.MigrateHost) (tables : ReleaseTables)
    (preview : ReleaseAcceptancePreview) (options : ReleaseAcceptanceGateOptions) :
    Except StoreError ReleaseAcceptanceGate := do
  let projectID ← resolveReleaseProjectScope tables.database options.projectID options.projectKey
  if 0 < projectID then
    let (applied, effective) ← releaseExceptionApproval host tables
    let exceptions :=
      if effective && applied then effectiveReleaseExceptions tables projectID options.generatedAt else []
    pure (buildReleaseAcceptanceGateWithExceptions codec preview exceptions)
  else pure (buildReleaseAcceptanceGateWithExceptions codec preview [])

end AreaFlow.Project
