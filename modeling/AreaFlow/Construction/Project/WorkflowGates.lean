import AreaFlow.Construction.Project.Commands

namespace AreaFlow.Project
open Go Auth

/-- These are the gates of a workflow version. -/
inductive GateName where
  | discussionGate
  | planDoctor
  | draftDoctor
  | queueDoctor
  | promotionPreview
  | approvalGate
  | liveMappingGate
  | cutoverReadinessGate
  | profileBindingDrift
  deriving DecidableEq

/-- A gate needs an item of a stage and a type; the name stands in its messages. -/
structure RequiredItem where
  stage : GoString
  itemType : GoString
  name : GoString
  deriving DecidableEq

namespace GateName

def name : GateName → GoString
  | discussionGate => bytes "discussion_gate"
  | planDoctor => bytes "plan_doctor"
  | draftDoctor => bytes "draft_doctor"
  | queueDoctor => bytes "queue_doctor"
  | promotionPreview => bytes "promotion_preview"
  | approvalGate => bytes "approval_gate"
  | liveMappingGate => bytes "live_mapping_gate"
  | cutoverReadinessGate => bytes "cutover_readiness_gate"
  | profileBindingDrift => bytes "profile_binding_drift"

def ofName (name : GoString) : Option GateName :=
  [discussionGate, planDoctor, draftDoctor, queueDoctor, promotionPreview, approvalGate, liveMappingGate,
    cutoverReadinessGate, profileBindingDrift].find? fun gate => gate.name == name

def phase : GateName → GoString
  | discussionGate | planDoctor | draftDoctor | queueDoctor | promotionPreview => bytes "v0.3c"
  | approvalGate | liveMappingGate | profileBindingDrift => bytes "v0.4"
  | cutoverReadinessGate => bytes "v0.4c"

/-- This is the stage and the type of the item that a gate is about. -/
def target : GateName → GoString × GoString
  | discussionGate => (bytes "discussion", bytes "discussion_package")
  | planDoctor => (bytes "plans", bytes "plan")
  | draftDoctor => (bytes "drafts", bytes "draft_manifest")
  | queueDoctor => (bytes "queue", bytes "queue_candidate")
  | promotionPreview => (bytes "promotion_preview", bytes "promotion_preview")
  | approvalGate => (bytes "approval", bytes "approval_record")
  | liveMappingGate => (bytes "approval", bytes "live_mapping")
  | cutoverReadinessGate => (bytes "approval", bytes "cutover_readiness")
  | profileBindingDrift => (bytes "version_init", bytes "profile_binding")

def requiredItems : GateName → List RequiredItem
  | discussionGate =>
      [⟨bytes "discussion", bytes "discussion_package", bytes "discussion package"⟩,
        ⟨bytes "middle_layer", bytes "middle_layer_ledger", bytes "middle_layer ledger"⟩,
        ⟨bytes "changes", bytes "change_ledger", bytes "changes ledger"⟩]
  | planDoctor =>
      [⟨bytes "middle_layer", bytes "middle_layer_ledger", bytes "middle_layer ledger"⟩,
        ⟨bytes "changes", bytes "change_ledger", bytes "changes ledger"⟩,
        ⟨bytes "plans", bytes "plan", bytes "plan draft"⟩]
  | draftDoctor =>
      [⟨bytes "plans", bytes "plan", bytes "plan draft"⟩,
        ⟨bytes "drafts", bytes "draft_manifest", bytes "draft manifest"⟩,
        ⟨bytes "drafts", bytes "draft_copy", bytes "copy-ready draft"⟩,
        ⟨bytes "drafts", bytes "draft_verify", bytes "verify-ready draft"⟩]
  | queueDoctor =>
      [⟨bytes "drafts", bytes "draft_manifest", bytes "draft manifest"⟩,
        ⟨bytes "drafts", bytes "draft_copy", bytes "copy-ready draft"⟩,
        ⟨bytes "drafts", bytes "draft_verify", bytes "verify-ready draft"⟩,
        ⟨bytes "queue", bytes "queue_candidate", bytes "queue candidate"⟩]
  | promotionPreview =>
      [⟨bytes "queue", bytes "queue_candidate", bytes "queue candidate"⟩,
        ⟨bytes "promotion_preview", bytes "promotion_preview", bytes "promotion preview"⟩]
  | approvalGate | liveMappingGate | cutoverReadinessGate | profileBindingDrift => []

def placeholderFailure : GateName → GoString
  | discussionGate =>
      bytes "discussion artifact is placeholder-only; Exact Docs, open questions, and risk boundaries are not proven yet"
  | planDoctor =>
      bytes "plan artifact is placeholder-only; dependencies, ordered steps, validation, and rollback wording are not proven yet"
  | draftDoctor =>
      bytes "draft artifacts are placeholder-only; copy-ready, verify-ready, and manifest boundaries are not proven yet"
  | queueDoctor =>
      bytes "queue artifact is placeholder-only; labels, dependencies, readiness, and ordering are not proven yet"
  | promotionPreview =>
      bytes "promotion preview artifact is placeholder-only; live mapping, collision checks, and scope checks are not proven yet"
  | approvalGate | liveMappingGate | cutoverReadinessGate | profileBindingDrift => []

end GateName

structure RunGateOptions where
  gateName : GoString
  actor : GoString := []
  reason : GoString := []
  idempotencyKey : GoString := []
  deriving DecidableEq

def normalizeRunGateOptions (options : RunGateOptions) : RunGateOptions where
  gateName := textOr (bytes "discussion_gate") options.gateName
  actor := textOr (bytes "local-user") options.actor
  reason := textOr (bytes "run workflow gate") options.reason
  idempotencyKey := options.idempotencyKey

/-- This is what the cutover gate uses of the readiness of a project. -/
structure CutoverReadiness where
  passed : Bool
  blockers : List GoString
  acceptedWarnings : List GoString
  inputs : Metadata
  importHash : GoString
  deriving DecidableEq

/-- This record holds what the gates use of their host: the encoders, the built-in profiles and the readiness checks. -/
structure GateHost where
  codec : Codec
  profileRootError : Option GoString
  loadProfile : GoString → Except GoString ProfileBinding
  cutoverReadiness : Database → ProjectRow → GoString → Except WorkflowError CutoverReadiness

section Evaluation

variable (record : ProjectRow) (version : VersionRow) (options : RunGateOptions)

/-- This is the result of a gate with what all gates store. -/
def gateResult (gate : GateName) (status : GoString) (failures warnings : List GoString) (inputs sourceHashes : Metadata)
    (itemID : Option ID) (id : ID) (now : Time) : GateRow where
  id := id
  projectID := record.id
  versionID := version.id
  gateName := gate.name
  status := status
  checkedAt := now
  itemID := itemID
  scopeType := bytes "workflow_version"
  scopeID := version.displayLabel
  inputs := fields
    [[(bytes "workflow_profile", .text record.workflowProfile), (bytes "display_label", .text version.displayLabel)],
      inputs]
  sourceHashes := sourceHashes
  failures := failures
  warnings := warnings
  metadata :=
    [(bytes "actor", .text options.actor), (bytes "reason", .text options.reason), (bytes "phase", .text gate.phase),
      (bytes "target_stage", .text gate.target.1), (bytes "target_item", .text gate.target.2)]

/-- These are the items of a version, the oldest first. -/
def listWorkflowItems (db : Database) : List ItemRow :=
  (db.items.filter fun item => item.projectID == record.id && item.versionID == version.id).insertionSort
    fun first second => first.createdAt < second.createdAt ∨ first.createdAt = second.createdAt ∧ first.id ≤ second.id

def findWorkflowItem (items : List ItemRow) (stage itemType : GoString) : Option ItemRow :=
  items.find? fun item => item.stage == stage && item.itemType == itemType

/-- An item without a source that is a draft, is blocked or was made by the skeleton is a placeholder. -/
def isStageSkeletonPlaceholder (item : ItemRow) : Bool :=
  item.sourceHash == [] &&
    (item.status == bytes "draft" || item.status == bytes "blocked" ||
      metadataString item.metadata (bytes "owned_by") == bytes "areaflow" &&
        hasPrefix (metadataString item.metadata (bytes "phase")) (bytes "v0.3"))

/-- A gate on items passes if all of them are there and none is a placeholder. -/
def evaluateWorkflowGate (items : List ItemRow) (gate : GateName) (id : ID) (now : Time) : GateRow :=
  let found (item : RequiredItem) := findWorkflowItem items item.stage item.itemType
  let missing := (gate.requiredItems.filter fun item => (found item).isNone).map (·.name)
  let placeholders := (gate.requiredItems.filter fun item => (found item).any isStageSkeletonPlaceholder).map (·.name)
  let hashed := (gate.requiredItems.filterMap found).filter fun item => item.sourceHash != []
  let status := if missing ≠ [] then bytes "blocked" else if placeholders ≠ [] then bytes "fail" else bytes "pass"
  gateResult record version options gate status
    (missing.map (· ++ bytes " workflow item is missing") ++
      if missing = [] ∧ placeholders ≠ [] then [gate.placeholderFailure] else [])
    (if missing = [] then [bytes "v0.3c does not mutate workflow item status from gate checks"] else [])
    [(bytes "item_count", .number items.length), (bytes "required_items", .texts (gate.requiredItems.map (·.name))),
      (bytes "missing_items", .texts missing), (bytes "placeholder_items", .texts placeholders)]
    (setKeys [] (hashed.map fun item => (item.externalKey, .text item.sourceHash)))
    ((findWorkflowItem items gate.target.1 gate.target.2).map (·.id)) id now

/-- A gate without failures passes. -/
def passUnless (failures : List GoString) : GoString := if failures = [] then bytes "pass" else bytes "blocked"

/-- These are the identifier and the status of a preview in the inputs of a gate. -/
def previewInputs (preview : Option PreviewRow) : Metadata :=
  [(bytes "transition_preview_id", .number ((preview.map (·.id)).getD 0)),
    (bytes "transition_status", .text ((preview.map (·.status.name)).getD []))]

/-- These are the identifier and the decision of an approval in the inputs of a gate. -/
def approvalInputs (approval : Option ApprovalRow) : Metadata :=
  [(bytes "approval_record_id", .number ((approval.map (·.id)).getD 0)),
    (bytes "approval_decision", .text ((approval.map (·.decision.name)).getD []))]

def approvalGateFailures (approval : Option ApprovalRow) (preview : Option PreviewRow) : List GoString :=
  match approval with
  | none => [bytes "missing approval record"]
  | some found =>
      (if found.decision ≠ .approved then [bytes "latest approval decision is " ++ found.decision.name] else []) ++
        match preview with
        | none => [bytes "approval is not linked to a transition preview"]
        | some linked =>
            if linked.status ≠ .ready then [bytes "linked transition preview status is " ++ linked.status.name] else []

/-- The approval gate looks at the latest approval and its preview. -/
def evaluateApprovalGate (approval : Option ApprovalRow) (preview : Option PreviewRow) (id : ID) (now : Time) : GateRow :=
  let failures := approvalGateFailures approval preview
  gateResult record version options .approvalGate (passUnless failures) failures
    [bytes "approval gate is read-only; it does not promote or execute"]
    (fields [[(bytes "approval_found", .flag approval.isSome)], approvalInputs approval,
      -- the preview is named only beside an approval
      [(bytes "transition_preview_id", .number (if approval.isSome then (preview.map (·.id)).getD 0 else 0)),
        (bytes "transition_status", .text ((preview.map (·.status.name)).getD []))]]) [] none id now

def liveMappingFailures (approval : Option ApprovalRow) (preview : Option PreviewRow) (promotion : Option GateRow) :
    List GoString :=
  (if approval.map (·.decision) ≠ some .approved then [bytes "approval_gate has not passed"] else []) ++
    (match preview with
      | none => [bytes "missing transition preview"]
      | some linked =>
          if linked.status ≠ .ready then [bytes "transition preview status is " ++ linked.status.name] else []) ++
    match promotion with
    | none => [bytes "missing promotion_preview gate result"]
    | some gate =>
        if gate.status ≠ bytes "pass" then [bytes "promotion_preview gate status is " ++ gate.status] else []

/-- The live mapping gate looks at the latest approval, its preview and the latest promotion preview result. -/
def evaluateLiveMappingGate (approval : Option ApprovalRow) (preview : Option PreviewRow) (promotion : Option GateRow)
    (id : ID) (now : Time) : GateRow :=
  let failures := liveMappingFailures approval preview promotion
  gateResult record version options .liveMappingGate (passUnless failures) failures
    [bytes "live mapping gate is read-only in v0.4; it does not write execution"]
    (fields [approvalInputs approval, previewInputs preview,
      [(bytes "promotion_gate_result_id", .number ((promotion.map (·.id)).getD 0)),
        (bytes "promotion_gate_status", .text ((promotion.map (·.status)).getD [])),
        (bytes "execution_write_attempted", .flag false)]]) [] none id now

/-- A binding counts only with an identifier and a hash. -/
def workflowVersionProfileBinding : Option ProfileBinding :=
  version.profileBinding.filter fun binding => binding.profileID != [] && binding.profileHash != []

/-- These warnings tell how the current profile differs from the frozen one. -/
def driftWarnings (frozen current : ProfileBinding) : List GoString :=
  (if frozen.profileID ≠ current.profileID then
    [bytes "profile id drift: frozen=" ++ frozen.profileID ++ bytes " current=" ++ current.profileID] else []) ++
  (if frozen.profileVersion ≠ current.profileVersion then
    [bytes "profile version drift: frozen=" ++ sprintID frozen.profileVersion ++ bytes " current=" ++
      sprintID current.profileVersion] else []) ++
  if frozen.profileHash ≠ current.profileHash then
    [bytes "profile hash drift detected; explicit profile migration is required before silently changing gate rules"]
  else []

/-- The fields of a binding in the inputs of the drift gate. -/
def bindingInputs (which : GoString) (binding : ProfileBinding) : Metadata :=
  [(which ++ bytes "_profile_id", .text binding.profileID),
    (which ++ bytes "_profile_version", .number binding.profileVersion),
    (which ++ bytes "_profile_hash", .text binding.profileHash),
    (which ++ bytes "_profile_path", .text binding.profilePath)]

/-- The drift gate compares the frozen profile of a version with the built-in one. -/
def evaluateProfileBindingDriftGate (host : GateHost) (id : ID) (now : Time) : GateRow :=
  let blank : ProfileBinding := ⟨[], 0, [], []⟩
  let readOnly := bytes "profile binding drift gate is read-only; it does not migrate or rewrite workflow versions"
  let result (status : GoString) (failures warnings : List GoString) (frozen current : ProfileBinding)
      (found loaded : Bool) (problem : GoString) : GateRow :=
    gateResult record version options .profileBindingDrift status failures (readOnly :: warnings)
      (fields [[(bytes "binding_found", .flag found), (bytes "current_profile_found", .flag loaded),
        (bytes "current_profile_error", .text problem)], bindingInputs (bytes "frozen") frozen,
        bindingInputs (bytes "current") current, [(bytes "profile_migration_done", .flag false)]])
      [(bytes "frozen_profile_hash", .text frozen.profileHash), (bytes "current_profile_hash", .text current.profileHash)]
      none id now
  match workflowVersionProfileBinding version with
  | none =>
      result (bytes "blocked") [bytes "workflow version has no frozen profile_binding"] []
        (version.profileBinding.getD blank) { blank with profileID := record.workflowProfile } false false []
  | some frozen =>
      let unloaded (problem : GoString) (current : ProfileBinding) : GateRow :=
        let text := if problem = [] then bytes "current profile binding could not be loaded" else problem
        result (bytes "blocked") [text] [] frozen current true false text
      match host.profileRootError, host.loadProfile frozen.profileID with
      | some problem, _ => unloaded problem blank
      | none, .error problem => unloaded problem { blank with profileID := frozen.profileID }
      | none, .ok current =>
          let warnings := driftWarnings frozen current
          result (if warnings = [] then bytes "pass" else bytes "warn") [] warnings frozen current true true []

/-- The cutover gate stores what the readiness checks of the project said. -/
def evaluateCutoverReadinessGate (readiness : CutoverReadiness) (id : ID) (now : Time) : GateRow :=
  gateResult record version options .cutoverReadinessGate (if readiness.passed then bytes "pass" else bytes "blocked")
    readiness.blockers
    (bytes "cutover readiness gate is read-only in v0.4c; it does not apply cutover or write execution" ::
      readiness.acceptedWarnings)
    readiness.inputs [(bytes "latest_import", .text readiness.importHash)] none id now

end Evaluation

section Run

variable (host : GateHost) (seen : Sights)

/-- This is the preview of an approval; without an approval it is the latest one. -/
def approvalPreview (record : ProjectRow) (version : VersionRow) (approval : Option ApprovalRow) : Option PreviewRow :=
  resolveApprovalTransitionPreview seen.preview record.id version.id ((approval.map (·.transitionPreviewID)).getD 0)

/-- This function evaluates a gate from what its queries saw. -/
def evaluateGate (record : ProjectRow) (version : VersionRow) (gate : GateName) (options : RunGateOptions) (id : ID)
    (now : Time) : Except WorkflowError GateRow :=
  let approval := latestApprovalRecord seen.approval record.id version.id
  match gate with
  | .profileBindingDrift => .ok (evaluateProfileBindingDriftGate record version options host id now)
  | .approvalGate =>
      .ok (evaluateApprovalGate record version options approval (approvalPreview seen record version approval) id now)
  | .liveMappingGate =>
      .ok (evaluateLiveMappingGate record version options approval (approvalPreview seen record version approval)
        (latestGateResult seen.gate record.id version.id (bytes "promotion_preview")) id now)
  | .cutoverReadinessGate =>
      (host.cutoverReadiness seen.items record version.displayLabel).map fun readiness =>
        evaluateCutoverReadinessGate record version options readiness id now
  | gate => .ok (evaluateWorkflowGate record version options (listWorkflowItems record version seen.items) gate id now)

def workflowGateIdempotencyKey (record : ProjectRow) (version : VersionRow) (gate : GateName) (options : RunGateOptions)
    (now : Time) (sequence : Nat) : GoString :=
  let payload := colons [record.projectKey, version.displayLabel, gate.name, options.actor, options.reason]
  colons [bytes "workflow.gate.run", record.projectKey, version.displayLabel, gate.name, sprintID now,
    sprintID sequence, (host.codec.sha256Hex payload).take 16]

def workflowGateRequestHash (record : ProjectRow) (version : VersionRow) (result : GateRow) (options : RunGateOptions) :
    GoString :=
  host.codec.sha256Hex (host.codec.marshal
    [(bytes "command_type", .text (bytes "workflow.gate.run")), (bytes "project_key", .text record.projectKey),
      (bytes "workflow_version_id", .number version.id), (bytes "display_label", .text version.displayLabel),
      (bytes "gate_name", .text result.gateName), (bytes "scope_type", .text result.scopeType),
      (bytes "scope_id", .text result.scopeID), (bytes "status", .text result.status),
      (bytes "inputs", .json (host.codec.marshal result.inputs)),
      (bytes "source_hashes", .json (host.codec.marshal result.sourceHashes)),
      (bytes "failures", .texts result.failures), (bytes "warnings", .texts result.warnings),
      (bytes "actor", .text options.actor), (bytes "reason", .text options.reason), (bytes "read_only", .flag true)])

def workflowGateCommandResponse (result : GateRow) (eventID auditEventID : ID) : Metadata :=
  [(bytes "gate_result_id", .number result.id), (bytes "event_id", .number eventID),
    (bytes "audit_event_id", .number auditEventID), (bytes "workflow_version_id", .number result.versionID),
    (bytes "gate_name", .text result.gateName), (bytes "status", .text result.status),
    (bytes "scope_type", .text result.scopeType), (bytes "scope_id", .text result.scopeID),
    (bytes "project_write_attempted", .flag false),
    (bytes "execution_write_attempted", .flag (metadataBool result.inputs (bytes "execution_write_attempted"))),
    (bytes "read_only", .flag true)]

/-- A failed gate is logged as an error, and a gate with a warning as a warning. -/
def gateSeverity (status : GoString) : GoString :=
  if status = bytes "fail" then bytes "error" else if status = bytes "warn" then bytes "warning" else bytes "info"

/-- This function stores a gate result with its event, its audit row and its command. -/
def storeGate (db : Database) (record : ProjectRow) (version : VersionRow) (options : RunGateOptions) (result : GateRow)
    (idempotencyKey : GoString) (commands : List CommandRow) : Database :=
  { db with
    identity := { db.identity with audits := appendAudit db.identity.audits {
      projectID := some record.id, actorID := none, action := bytes "workflow.gate.run", capability := [],
      resourceType := bytes "workflow_gate", resource := version.displayLabel ++ bytes ":" ++ result.gateName,
      decision := bytes "allowed", reason := options.reason,
      metadata := workflowGateCommandResponse result 0 0 } }
    gates := db.gates ++ [result]
    events := appendEvent db.events {
      projectID := some record.id, runID := none, versionID := some version.id,
      eventType := bytes "workflow.gate.checked", severity := gateSeverity result.status,
      message := bytes "Workflow gate checked",
      metadata := [(bytes "gate_result_id", .number result.id), (bytes "gate_name", .text result.gateName),
        (bytes "status", .text result.status), (bytes "display_label", .text version.displayLabel),
        (bytes "workflow_version_id", .number version.id), (bytes "failures", .texts result.failures),
        (bytes "warnings", .texts result.warnings)] }
    commands := completeCommandRequestResponse commands record.id (bytes "workflow.gate.run") idempotencyKey
      (workflowGateCommandResponse result (freshID (db.events.map (·.id))) (freshID (db.identity.audits.map (·.id)))) }

/-- This function runs a gate of an authored version; a repeated run is stored again. -/
def runWorkflowGateFrom (db : Database) (now : Time) (sequence : Nat) (record : ProjectRow) (label : GoString)
    (raw : RunGateOptions) : Except WorkflowError (Database × GateRow) :=
  let options := normalizeRunGateOptions raw
  match GateName.ofName options.gateName with
  | none => .error (.unsupportedGate options.gateName)
  | some gate =>
      match getAuthoredVersion seen.version record label with
      | .error failure => .error failure
      | .ok version =>
          match evaluateGate host seen record version gate options (freshID (db.gates.map (·.id))) now with
          | .error failure => .error failure
          | .ok result =>
              let key := if options.idempotencyKey = [] then
                workflowGateIdempotencyKey host record version gate options now sequence else options.idempotencyKey
              let hash := workflowGateRequestHash host record version result options
              match reservedOrRepeated (reserveCommandRequest db.commands record.id (bytes "workflow.gate.run") key hash)
                db.commands with
              | none => .error (.idempotencyConflict key)
              | some commands => .ok (storeGate db record version options result key commands, result)

end Run

/-- This is the state of the workflow tables with their earlier states, the latest first. -/
structure Flow where
  db : Database
  past : List Database := []

/-- A query that ran some commits ago saw the tables of that time. -/
def Flow.before (flow : Flow) (ago : Nat) : Database := (flow.db :: flow.past).getD ago flow.db

/-- These numbers tell how many commits ago each query of a call ran. -/
structure Reads where
  project : Nat := 0
  version : Nat := 0
  items : Nat := 0
  gate : Nat := 0
  approval : Nat := 0
  preview : Nat := 0
  deriving DecidableEq

def Flow.sights (flow : Flow) (reads : Reads) : Sights where
  version := flow.before reads.version
  items := flow.before reads.items
  gate := flow.before reads.gate
  approval := flow.before reads.approval
  preview := flow.before reads.preview

/-- A workflow operation is committed after its queries ran. -/
inductive FlowEvent where
  | runGate (reads : Reads) (now : Time) (sequence : Nat) (projectKey label : GoString) (options : RunGateOptions)
  | previewTransition (reads : Reads) (now : Time) (sequence : Nat) (projectKey label : GoString)
      (options : PreviewTransitionOptions)
  | createApproval (reads : Reads) (now : Time) (projectKey label : GoString) (options : CreateApprovalOptions)

/-- These are the tables after an operation; a failed one is rolled back. -/
def committed {A : Type} : Except WorkflowError (Database × A) → Option Database
  | .error _ => none
  | .ok (db, _) => some db

/-- This is what an operation leaves. -/
def FlowEvent.outcome (host : GateHost) (flow : Flow) : FlowEvent → Option Database
  | runGate reads now sequence projectKey label options =>
      ((flow.before reads.project).getByKey projectKey).bind fun record =>
        committed (runWorkflowGateFrom host (flow.sights reads) flow.db now sequence record label options)
  | previewTransition reads now sequence projectKey label options =>
      ((flow.before reads.project).getByKey projectKey).bind fun record =>
        committed (previewWorkflowTransitionFrom host.codec (flow.sights reads) flow.db now sequence record label options)
  | createApproval reads now projectKey label options =>
      ((flow.before reads.project).getByKey projectKey).bind fun record =>
        committed (createApprovalRecordFrom host.codec (flow.sights reads) flow.db now record label options)

/-- This is one step of an interleaving of workflow operations. -/
def flowStep (host : GateHost) (flow : Flow) (event : FlowEvent) : Flow × Unit :=
  match event.outcome host flow with
  | none => (flow, ())
  | some db => (⟨db, flow.db :: flow.past⟩, ())

end AreaFlow.Project
