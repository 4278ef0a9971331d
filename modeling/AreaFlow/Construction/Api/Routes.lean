import AreaFlow.Construction.Api.Request

namespace AreaFlow.Api
open Go

/-- These are the handlers that the multiplexer knows. -/
inductive Route where
  | health | ready | authStatus | authMe | oidcLogin | oidcCallback | logout | tokens
  | localServiceStatus | backupManifest | restorePlan
  | releaseReadiness | releaseRemediationPlan | releaseAcceptancePreview | releaseAcceptanceGate
  | releaseExceptionDoctor | releaseExceptionRecordPreview | releaseExceptionSchemaPreview
  | releaseExceptionMigrationApprovalGate | releaseExceptionApplyPreview | releaseFinalGate
  | releaseEvidenceBundle | releasePackagePreview | releaseDistributionPreview | releasePublishGate
  | releasePublishApprovalPreview | releaseRolloutPlanPreview
  | auditCoverage | permissionDoctor | conformance | artifactIntegrity | auditEvents | eventStream
  | workerPoolSummary | workerPoolSchedulePreview | webWriteActionGate | desktopServiceControlGate
  | desktopNotificationGate | desktopTrayMenuGate | securityBoundaryReadiness | completionAudit
  | completionAuditSnapshotReadiness | operationsReadiness | supportBundlePreview | migrationLedgerReadiness
  | projects | project | workflows | runCollection | runs | workerCollection | workerDetail
  | artifactCollection | artifacts
  deriving DecidableEq

/-- These are the registered literal paths, split into the segments below the interface root. -/
def literalRoutes : List (List GoString × Route) :=
  [([bytes "health"], .health), ([bytes "ready"], .ready), ([bytes "auth", bytes "status"], .authStatus),
    ([bytes "auth", bytes "me"], .authMe), ([bytes "auth", bytes "oidc", bytes "login"], .oidcLogin),
    ([bytes "auth", bytes "oidc", bytes "callback"], .oidcCallback), ([bytes "auth", bytes "logout"], .logout),
    ([bytes "auth", bytes "tokens"], .tokens), ([bytes "service", bytes "status"], .localServiceStatus),
    ([bytes "backup", bytes "manifest"], .backupManifest),
    ([bytes "backup", bytes "restore-plan"], .restorePlan),
    ([bytes "release", bytes "readiness"], .releaseReadiness),
    ([bytes "release", bytes "remediation-plan"], .releaseRemediationPlan),
    ([bytes "release", bytes "acceptance-preview"], .releaseAcceptancePreview),
    ([bytes "release", bytes "acceptance-gate"], .releaseAcceptanceGate),
    ([bytes "release", bytes "exception-doctor"], .releaseExceptionDoctor),
    ([bytes "release", bytes "exception-record-preview"], .releaseExceptionRecordPreview),
    ([bytes "release", bytes "exception-schema-preview"], .releaseExceptionSchemaPreview),
    ([bytes "release", bytes "exception-migration-approval-gate"], .releaseExceptionMigrationApprovalGate),
    ([bytes "release", bytes "exception-apply-preview"], .releaseExceptionApplyPreview),
    ([bytes "release", bytes "final-gate"], .releaseFinalGate),
    ([bytes "release", bytes "evidence-bundle"], .releaseEvidenceBundle),
    ([bytes "release", bytes "package-preview"], .releasePackagePreview),
    ([bytes "release", bytes "distribution-preview"], .releaseDistributionPreview),
    ([bytes "release", bytes "publish-gate"], .releasePublishGate),
    ([bytes "release", bytes "publish-approval-preview"], .releasePublishApprovalPreview),
    ([bytes "release", bytes "rollout-plan-preview"], .releaseRolloutPlanPreview),
    ([bytes "audit", bytes "coverage"], .auditCoverage),
    ([bytes "permissions", bytes "doctor"], .permissionDoctor), ([bytes "conformance"], .conformance),
    ([bytes "artifacts", bytes "integrity"], .artifactIntegrity), ([bytes "audit-events"], .auditEvents),
    ([bytes "events", bytes "stream"], .eventStream),
    ([bytes "worker-pool", bytes "summary"], .workerPoolSummary),
    ([bytes "worker-pool", bytes "schedule-preview"], .workerPoolSchedulePreview),
    ([bytes "web", bytes "write-action-gate"], .webWriteActionGate),
    ([bytes "desktop", bytes "service-control-gate"], .desktopServiceControlGate),
    ([bytes "desktop", bytes "notification-gate"], .desktopNotificationGate),
    ([bytes "desktop", bytes "tray-menu-gate"], .desktopTrayMenuGate),
    ([bytes "security", bytes "boundary-readiness"], .securityBoundaryReadiness),
    ([bytes "completion-audit"], .completionAudit),
    ([bytes "completion-audit", bytes "snapshot-readiness"], .completionAuditSnapshotReadiness),
    ([bytes "ops", bytes "readiness"], .operationsReadiness),
    ([bytes "ops", bytes "support-bundle-preview"], .supportBundlePreview),
    ([bytes "ops", bytes "migration-ledger-readiness"], .migrationLedgerReadiness),
    ([bytes "projects"], .projects), ([bytes "workflows"], .workflows), ([bytes "runs"], .runCollection),
    ([bytes "workers"], .workerCollection), ([bytes "artifacts"], .artifactCollection)]

/-- The multiplexer holds the literal paths and the four subtrees. -/
def mux : ServeMux Route where
  literal := literalRoutes.map fun entry => (bytes "api" :: entry.1, entry.2)
  subtree :=
    [([bytes "api", bytes "projects"], .project), ([bytes "api", bytes "runs"], .runs),
      ([bytes "api", bytes "workers"], .workerDetail), ([bytes "api", bytes "artifacts"], .artifacts)]

/-- These are the sections below a project that only answer reads. -/
inductive ProjectView where
  | record | events | eventStream | summary | readiness | generatedWriteReadiness | generatedWriteApplyBetaGate
  | importDiff | verificationBundle | compatibility | shimPreview | shimAuthorization | shimApplyPacket
  | shimApplyGate | shimReadiness | executionCutoverReadiness | executionForwardingV1Readiness
  | executionForwardingV1ApplyPreview | executionForwardingV1ApplyPacket | executionForwardingV1ApplyGate
  | executionForwardingV1CommandPreview | executionForwardingV1RollbackPreview | cutoverReadiness
  | statusProjectionAuthorization | statusProjectionApplyPacket | statusProjectionApplyGate | statusProjections
  | artifacts | residuals
  deriving DecidableEq

/-- These are the sections below a project that write. -/
inductive ProjectAction where
  | doctor | importProject | shimApply | shimReadinessEvidence | executionForwardingV1Apply | cutoverApply
  | statusProjectionApply | artifactArchivePreview
  deriving DecidableEq

/-- A project request is refused, or it reaches one handler with the key of its first path part. -/
inductive ProjectRoute where
  | notFound
  | methodNotAllowed
  | roleBindings (projectKey : GoString)
  | view (view : ProjectView) (projectKey : GoString)
  | action (action : ProjectAction) (projectKey : GoString)
  | workflowVersions (projectKey : GoString) (rest : List GoString)
  | workers (projectKey : GoString) (rest : List GoString)
  | engines (projectKey : GoString) (rest : List GoString)
  deriving DecidableEq

/-- These sections are read by a path of two parts. -/
def viewSections : List (GoString × ProjectView) :=
  [(bytes "events", .events), (bytes "summary", .summary), (bytes "readiness", .readiness),
    (bytes "generated-write-readiness", .generatedWriteReadiness),
    (bytes "generated-write-apply-beta-gate", .generatedWriteApplyBetaGate), (bytes "import-diff", .importDiff),
    (bytes "verification-bundle", .verificationBundle), (bytes "compatibility", .compatibility),
    (bytes "shim-preview", .shimPreview), (bytes "shim-authorization", .shimAuthorization),
    (bytes "shim-apply-packet", .shimApplyPacket), (bytes "shim-apply-gate", .shimApplyGate),
    (bytes "shim-readiness", .shimReadiness), (bytes "execution-cutover-readiness", .executionCutoverReadiness),
    (bytes "execution-forwarding-v1-readiness", .executionForwardingV1Readiness),
    (bytes "execution-forwarding-v1-apply-preview", .executionForwardingV1ApplyPreview),
    (bytes "execution-forwarding-v1-apply-packet", .executionForwardingV1ApplyPacket),
    (bytes "execution-forwarding-v1-apply-gate", .executionForwardingV1ApplyGate),
    (bytes "execution-forwarding-v1-command-preview", .executionForwardingV1CommandPreview),
    (bytes "execution-forwarding-v1-rollback-preview", .executionForwardingV1RollbackPreview),
    (bytes "cutover-readiness", .cutoverReadiness), (bytes "status-projections", .statusProjections),
    (bytes "artifacts", .artifacts), (bytes "residuals", .residuals)]

/-- These sections are posted to by a path of two parts. -/
def actionSections : List (GoString × ProjectAction) :=
  [(bytes "doctor", .doctor), (bytes "import", .importProject), (bytes "shim-apply", .shimApply),
    (bytes "execution-forwarding-v1-apply", .executionForwardingV1Apply), (bytes "cutover-apply", .cutoverApply)]

/-- A section with a third part has its own method. -/
def nestedSections : List (GoString × GoString × (ProjectView ⊕ ProjectAction)) :=
  [(bytes "shim-readiness", bytes "evidence", .inr .shimReadinessEvidence),
    (bytes "status-projections", bytes "authorization", .inl .statusProjectionAuthorization),
    (bytes "status-projections", bytes "apply-packet", .inl .statusProjectionApplyPacket),
    (bytes "status-projections", bytes "apply-gate", .inl .statusProjectionApplyGate),
    (bytes "status-projections", bytes "apply", .inr .statusProjectionApply),
    (bytes "artifacts", bytes "archive-preview", .inr .artifactArchivePreview)]

/-- This is the choice among the sections with two or three parts. -/
def sectionRoute (method : Method) (projectKey name : GoString) (tail : List GoString) : ProjectRoute :=
  match tail, nestedSections.find? (fun entry => entry.1 == name && [entry.2.1] == tail) with
  | _, some (_, _, .inl view) => if method = .get then .view view projectKey else .methodNotAllowed
  | _, some (_, _, .inr action) => if method = .post then .action action projectKey else .methodNotAllowed
  | tail, none =>
      match viewSections.find? (fun entry => entry.1 == name), actionSections.find? (fun entry => entry.1 == name) with
      | some (_, view), _ =>
          if name = bytes "events" ∧ tail = [bytes "stream"] ∧ method = .get then .view .eventStream projectKey
          else if tail ≠ [] ∨ method ≠ .get then .methodNotAllowed
          else .view view projectKey
      | none, some (_, action) => if tail ≠ [] ∨ method ≠ .post then .methodNotAllowed else .action action projectKey
      | none, none => .notFound

/-- This is the choice by the part that follows the project key. -/
def partsRoute (method : Method) (projectKey : GoString) : List GoString → ProjectRoute
  | [] => if method = .get then .view .record projectKey else .methodNotAllowed
  | name :: tail =>
      if name = bytes "role-bindings" then if tail = [] then .roleBindings projectKey else .notFound
      else if name = bytes "workflow-versions" then .workflowVersions projectKey tail
      else if name = bytes "workers" then .workers projectKey tail
      else if name = bytes "engines" then .engines projectKey tail
      else sectionRoute method projectKey name tail

/-- These are the parts of a path below the project subtree. -/
def projectParts (path : GoString) : List GoString :=
  split slash (trimByte slash (trimPrefix path (bytes "/api/projects/")))

/-- This function is the dispatch of the project handler. -/
def projectRoute (method : Method) (path : GoString) : ProjectRoute :=
  match projectParts path with
  | [] => .notFound
  | projectKey :: rest =>
      if 3 < rest.length ∨ projectKey = [] then .notFound else partsRoute method projectKey rest

/-- This is the project key that a routed request hands to its handler. -/
def ProjectRoute.projectKey : ProjectRoute → Option GoString
  | notFound => none
  | methodNotAllowed => none
  | roleBindings projectKey => some projectKey
  | view _ projectKey => some projectKey
  | action _ projectKey => some projectKey
  | workflowVersions projectKey _ => some projectKey
  | workers projectKey _ => some projectKey
  | engines projectKey _ => some projectKey

/-- These are the handlers below one workflow version. -/
inductive VersionRoute where
  | versions
  | detail (label : GoString)
  | stages (label : GoString)
  | gates (label : GoString)
  | transitionPreviews (label : GoString)
  | approvals (label : GoString)
  | artifacts (label : GoString)
  | residuals (label : GoString)
  | runnerPreview (label : GoString)
  | fixtureQueue (label : GoString)
  | readOnlyVerifyQueue (label : GoString)
  | approvedArtifactWriteQueue (label : GoString)
  | fixtureProjectWriteQueue (label : GoString)
  | managedGeneratedWriteQueue (label : GoString)
  | runs (label : GoString)
  | methodNotAllowed
  deriving DecidableEq

/-- These are the sections below a version label. -/
def versionSections : List (GoString × (GoString → VersionRoute)) :=
  [(bytes "stages", .stages), (bytes "gates", .gates), (bytes "transition-previews", .transitionPreviews),
    (bytes "approvals", .approvals), (bytes "artifacts", .artifacts), (bytes "residuals", .residuals),
    (bytes "runner-preview", .runnerPreview), (bytes "fixture-queue", .fixtureQueue),
    (bytes "read-only-verify-queue", .readOnlyVerifyQueue),
    (bytes "approved-artifact-write-queue", .approvedArtifactWriteQueue),
    (bytes "fixture-project-write-queue", .fixtureProjectWriteQueue),
    (bytes "managed-generated-write-queue", .managedGeneratedWriteQueue), (bytes "runs", .runs)]

/-- This function is the dispatch of the workflow version handler, after the project was found. -/
def versionRoute (method : Method) (rest : List GoString) : VersionRoute :=
  match rest with
  | [] => .versions
  | [label] => if method = .get then .detail label else .methodNotAllowed
  | [label, name] =>
      match versionSections.find? fun entry => entry.1 == name with
      | some (_, target) => target label
      | none => .methodNotAllowed
  | _ => .methodNotAllowed

/-- The multiplexer and the project handler together choose the target of a request that the version
alias has rewritten. -/
def routeProject (r : Request) : Option ProjectRoute :=
  match mux.dispatch (r.method == .connect) r.url with
  | .route .project => some (projectRoute r.method r.url.path)
  | _ => none

end AreaFlow.Api
