import AreaFlow.Construction.Project.ReleaseExceptions
import AreaFlow.Library.Run
import AreaFlow.Proof.Frames

namespace AreaFlow.Project
open Go Auth Tx

section Items

variable {codec : Codec} {preview : ReleaseAcceptancePreview} {exceptions : List ReleaseExceptionRow}

/-- The items of a gate are those that were added, with a type. -/
theorem foldl_addItem_items {Source : Type} (make : Source → ReleaseAcceptanceGateItem) (sources : List Source)
    (gate : ReleaseAcceptanceGate) :
    (sources.foldl (fun gate source => gate.addItem (make source)) gate).items =
      gate.items ++ sources.map fun source =>
        { make source with acceptanceType := typedOr (make source).acceptanceType } := by
  induction sources generalizing gate with
  | nil => simp
  | cons source rest ih =>
      rw [List.foldl_cons, ih]
      simp [ReleaseAcceptanceGate.addItem]

theorem addDecision_decisions (preview : ReleaseAcceptancePreview) (decision : ReleaseAcceptanceDecision) :
    (preview.addDecision decision).decisions =
      preview.decisions ++ [{ decision with acceptanceType := typedOr decision.acceptanceType }] := rfl

/-- The decisions of a preview are those that were added, with a type. -/
theorem foldl_addDecision_decisions (actions : List ReleaseRemediationAction) (preview : ReleaseAcceptancePreview) :
    (actions.foldl (fun preview action => preview.addDecision (acceptanceDecisionForAction action)) preview).decisions =
      preview.decisions ++ actions.map fun action => { acceptanceDecisionForAction action with
        acceptanceType := typedOr (acceptanceDecisionForAction action).acceptanceType } := by
  induction actions generalizing preview with
  | nil => simp
  | cons action rest ih =>
      rw [List.foldl_cons, ih]
      simp [ReleaseAcceptancePreview.addDecision]

/-- A type that the table admits is not replaced. -/
theorem typedOr_admitted {acceptanceType : GoString} (admitted : acceptanceType ∈ acceptanceTypes) :
    typedOr acceptanceType ∈ acceptanceTypes := by
  have named : acceptanceType ≠ [] := by
    rintro rfl
    exact absurd admitted (by decide)
  rwa [typedOr, if_neg named]

/-- An action that needs a decision has one of the types that the table admits. -/
theorem acceptanceDecisionForAction_type {action : ReleaseRemediationAction}
    (needs : (acceptanceDecisionForAction action).status = bytes "needs_decision") :
    (acceptanceDecisionForAction action).acceptanceType ∈ acceptanceTypes := by
  have ready : bytes "ready" ≠ bytes "needs_decision" := by decide
  have refused : bytes "not_acceptable" ≠ bytes "needs_decision" := by decide
  revert needs
  unfold acceptanceDecisionForAction
  split_ifs
  · exact fun needs => absurd needs ready
  · exact fun needs => absurd needs refused
  · exact fun _ => (by decide : bytes "metadata_only_history" ∈ acceptanceTypes)
  · exact fun _ => (by decide : bytes "future_only_gap" ∈ acceptanceTypes)
  · exact fun _ => (by decide : bytes "archive_exception" ∈ acceptanceTypes)
  all_goals exact fun needs => absurd needs refused

/-- Every decision of a preview that needs to be taken has one of these types. -/
theorem buildReleaseAcceptancePreview_type {plan : ReleaseRemediationPlan} {decision : ReleaseAcceptanceDecision}
    (listed : decision ∈ (buildReleaseAcceptancePreview plan).decisions)
    (needs : decision.status = bytes "needs_decision") : decision.acceptanceType ∈ acceptanceTypes := by
  unfold buildReleaseAcceptancePreview at listed
  dsimp only at listed
  split at listed
  · rename_i empty
    rw [addDecision_decisions, empty.1, List.nil_append, List.mem_singleton] at listed
    rw [listed] at needs
    exact absurd needs (by decide : bytes "ready" ≠ bytes "needs_decision")
  · rw [foldl_addDecision_decisions] at listed
    obtain ⟨action, _, rfl⟩ := List.mem_map.mp (by simpa using listed)
    exact typedOr_admitted (acceptanceDecisionForAction_type needs)

/-- The item of a decision has its type. -/
theorem acceptanceGateItemForDecision_acceptanceType (decision : ReleaseAcceptanceDecision)
    (exception : Option ReleaseExceptionRow) :
    (acceptanceGateItemForDecision decision exception).acceptanceType = decision.acceptanceType := by
  unfold acceptanceGateItemForDecision
  dsimp only
  split_ifs
  · rfl
  · cases exception <;> rfl
  · rfl
  · rfl

/-- An item that needs a decision stands for a decision that needs one and that no exception covers. -/
theorem acceptanceGateItemForDecision_needs {decision : ReleaseAcceptanceDecision} {exception : Option ReleaseExceptionRow}
    (needs : (acceptanceGateItemForDecision decision exception).decisionStatus = bytes "needs_decision") :
    decision.status = bytes "needs_decision" ∧ exception = none := by
  have decided : bytes "ready" ≠ bytes "needs_decision" := by decide
  revert needs
  unfold acceptanceGateItemForDecision
  dsimp only
  split_ifs with ready needed refused
  · exact fun needs => absurd (ready.symm.trans needs) decided
  · cases exception with
    | none => exact fun _ => ⟨needed, rfl⟩
    | some row => exact fun needs => absurd needs decided
  · exact fun needs => absurd needs needed
  · exact fun needs => absurd needs needed

theorem addItem_items (gate : ReleaseAcceptanceGate) (item : ReleaseAcceptanceGateItem) :
    (gate.addItem item).items = gate.items ++ [{ item with acceptanceType := typedOr item.acceptanceType }] := rfl

/-- This is the draft of a decision that no exception covers. -/
def decisionDraft (codec : Codec) (decision : ReleaseAcceptanceDecision) : ReleaseExceptionRecordDraft :=
  releaseExceptionDraftForGateItem codec
    { acceptanceGateItemForDecision decision none with acceptanceType := typedOr decision.acceptanceType }

/-- A draft that can be requested is that of a decision that needs to be taken. -/
theorem draft_decision {draft : ReleaseExceptionRecordDraft}
    (listed : draft ∈ releaseExceptionDrafts codec (buildReleaseAcceptanceGateWithExceptions codec preview exceptions))
    (requestable : draft.status = bytes "draft") :
    ∃ decision ∈ preview.decisions, decision.status = bytes "needs_decision" ∧ draft = decisionDraft codec decision := by
  unfold releaseExceptionDrafts at listed
  split at listed
  · rw [List.mem_singleton.mp listed] at requestable
    exact absurd requestable (by decide : bytes "blocked" ≠ bytes "draft")
  obtain ⟨item, stored, rfl⟩ := List.mem_map.mp listed
  have needs : item.decisionStatus = bytes "needs_decision" := by
    unfold releaseExceptionDraftForGateItem at requestable
    split_ifs at requestable with needs
    · exact needs
    · exact absurd requestable (by decide : bytes "not_required" ≠ bytes "draft")
    · exact absurd requestable (by decide : bytes "blocked" ≠ bytes "draft")
  unfold buildReleaseAcceptanceGateWithExceptions at stored
  dsimp only at stored
  split at stored
  · rename_i empty
    rw [addItem_items, empty, List.nil_append, List.mem_singleton] at stored
    rw [stored] at needs
    exact absurd needs (by decide : bytes "missing" ≠ bytes "needs_decision")
  · rw [foldl_addItem_items] at stored
    obtain ⟨decision, member, rfl⟩ := List.mem_map.mp (by simpa using stored)
    obtain ⟨needed, uncovered⟩ := acceptanceGateItemForDecision_needs needs
    refine ⟨decision, member, needed, ?_⟩
    rw [uncovered, acceptanceGateItemForDecision_acceptanceType]
    rfl

/-- A draft that can be requested has one of the types that the table admits. -/
theorem draft_type {plan : ReleaseRemediationPlan} {draft : ReleaseExceptionRecordDraft}
    (listed : draft ∈ releaseExceptionDrafts codec
      (buildReleaseAcceptanceGateWithExceptions codec (buildReleaseAcceptancePreview plan) exceptions))
    (requestable : draft.status = bytes "draft") : draft.acceptanceType ∈ acceptanceTypes := by
  obtain ⟨decision, member, needs, rfl⟩ := draft_decision listed requestable
  have typed : (decisionDraft codec decision).acceptanceType = typedOr decision.acceptanceType := by
    unfold decisionDraft releaseExceptionDraftForGateItem
    split_ifs <;> rfl
  rw [typed]
  exact typedOr_admitted (buildReleaseAcceptancePreview_type member needs)

/-- The key of a draft is not empty. -/
theorem draft_named {gate : ReleaseAcceptanceGate} {draft : ReleaseExceptionRecordDraft}
    (listed : draft ∈ releaseExceptionDrafts codec gate) : draft.key ≠ [] := by
  have named : ∀ rest : GoString, bytes "release_exception:" ++ rest ≠ [] := fun rest => by simp [bytes]
  unfold releaseExceptionDrafts at listed
  split at listed
  · rw [List.mem_singleton.mp listed]
    decide
  · obtain ⟨item, _, rfl⟩ := List.mem_map.mp listed
    unfold releaseExceptionDraftForGateItem
    split_ifs <;> exact named _

end Items

section Requests

variable (codec : Codec) (host : Migrate.MigrateHost)

/-- A request for an exception at a time, with the state of the release that it meets. -/
structure ExceptionRequest where
  now : Time
  record : ProjectRow
  plan : ReleaseRemediationPlan
  options : RequestReleaseExceptionOptions

namespace ExceptionRequest

variable (request : ExceptionRequest)

/-- This is the key of the exception. -/
def exceptionKey : GoString := trimSpace request.options.exceptionKey

/-- This is the draft of the exception in the current gate. -/
def draft (tables : ReleaseTables) : Option ReleaseExceptionRecordDraft :=
  (releaseAcceptanceGate codec host tables (buildReleaseAcceptancePreview request.plan)
    { generatedAt := request.now, projectID := request.record.id,
      projectKey := request.record.projectKey }).toOption.bind fun gate =>
    releaseExceptionDraftByKey (releaseExceptionDrafts codec gate) request.exceptionKey

/-- These are the options with the owner of the draft where the request names none. -/
def owned (draft : ReleaseExceptionRecordDraft) : RequestReleaseExceptionOptions :=
  let trimmed := trimRequest request.options
  { trimmed with owner := if trimmed.owner = [] then draft.owner else trimmed.owner }

def requestHash (draft : ReleaseExceptionRecordDraft) : GoString :=
  releaseExceptionRequestHash codec request.record (request.owned draft) draft

/-- This is the key of the command. -/
def commandKey (draft : ReleaseExceptionRecordDraft) : GoString :=
  keyOr (request.owned draft).idempotencyKey (releaseExceptionIdempotencyKey releaseExceptionRequestCommandType
    request.record.projectKey (request.owned draft).exceptionKey (request.requestHash codec draft))

/-- This is the operation of the request. -/
def command : ReleaseCommand ReleaseExceptionRecord :=
  requestReleaseException codec host request.now request.record request.plan request.options

/-- The exception is neither pending nor effective, a draft of it can be requested, and the request has a new command key
and an expiry in the future. -/
structure Due (tables : ReleaseTables) : Prop where
  notPending : ∀ row ∈ tables.exceptionAt request.record.id request.exceptionKey, row.status ≠ .requested
  notEffective : ∀ row ∈ effectiveReleaseExceptions tables request.record.id request.now,
    row.exceptionKey ≠ request.exceptionKey
  drafted : ∃ draft, request.draft codec host tables = some draft ∧ draft.status = bytes "draft" ∧
    tables.database.command request.record.id releaseExceptionRequestCommandType (request.commandKey codec draft) = none
  future : ∃ expiry, request.options.expiresAt = some expiry ∧ request.now < expiry

/-- The request succeeds and leaves the exception requested. -/
def Renews (tables : ReleaseTables) : Prop :=
  ∃ after answer, (request.command codec host).commit () tables = (((), after), .ok answer) ∧
    ∃ row, after.exceptionAt request.record.id request.exceptionKey = some row ∧ row.status = .requested

/-- The request names its actor and reason, the migration is applied with an effective approval, and no approved
exception is stored under the key. -/
def Renewable (tables : ReleaseTables) : Prop :=
  trimSpace request.options.actor ≠ [] ∧ trimSpace request.options.reason ≠ [] ∧
    releaseExceptionApproval host tables = .ok (true, true) ∧
    ∀ row ∈ tables.exceptionAt request.record.id request.exceptionKey, row.status ≠ .approved

/-- The body of a new request. -/
def body (draft : ReleaseExceptionRecordDraft) : ReleaseCommand ReleaseExceptionRecord := do
  let row ← upsertRequestedReleaseException request.now request.record (request.owned draft) draft
  recordException request.record row (request.owned draft).actor (request.owned draft).reason
    releaseExceptionRequestCommandType (request.commandKey codec draft)

end ExceptionRequest

end Requests

section Runs

variable {codec : Codec} {host : Migrate.MigrateHost} {request : ExceptionRequest} {tables : ReleaseTables}
  {draft : ReleaseExceptionRecordDraft}

/-- A new command on the release tables is reserved and runs its body. -/
theorem onceReleased_new {record : ProjectRow} {commandType idempotencyKey hash : GoString}
    {body : ReleaseCommand ReleaseExceptionRecord}
    (absent : tables.database.command record.id commandType idempotencyKey = none) (files : Unit) :
    onceReleased record commandType idempotencyKey hash body files tables =
      body files { tables with database := tables.database.reserved record.id commandType idempotencyKey hash } := by
  unfold onceReleased onReleaseDatabase
  rw [bind_apply]
  unfold Tx.within reserve reserveCommandRequest
  rw [show tables.database.commands.find? _ = none from absent]
  rfl

/-- A request that passes its checks runs its body. -/
theorem command_runs (actor : trimSpace request.options.actor ≠ []) (reason : trimSpace request.options.reason ≠ [])
    (enabled : releaseExceptionApproval host tables = .ok (true, true))
    (drafted : request.draft codec host tables = some draft) (requestable : draft.status = bytes "draft")
    (fresh : tables.database.command request.record.id releaseExceptionRequestCommandType (request.commandKey codec draft) =
      none)
    (future : ∃ expiry, request.options.expiresAt = some expiry ∧ request.now < expiry) (files : Unit) :
    request.command codec host files tables = request.body codec draft files
      { tables with
        database := tables.database.reserved request.record.id releaseExceptionRequestCommandType
          (request.commandKey codec draft) (request.requestHash codec draft) } := by
  obtain ⟨gate, evaluated, found⟩ := Option.bind_eq_some_iff.mp drafted
  have gated : releaseAcceptanceGate codec host tables (buildReleaseAcceptancePreview request.plan)
      { generatedAt := request.now, projectID := request.record.id, projectKey := request.record.projectKey } = .ok gate :=
    Except.ok_of_toOption evaluated
  have named : request.exceptionKey ≠ [] := by
    have keyed : draft.key = request.exceptionKey := by simpa using List.find?_some found
    rw [← keyed]
    exact draft_named (List.mem_of_find?_eq_some found)
  obtain ⟨expiry, expires, later⟩ := future
  have unexpired : (trimRequest request.options).expiresAt.any (fun expiry => decide (expiry ≤ request.now)) = false := by
    unfold trimRequest
    rw [expires]
    simpa using later
  unfold ExceptionRequest.command requestReleaseException
  dsimp only
  rw [if_neg (by rintro (blank | blank | blank); exacts [named blank, actor blank, reason blank]), if_neg (by rw [unexpired]; decide)]
  apply (check_bind_ok (by exact enabled) _ _).trans
  dsimp only
  rw [if_neg (by decide)]
  apply (check_bind_ok (by exact gated) _ _).trans
  rw [show releaseExceptionDraftByKey _ (trimRequest request.options).exceptionKey = some draft from found]
  dsimp only
  rw [if_neg (not_not.mpr requestable)]
  exact onceReleased_new fresh files

/-- A change that keeps the key of an exception is seen under the key. -/
theorem exceptionAt_update {after : ReleaseTables} {id projectID : ID} {exceptionKey : GoString}
    {change : Table.Change ReleaseExceptionRow (·.id)}
    (keeps : ∀ row ∈ tables.exceptions.rows, row.id = id →
      (change.apply row).projectID = row.projectID ∧ (change.apply row).exceptionKey = row.exceptionKey)
    (changed : after.exceptions = tables.exceptions.update (·.id == id) change) :
    after.exceptionAt projectID exceptionKey = (tables.exceptionAt projectID exceptionKey).map fun row =>
      if row.id == id then change.apply row else row := by
  unfold ReleaseTables.exceptionAt
  rw [changed]
  refine Table.find?_update fun row stored picked => ?_
  obtain ⟨project, key⟩ := keeps row stored (by simpa using picked)
  rw [project, key]

/-- A recorded exception keeps its key and its status. -/
theorem recordException_run {record : ProjectRow} (row : ReleaseExceptionRow)
    (actor reason commandType idempotencyKey : GoString) (files : Unit) (tables : ReleaseTables) (projectID : ID)
    (exceptionKey : GoString) :
    ∃ answer after, recordException record row actor reason commandType idempotencyKey files tables =
        (files, .ok (answer, after)) ∧
      (after.exceptionAt projectID exceptionKey).map ReleaseExceptionRow.status =
        (tables.exceptionAt projectID exceptionKey).map ReleaseExceptionRow.status := by
  refine ⟨_, _, rfl, ?_⟩
  rw [exceptionAt_update (fun _ _ _ => ⟨rfl, rfl⟩) rfl, Option.map_map]
  congr 1
  funext stored
  simp only [Function.comp_apply]
  split <;> rfl

/-- A request stores its exception if none is active. -/
theorem upsert_stores {record : ProjectRow} {options : RequestReleaseExceptionOptions} {now : Time}
    (typed : draft.acceptanceType ∈ acceptanceTypes)
    (inactive : ∀ row ∈ tables.exceptionAt record.id draft.key, row.status.ended = true) (files : Unit) :
    ∃ row after, upsertRequestedReleaseException now record options draft files tables = (files, .ok (row, after)) ∧
      (after.exceptionAt record.id draft.key).map ReleaseExceptionRow.status = some .requested := by
  unfold upsertRequestedReleaseException
  rw [if_neg (not_not.mpr typed)]
  cases found : tables.exceptionAt record.id draft.key with
  | none =>
      refine ⟨_, _, rfl, ?_⟩
      unfold ReleaseTables.exceptionAt
      rw [Table.find?_insert found (by simp [Table.next, requestedException])]
      rfl
  | some old =>
      dsimp only
      rw [if_pos (inactive old found)]
      refine ⟨_, _, rfl, ?_⟩
      have fits : old.projectID = record.id ∧ old.exceptionKey = draft.key := by simpa using List.find?_some found
      have stored : old ∈ tables.exceptions.rows := List.mem_of_find?_eq_some found
      have only : ∀ row ∈ tables.exceptions.rows, row.id = old.id →
          record.id = row.projectID ∧ draft.key = row.exceptionKey := by
        intro row isStored named
        rw [tables.exceptions.unique isStored stored named]
        exact ⟨fits.1.symm, fits.2.symm⟩
      rw [exceptionAt_update only rfl, found]
      simp [requestedException]

/-- A request fails if an exception is active. -/
theorem upsert_refuses {record : ProjectRow} {options : RequestReleaseExceptionOptions} {now : Time}
    {row : ReleaseExceptionRow} (found : tables.exceptionAt record.id draft.key = some row)
    (active : row.status.ended = false) (files : Unit) :
    ∃ failure, upsertRequestedReleaseException now record options draft files tables = (files, .error failure) := by
  unfold upsertRequestedReleaseException
  split
  · exact ⟨_, rfl⟩
  · rw [found]
    dsimp only
    rw [if_neg (by rw [active]; decide)]
    exact ⟨_, rfl⟩

/-- The body of a request fails if an exception is active. -/
theorem body_refuses {row : ReleaseExceptionRow} {database : Database}
    (found : tables.exceptionAt request.record.id draft.key = some row) (active : row.status.ended = false) :
    ∃ failure, request.body codec draft () { tables with database := database } = ((), .error failure) := by
  unfold ExceptionRequest.body
  obtain ⟨failure, refused⟩ : ∃ failure, upsertRequestedReleaseException request.now request.record (request.owned draft)
      draft () { tables with database := database } = ((), .error failure) :=
    @upsert_refuses { tables with database := database } draft _ _ _ row found active ()
  refine ⟨failure, ?_⟩
  rw [bind_apply, refused]

/-- The body of a request leaves its exception requested if none is active. -/
theorem body_stores {database : Database} (typed : draft.acceptanceType ∈ acceptanceTypes)
    (inactive : ∀ row ∈ tables.exceptionAt request.record.id draft.key, row.status.ended = true) :
    ∃ answer after, request.body codec draft () { tables with database := database } = ((), .ok (answer, after)) ∧
      ∃ row, after.exceptionAt request.record.id draft.key = some row ∧ row.status = .requested := by
  obtain ⟨row, between, stored, status⟩ : ∃ row after, upsertRequestedReleaseException request.now request.record
      (request.owned draft) draft () { tables with database := database } = ((), .ok (row, after)) ∧
      (after.exceptionAt request.record.id draft.key).map ReleaseExceptionRow.status = some .requested :=
    @upsert_stores { tables with database := database } draft _ _ _ typed inactive ()
  obtain ⟨answer, after, recorded, kept⟩ := recordException_run row (request.owned draft).actor
    (request.owned draft).reason releaseExceptionRequestCommandType (request.commandKey codec draft) () between
    request.record.id draft.key
  refine ⟨answer, after, ?_, Option.map_eq_some_iff.mp (kept.trans status)⟩
  unfold ExceptionRequest.body
  rw [bind_apply, stored]
  exact recorded

/-- A request that fails does not renew. -/
theorem not_renews {failure : StoreError} (failed : request.command codec host () tables = ((), .error failure)) :
    ¬ request.Renews codec host tables := by
  rintro ⟨after, answer, committed, _⟩
  unfold Tx.commit at committed
  rw [failed] at committed
  cases committed

/-- A request without an actor or a reason fails. -/
theorem command_blank (blank : trimSpace request.options.actor = [] ∨ trimSpace request.options.reason = []) :
    ∃ failure, request.command codec host () tables = ((), .error failure) := by
  unfold ExceptionRequest.command requestReleaseException
  dsimp only
  have missing : (trimRequest request.options).exceptionKey = [] ∨ (trimRequest request.options).actor = [] ∨
      (trimRequest request.options).reason = [] := Or.inr blank
  rw [if_pos missing]
  exact ⟨_, rfl⟩

/-- A request fails unless the migration is applied with an effective approval. -/
theorem command_disabled (disabled : releaseExceptionApproval host tables ≠ .ok (true, true)) :
    ∃ failure, request.command codec host () tables = ((), .error failure) := by
  unfold ExceptionRequest.command requestReleaseException
  dsimp only
  split
  · exact ⟨_, rfl⟩
  split
  · exact ⟨_, rfl⟩
  cases outcome : releaseExceptionApproval host tables with
  | error failure => exact ⟨failure, check_bind_error (by exact outcome) _ _⟩
  | ok flags =>
      obtain ⟨applied, effective⟩ := flags
      have off : (!(effective && applied)) = true := by
        cases applied <;> cases effective <;> first | rfl | exact absurd outcome disabled
      refine ⟨.failed (bytes "release exception migration must be applied with an effective approval"), ?_⟩
      apply (check_bind_ok (by exact outcome) _ _).trans
      rw [if_pos off]
      rfl

/-- The gate of a release is built from its decisions and some exceptions. -/
theorem releaseAcceptanceGate_built {preview : ReleaseAcceptancePreview} {options : ReleaseAcceptanceGateOptions}
    {gate : ReleaseAcceptanceGate} (evaluated : releaseAcceptanceGate codec host tables preview options = .ok gate) :
    ∃ exceptions, gate = buildReleaseAcceptanceGateWithExceptions codec preview exceptions := by
  obtain ⟨projectID, _, rest⟩ := Except.bind_ok evaluated
  split at rest
  · obtain ⟨flags, _, built⟩ := Except.bind_ok rest
    exact ⟨_, (Except.ok.inj built).symm⟩
  · exact ⟨_, (Except.ok.inj rest).symm⟩

/-- A state that is neither pending nor approved is ended. -/
theorem ExceptionStatus.ended_of {status : ExceptionStatus} (pending : status ≠ .requested) (approved : status ≠ .approved) :
    status.ended = true := by
  cases status with
  | requested => exact absurd rfl pending
  | approved => exact absurd rfl approved
  | _ => rfl

/-- A request that is due renews the exception exactly if it is renewable. -/
theorem renews_iff_renewable (due : request.Due codec host tables) :
    request.Renews codec host tables ↔ request.Renewable host tables := by
  obtain ⟨draft, drafted, requestable, fresh⟩ := due.drafted
  obtain ⟨gate, evaluated, found⟩ := Option.bind_eq_some_iff.mp drafted
  have keyed : draft.key = request.exceptionKey := by simpa using List.find?_some found
  constructor
  · intro renews
    have actor : trimSpace request.options.actor ≠ [] := fun blank =>
      (command_blank (Or.inl blank)).elim fun _ failed => not_renews failed renews
    have reason : trimSpace request.options.reason ≠ [] := fun blank =>
      (command_blank (Or.inr blank)).elim fun _ failed => not_renews failed renews
    have enabled : releaseExceptionApproval host tables = .ok (true, true) := by
      by_contra disabled
      obtain ⟨_, failed⟩ : ∃ failure, request.command codec host () tables = ((), .error failure) := command_disabled disabled
      exact not_renews failed renews
    refine ⟨actor, reason, enabled, fun row stored approved => ?_⟩
    have runs := command_runs actor reason enabled drafted requestable fresh due.future ()
    obtain ⟨failure, refused⟩ := body_refuses (keyed.symm ▸ stored) (by rw [approved]; rfl)
    exact not_renews (runs.trans refused) renews
  · rintro ⟨actor, reason, enabled, unapproved⟩
    have runs := command_runs actor reason enabled drafted requestable fresh due.future ()
    obtain ⟨exceptions, rfl⟩ := releaseAcceptanceGate_built (Except.ok_of_toOption evaluated)
    have typed := draft_type (List.mem_of_find?_eq_some found) requestable
    have inactive : ∀ row ∈ tables.exceptionAt request.record.id draft.key, row.status.ended = true := by
      rw [keyed]
      exact fun row stored => ExceptionStatus.ended_of (due.notPending row stored) (unapproved row stored)
    obtain ⟨answer, after, done, row, found, status⟩ := body_stores typed inactive
    refine ⟨after, answer, ?_, row, keyed ▸ found, status⟩
    unfold Tx.commit
    rw [runs, done]

end Runs

section Histories

/-- These are the calls on the exceptions of a project; a request meets a state of the release. -/
inductive ExceptionCall where
  | request (plan : ReleaseRemediationPlan) (options : RequestReleaseExceptionOptions)
  | approve (options : DecideReleaseExceptionOptions)
  | revoke (options : DecideReleaseExceptionOptions)

/-- A call is made at a time, and it is committed or rolled back. -/
def exceptionStep (codec : Codec) (host : Migrate.MigrateHost) (record : ProjectRow) (tables : ReleaseTables)
    (event : Time × ExceptionCall) : ReleaseTables × Except StoreError ReleaseExceptionRecord :=
  let command := match event.2 with
    | .request plan options => requestReleaseException codec host event.1 record plan options
    | .approve options => approveReleaseException codec host event.1 record options
    | .revoke options => revokeReleaseException codec host event.1 record options
  let outcome := command.commit () tables
  (outcome.1.2, outcome.2)

/-- After any history, a request that is due renews the exception exactly if it names its actor and reason, exceptions are
enabled, and no approved exception is stored under the key. -/
theorem exceptions_renew_iff (codec : Codec) (host : Migrate.MigrateHost) (start : ReleaseTables)
    (history : List (Time × ExceptionCall)) (request : ExceptionRequest)
    (due : request.Due codec host (Run.final (exceptionStep codec host request.record) start history)) :
    request.Renews codec host (Run.final (exceptionStep codec host request.record) start history) ↔
      request.Renewable host (Run.final (exceptionStep codec host request.record) start history) :=
  renews_iff_renewable due

theorem exceptionMigrations_sorted :
    [({ name := Migrate.releaseExceptionMigrationName, sql := bytes "CREATE TABLE release_exceptions ();" } :
      Migrate.Migration)].Pairwise fun first second => first.name < second.name := by
  decide

/-- This program embeds the migration of the exceptions only. -/
def exceptionHost : Migrate.MigrateHost where
  list := [{ name := Migrate.releaseExceptionMigrationName, sql := bytes "CREATE TABLE release_exceptions ();" }]
  sorted := exceptionMigrations_sorted
  migrationHash := Migrate.sampleHash

/-- The migration of the exceptions is applied, and its approval is effective. -/
def exceptionTables : ReleaseTables where
  database := smallTables
  migrations :=
    { schema := .names [Migrate.releaseExceptionMigrationName]
      ledger := some [{
        migrationName := Migrate.releaseExceptionMigrationName, phase := .remediation, status := .pass, message := [],
        migrationHash := some (Json.digest (bytes "CREATE TABLE release_exceptions ();"))
        evidence := [(bytes "approval_status", .text (bytes "approved"))], remediation := [] }] }

/-- The release has a gap in its audits. -/
def auditGap : ReleaseRemediationPlan where
  status := bytes "needs_attention"
  actions := [{
    key := bytes "remediate:gap", category := bytes "audit", status := bytes "needs_attention", sourceItem := bytes "gap",
    owner := bytes "owner" }]

/-- This is a request for an exception of the gap. -/
def gapRequest (expiry : Time) (idempotencyKey : GoString) : RequestReleaseExceptionOptions where
  exceptionKey := bytes "release_exception:gap"
  actor := bytes "actor"
  reason := bytes "reason"
  expiresAt := some expiry
  idempotencyKey := idempotencyKey

/-- This is a decision on the exception of the gap. -/
def gapDecision : DecideReleaseExceptionOptions where
  exceptionKey := bytes "release_exception:gap"
  actor := bytes "approver"
  reason := bytes "reason"

/-- The exception of the gap is requested at a time. -/
def gapRequestAt (now : Time) (expiry : Time) : ExceptionRequest where
  now := now
  record := smallProject
  plan := auditGap
  options := gapRequest expiry (bytes "again")

/-- The exception of the gap was requested, approved and revoked. -/
def revokedHistory : List (Time × ExceptionCall) :=
  [(1, .request auditGap (gapRequest 10 [])), (2, .approve gapDecision), (3, .revoke gapDecision)]

/-- The exception of the gap was requested and approved. -/
def approvedHistory : List (Time × ExceptionCall) := [(1, .request auditGap (gapRequest 10 [])), (2, .approve gapDecision)]

/-- The draft of a request can be looked up. -/
theorem drafted_of_any {request : ExceptionRequest} {codec : Codec} {host : Migrate.MigrateHost} {tables : ReleaseTables}
    (found : (request.draft codec host tables).any (fun draft => decide (draft.status = bytes "draft" ∧
      tables.database.command request.record.id releaseExceptionRequestCommandType (request.commandKey codec draft) = none)) =
        true) :
    ∃ draft, request.draft codec host tables = some draft ∧ draft.status = bytes "draft" ∧
      tables.database.command request.record.id releaseExceptionRequestCommandType (request.commandKey codec draft) = none := by
  obtain ⟨draft, drafted, checked⟩ := (Option.any_eq_true _ _).mp found
  exact ⟨draft, drafted, of_decide_eq_true checked⟩

/-- A revoked exception is renewed. -/
theorem revokedException_renews :
    (gapRequestAt 5 30).Due smallHost.codec exceptionHost
      (Run.final (exceptionStep smallHost.codec exceptionHost (gapRequestAt 5 30).record) exceptionTables revokedHistory) ∧
    (gapRequestAt 5 30).Renews smallHost.codec exceptionHost
      (Run.final (exceptionStep smallHost.codec exceptionHost (gapRequestAt 5 30).record) exceptionTables revokedHistory) := by
  have due : (gapRequestAt 5 30).Due smallHost.codec exceptionHost
      (Run.final (exceptionStep smallHost.codec exceptionHost (gapRequestAt 5 30).record) exceptionTables revokedHistory) :=
    ⟨by decide +kernel, by decide +kernel, drafted_of_any (by decide +kernel), ⟨30, rfl, by decide⟩⟩
  refine ⟨due, (exceptions_renew_iff smallHost.codec exceptionHost exceptionTables revokedHistory (gapRequestAt 5 30) due).mpr ?_⟩
  exact ⟨by decide +kernel, by decide +kernel, by decide +kernel, by decide +kernel⟩

/-- An approved exception that has expired is not renewed. -/
theorem expiredException_blocks :
    (gapRequestAt 20 30).Due smallHost.codec exceptionHost
      (Run.final (exceptionStep smallHost.codec exceptionHost (gapRequestAt 20 30).record) exceptionTables approvedHistory) ∧
    ¬ (gapRequestAt 20 30).Renews smallHost.codec exceptionHost
      (Run.final (exceptionStep smallHost.codec exceptionHost (gapRequestAt 20 30).record) exceptionTables
        approvedHistory) := by
  have due : (gapRequestAt 20 30).Due smallHost.codec exceptionHost
      (Run.final (exceptionStep smallHost.codec exceptionHost (gapRequestAt 20 30).record) exceptionTables approvedHistory) :=
    ⟨by decide +kernel, by decide +kernel, drafted_of_any (by decide +kernel), ⟨30, rfl, by decide⟩⟩
  refine ⟨due, fun renews => ?_⟩
  have renewable := (renews_iff_renewable due).mp renews
  exact absurd renewable.2.2.2 (by decide +kernel)

end Histories

end AreaFlow.Project
