import AreaFlow.Proof.Metadata
import AreaFlow.Proof.Renewal

namespace AreaFlow.Project
open Go Auth Tx

section Gate

variable {codec : Codec} {host : Migrate.MigrateHost} {tables : ReleaseTables} {preview : ReleaseAcceptancePreview}
  {options : ReleaseAcceptanceGateOptions} {exceptions : List ReleaseExceptionRow}

/-- A gate passes if it passed before and no added item is blocked. -/
theorem foldl_addItem_status {Source : Type} (make : Source → ReleaseAcceptanceGateItem) (sources : List Source)
    (gate : ReleaseAcceptanceGate) :
    (sources.foldl (fun gate source => gate.addItem (make source)) gate).status = bytes "pass" ↔
      gate.status = bytes "pass" ∧ ∀ source ∈ sources, (make source).status ≠ bytes "blocked" := by
  induction sources generalizing gate with
  | nil => simp
  | cons source rest ih =>
      rw [List.foldl_cons, ih]
      by_cases blocked : (make source).status = bytes "blocked"
      · have closed : (gate.addItem (make source)).status = bytes "blocked" := if_pos blocked
        have refuses : bytes "blocked" ≠ bytes "pass" := by decide
        simp [blocked, closed, refuses]
      · have kept : (gate.addItem (make source)).status = gate.status := if_neg blocked
        simp [blocked, kept]

/-- The item of a decision is blocked unless the decision is ready or covered. -/
theorem acceptanceGateItemForDecision_open {decision : ReleaseAcceptanceDecision} {exception : Option ReleaseExceptionRow} :
    (acceptanceGateItemForDecision decision exception).status ≠ bytes "blocked" ↔
      decision.status = bytes "ready" ∨ decision.status = bytes "needs_decision" ∧ exception.isSome = true := by
  have passes : bytes "pass" ≠ bytes "blocked" := by decide
  unfold acceptanceGateItemForDecision
  dsimp only
  split_ifs with ready needs refused
  · simp [ready, gateItemOf, passes]
  · cases exception with
    | none => simp [ready, gateItemOf]
    | some row => simp [needs, gateItemOf, passes]
  · simp [ready, needs, gateItemOf]
  · simp [ready, needs, gateItemOf]

/-- An approved exception covers a decision: it names the gate item, the type and the fingerprint of the decision. -/
def ReleaseExceptionRow.Covers (codec : Codec) (row : ReleaseExceptionRow) (decision : ReleaseAcceptanceDecision) : Prop :=
  row.sourceGateItem = bytes "gate:" ++ decision.key ∧ row.acceptanceType = decision.acceptanceType ∧
    metadataString row.metadata (bytes "source_fingerprint") = decisionFingerprint codec decision

instance (row : ReleaseExceptionRow) (decision : ReleaseAcceptanceDecision) : Decidable (row.Covers codec decision) :=
  inferInstanceAs (Decidable (_ ∧ _))

/-- A decision is covered by one of the listed exceptions. -/
theorem matchingEffectiveReleaseException_isSome {decision : ReleaseAcceptanceDecision} :
    (matchingEffectiveReleaseException codec decision exceptions).isSome = true ↔
      ∃ row ∈ exceptions, row.status = .approved ∧ row.Covers codec decision := by
  unfold matchingEffectiveReleaseException ReleaseExceptionRow.Covers
  rw [List.find?_isSome]
  simp [and_assoc]

/-- A gate passes if it has a decision and every decision is ready or covered. -/
theorem buildGate_pass :
    (buildReleaseAcceptanceGateWithExceptions codec preview exceptions).status = bytes "pass" ↔
      preview.decisions ≠ [] ∧ ∀ decision ∈ preview.decisions, decision.status = bytes "ready" ∨
        decision.status = bytes "needs_decision" ∧ ∃ row ∈ exceptions, row.status = .approved ∧ row.Covers codec decision := by
  have refuses : bytes "blocked" ≠ bytes "pass" := by decide
  unfold buildReleaseAcceptanceGateWithExceptions
  dsimp only
  split
  · rename_i empty
    rw [foldl_addItem_items, List.nil_append, List.map_eq_nil_iff] at empty
    have closed : ∀ (gate : ReleaseAcceptanceGate) (item : ReleaseAcceptanceGateItem), item.status = bytes "blocked" →
        (gate.addItem item).status = bytes "blocked" := fun _ _ blocked => if_pos blocked
    rw [closed _ _ rfl]
    simp [empty, refuses]
  · rename_i filled
    rw [foldl_addItem_items, List.nil_append, List.map_eq_nil_iff] at filled
    rw [foldl_addItem_status]
    simp only [acceptanceGateItemForDecision_open, matchingEffectiveReleaseException_isSome, ne_eq, filled,
      not_false_eq_true, true_and]

/-- An exception of a project is in force at a time. -/
def ReleaseExceptionRow.InForce (row : ReleaseExceptionRow) (projectID : ID) (moment : Time) : Prop :=
  row.projectID = projectID ∧ row.status = .approved ∧ ∀ expiry ∈ row.expiresAt, moment < expiry

instance (row : ReleaseExceptionRow) (projectID : ID) (moment : Time) : Decidable (row.InForce projectID moment) :=
  inferInstanceAs (Decidable (_ ∧ _))

/-- The effective exceptions are the stored ones that are in force. -/
theorem mem_effectiveReleaseExceptions {row : ReleaseExceptionRow} {projectID : ID} {moment : Time} :
    row ∈ effectiveReleaseExceptions tables projectID moment ↔
      row ∈ tables.exceptions.rows ∧ row.InForce projectID moment := by
  unfold effectiveReleaseExceptions ReleaseExceptionRow.InForce
  have unexpired : (row.expiresAt.all fun expiry => decide (moment < expiry)) = true ↔
      ∀ expiry ∈ row.expiresAt, moment < expiry := by
    cases row.expiresAt <;> simp
  rw [List.mem_insertionSort, List.mem_filter, Bool.and_eq_true, Bool.and_eq_true, unexpired, beq_iff_eq, beq_iff_eq,
    and_assoc]

/-- A decision is ready, or it needs to be taken while exceptions are enabled and one of the project covers it. -/
def AcceptedDecision (codec : Codec) (tables : ReleaseTables) (enabled : Bool) (projectID : ID) (moment : Time)
    (decision : ReleaseAcceptanceDecision) : Prop :=
  decision.status = bytes "ready" ∨ decision.status = bytes "needs_decision" ∧ enabled = true ∧
    ∃ row ∈ tables.exceptions.rows, row.InForce projectID moment ∧ row.Covers codec decision

/-- The gate of a project passes if there is a decision and every decision is accepted. -/
theorem releaseAcceptanceGate_pass {projectID : ID} {applied effective : Bool}
    (resolved : resolveReleaseProjectScope tables.database options.projectID options.projectKey = .ok projectID)
    (positive : 0 < projectID) (approval : releaseExceptionApproval host tables = .ok (applied, effective)) :
    (∃ gate, releaseAcceptanceGate codec host tables preview options = .ok gate ∧ gate.status = bytes "pass") ↔
      preview.decisions ≠ [] ∧ ∀ decision ∈ preview.decisions,
        AcceptedDecision codec tables (effective && applied) projectID options.generatedAt decision := by
  have built : releaseAcceptanceGate codec host tables preview options =
      .ok (buildReleaseAcceptanceGateWithExceptions codec preview
        (if effective && applied then effectiveReleaseExceptions tables projectID options.generatedAt else [])) := by
    unfold releaseAcceptanceGate
    rw [resolved]
    apply (if_pos positive).trans
    rw [approval]
    rfl
  rw [built]
  simp only [Except.ok.injEq, exists_eq_left', buildGate_pass]
  refine and_congr Iff.rfl (forall₂_congr fun decision _ => or_congr Iff.rfl (and_congr Iff.rfl ?_))
  cases effective && applied with
  | false => simp
  | true =>
      simp only [if_true, true_and, mem_effectiveReleaseExceptions]
      constructor
      · rintro ⟨row, ⟨stored, force⟩, _, covers⟩
        exact ⟨row, stored, force, covers⟩
      · rintro ⟨row, stored, force, covers⟩
        exact ⟨row, ⟨stored, force⟩, force.2.1, covers⟩

end Gate

section Fingerprints

variable {codec : Codec} {host : Migrate.MigrateHost} {before now : ReleaseAcceptanceDecision}

/-- The texts of a decision are valid UTF-8. -/
def ReleaseAcceptanceDecision.validTexts (decision : ReleaseAcceptanceDecision) : Bool :=
  Json.valid decision.acceptanceType && Json.valid decision.category && Json.valid (bytes "gate:" ++ decision.key) &&
    Json.valid decision.owner && decision.requiredEvidence.all (·.all Json.valid)

/-- A draft keeps the fingerprint of its gate item. -/
theorem draftOf_fingerprint (item : ReleaseAcceptanceGateItem) (status reason rollbackPlan : GoString) (review : Bool) :
    metadataString (draftOf codec item status reason rollbackPlan review).metadata (bytes "source_fingerprint") =
      releaseExceptionSourceFingerprint codec item.key item.category item.acceptanceType item.owner item.requiredEvidence := by
  have found : metadataGet (draftOf codec item status reason rollbackPlan review).metadata (bytes "source_fingerprint") =
      some (.text (releaseExceptionSourceFingerprint codec item.key item.category item.acceptanceType item.owner
        item.requiredEvidence)) :=
    metadataGet_setKey_self
  unfold metadataString
  rw [found]

/-- The draft of a decision keeps its fingerprint. -/
theorem decisionDraft_fingerprint (needs : before.status = bytes "needs_decision") :
    metadataString (decisionDraft codec before).metadata (bytes "source_fingerprint") =
      releaseExceptionSourceFingerprint codec (bytes "gate:" ++ before.key) before.category (typedOr before.acceptanceType)
        before.owner before.requiredEvidence := by
  have ready : bytes "needs_decision" ≠ bytes "ready" := by decide
  have item : acceptanceGateItemForDecision before none = gateItemOf before (bytes "blocked")
      (bytes "explicit release acceptance evidence is required before this exception can pass")
      (setKeys before.metadata
        [(bytes "decision_status", .text before.status), (bytes "source_action", .text before.sourceAction)]) := by
    unfold acceptanceGateItemForDecision
    rw [if_neg (by rw [needs]; exact ready), if_pos needs]
  unfold decisionDraft releaseExceptionDraftForGateItem
  rw [item]
  split
  · exact draftOf_fingerprint _ _ _ _ _
  · rename_i other
    exact absurd needs other

/-- Valid texts can be read back from their fingerprint. -/
theorem fingerprint_injective (injective : Function.Injective codec.sha256Hex) {gateItem category acceptanceType owner
    gateItem' category' acceptanceType' owner' : GoString} {evidence evidence' : Option (List GoString)}
    (valid : [acceptanceType, category, gateItem, owner].all Json.valid = true ∧
      ∀ texts ∈ evidence, ∀ text ∈ texts, Json.valid text = true)
    (valid' : [acceptanceType', category', gateItem', owner'].all Json.valid = true ∧
      ∀ texts ∈ evidence', ∀ text ∈ texts, Json.valid text = true)
    (same : releaseExceptionSourceFingerprint codec gateItem category acceptanceType owner evidence =
      releaseExceptionSourceFingerprint codec gateItem' category' acceptanceType' owner' evidence') :
    category = category' ∧ owner = owner' ∧ evidence = evidence' := by
  simp only [List.all_cons, List.all_nil, Bool.and_true, Bool.and_eq_true] at valid valid'
  obtain ⟨⟨typed, sorted, item, owned⟩, lists⟩ := valid
  obtain ⟨⟨typed', sorted', item', owned'⟩, lists'⟩ := valid'
  unfold releaseExceptionSourceFingerprint at same
  have entries := Json.object_injective (by
    exact .cons ⟨rfl, Json.quote_delimited typed typed'⟩ (.cons ⟨rfl, Json.quote_delimited sorted sorted'⟩
      (.cons ⟨rfl, Json.quote_delimited item item'⟩ (.cons ⟨rfl, Json.quote_delimited owned owned'⟩
        (.cons ⟨rfl, Json.strings_delimited lists lists'⟩ .nil))))) (injective same)
  simp only [List.cons.injEq, Prod.mk.injEq, true_and, and_true] at entries
  obtain ⟨_, categories, _, owners, evidences⟩ := entries
  exact ⟨Json.quote_injective sorted sorted' categories, Json.quote_injective owned owned' owners,
    Json.strings_injective lists lists' evidences⟩

/-- An exception that was requested for a decision covers another one only if it has the same category, owner and
evidence. -/
theorem covers_same (injective : Function.Injective codec.sha256Hex) (valid : before.validTexts = true)
    (valid' : now.validTexts = true) (needs : before.status = bytes "needs_decision") {row : ReleaseExceptionRow}
    (requested : row.metadata = (decisionDraft codec before).metadata) (covers : row.Covers codec now) :
    now.category = before.category ∧ now.owner = before.owner ∧ now.requiredEvidence = before.requiredEvidence := by
  have same := covers.2.2
  rw [requested, decisionDraft_fingerprint needs] at same
  simp only [ReleaseAcceptanceDecision.validTexts, Bool.and_eq_true, Option.all_eq_true, List.all_eq_true] at valid valid'
  have typed : Json.valid (typedOr before.acceptanceType) = true := by
    unfold typedOr
    split
    · decide
    · exact valid.1.1.1.1
  obtain ⟨category, owner, evidence⟩ := fingerprint_injective injective
    ⟨by simp [typed, valid], valid.2⟩ ⟨by simp [valid'], valid'.2⟩ same
  exact ⟨category.symm, owner.symm, evidence.symm⟩

/-- A recorded exception is stored with the metadata that it had. -/
theorem recordException_metadata {record : ProjectRow} {row : ReleaseExceptionRow}
    {actor reason commandType idempotencyKey : GoString} :
    Meets (fun tables => row ∈ tables.exceptions.rows)
      (recordException record row actor reason commandType idempotencyKey) fun answer tables =>
        answer.row ∈ tables.exceptions.rows ∧ answer.row.metadata = row.metadata := by
  intro host tables host' answer after stored done
  cases done
  exact ⟨List.mem_map.mpr ⟨row, stored, by simp⟩, rfl⟩

/-- A request stores the metadata of its draft. -/
theorem upsert_metadata {now : Time} {record : ProjectRow} {options : RequestReleaseExceptionOptions}
    {draft : ReleaseExceptionRecordDraft} :
    Meets (fun _ => True) (upsertRequestedReleaseException now record options draft) fun row tables =>
      row.metadata = draft.metadata ∧ row ∈ tables.exceptions.rows := by
  intro host tables host' row after _ done
  unfold upsertRequestedReleaseException at done
  split at done
  · cases done
  split at done
  · cases done
    exact ⟨rfl, List.mem_append_right _ (List.mem_singleton_self _)⟩
  · rename_i old found
    dsimp only at done
    split at done
    · cases done
      exact ⟨rfl, List.mem_map.mpr ⟨old, List.mem_of_find?_eq_some found, by simp⟩⟩
    · cases done

/-- A new exception of a request is stored with the metadata of the draft of a decision that needs to be taken. -/
theorem requestReleaseException_drafts (now : Time) (record : ProjectRow) (plan : ReleaseRemediationPlan)
    (raw : RequestReleaseExceptionOptions) :
    Meets (fun _ => True) (requestReleaseException codec host now record plan raw) fun answer tables =>
      answer.created = true → answer.row ∈ tables.exceptions.rows ∧
        ∃ decision ∈ (buildReleaseAcceptancePreview plan).decisions, decision.status = bytes "needs_decision" ∧
          answer.row.metadata = (decisionDraft codec decision).metadata := by
  unfold requestReleaseException
  dsimp only
  split
  · exact Meets.fail
  split
  · exact Meets.fail
  have reads : Meets (fun _ => True) (Tx.check fun tables => releaseExceptionApproval host tables :
      ReleaseCommand (Bool × Bool)) fun _ _ => True := Meets.check fun _ _ _ _ => trivial
  refine Meets.bind reads fun flags => ?_
  obtain ⟨applied, effective⟩ := flags
  dsimp only
  split
  · exact Meets.fail
  refine Meets.bind (Meets.check fun _ gate _ evaluated =>
    show (∃ exceptions, gate = buildReleaseAcceptanceGateWithExceptions codec (buildReleaseAcceptancePreview plan)
      exceptions) ∧ True from ⟨releaseAcceptanceGate_built evaluated, trivial⟩) fun gate => Meets.assuming fun built => ?_
  obtain ⟨exceptions, rfl⟩ := built
  split
  · exact Meets.fail
  rename_i draft found
  split
  · exact Meets.fail
  rename_i requestable
  obtain ⟨decision, member, needs, rfl⟩ := draft_decision (List.mem_of_find?_eq_some found) (not_not.mp requestable)
  unfold onceReleased
  refine Meets.bind (fun _ _ _ _ _ _ _ => trivial) fun created => ?_
  split
  · refine Meets.bind upsert_metadata fun row => Meets.assuming fun kept => ?_
    exact recordException_metadata.consequence (fun _ stored => stored)
      fun _ _ recorded _ => ⟨recorded.1, decision, member, needs, recorded.2.trans kept⟩
  · unfold loadReleaseExceptionCommandResult
    refine Meets.bind (Meets.check fun _ _ _ _ => trivial) fun response => ?_
    refine Meets.bind (Meets.check fun _ _ _ _ => trivial) fun row => ?_
    exact Meets.pure fun _ _ repeated => absurd repeated Bool.false_ne_true

/-- The acceptance gate of a project passes exactly if there is a decision and every decision is ready, or needs to be
taken and is covered by an exception in force. An exception that was requested for a decision with valid texts does not
cover one with another category, owner or evidence, and a new request stores an exception for a decision of its plan. -/
theorem acceptanceGate_exact (codec : Codec) (injective : Function.Injective codec.sha256Hex) (host : Migrate.MigrateHost)
    (tables : ReleaseTables) (preview : ReleaseAcceptancePreview) (options : ReleaseAcceptanceGateOptions) (projectID : ID)
    (applied effective : Bool)
    (resolved : resolveReleaseProjectScope tables.database options.projectID options.projectKey = .ok projectID)
    (positive : 0 < projectID) (approval : releaseExceptionApproval host tables = .ok (applied, effective)) :
    ((∃ gate, releaseAcceptanceGate codec host tables preview options = .ok gate ∧ gate.status = bytes "pass") ↔
      preview.decisions ≠ [] ∧ ∀ decision ∈ preview.decisions,
        AcceptedDecision codec tables (effective && applied) projectID options.generatedAt decision) ∧
    (∀ before now : ReleaseAcceptanceDecision, before.validTexts = true → now.validTexts = true →
      before.status = bytes "needs_decision" → ∀ row : ReleaseExceptionRow,
      row.metadata = (decisionDraft codec before).metadata → row.Covers codec now →
      now.category = before.category ∧ now.owner = before.owner ∧ now.requiredEvidence = before.requiredEvidence) ∧
    ∀ now record plan raw files files' answer after,
      requestReleaseException codec host now record plan raw files tables = (files', .ok (answer, after)) →
      answer.created = true → answer.row ∈ after.exceptions.rows ∧
        ∃ before ∈ (buildReleaseAcceptancePreview plan).decisions, before.status = bytes "needs_decision" ∧
          answer.row.metadata = (decisionDraft codec before).metadata :=
  ⟨releaseAcceptanceGate_pass resolved positive approval, fun _ _ valid valid' needs _ requested covers =>
    covers_same injective valid valid' needs requested covers, fun now record plan raw files _ _ _ ran =>
    requestReleaseException_drafts now record plan raw files tables _ _ _ trivial ran⟩

/-- This codec keeps a text behind its digest, so that it has no collisions. -/
def longCodec : Codec := { sampleCodec with sha256Hex := fun text => Json.digest text ++ text }

theorem longCodec_injective : Function.Injective longCodec.sha256Hex := by
  intro text other same
  exact List.append_inj_right same (by simp [Json.digest])

/-- This is the decision on the gap with some evidence. -/
def gapAcceptance (evidence : List GoString) : ReleaseAcceptanceDecision where
  key := bytes "accept:gap"
  category := bytes "audit"
  status := bytes "needs_decision"
  acceptanceType := bytes "future_only_gap"
  owner := bytes "owner"
  requiredEvidence := some evidence

/-- This is the approved exception that was requested for the gap with some evidence. -/
def gapException (evidence : List GoString) : ReleaseExceptionRow :=
  { requestedException smallProject (gapRequest 10 [])
      (decisionDraft longCodec (gapAcceptance evidence)) 1 0 1 with
    status := .approved }

/-- The exception is stored. -/
def coveredTables (evidence : List GoString) : ReleaseTables :=
  { exceptionTables with exceptions := { rows := [gapException evidence], distinct := List.nodup_singleton _ } }

/-- The gate passes while the evidence stays the same. -/
theorem coveredGap_passes :
    ∃ gate, releaseAcceptanceGate longCodec exceptionHost (coveredTables [bytes "list"])
      { decisions := [gapAcceptance [bytes "list"]] } { generatedAt := 5, projectKey := bytes "a" } = .ok gate ∧
      gate.status = bytes "pass" := by
  have gate := acceptanceGate_exact longCodec longCodec_injective exceptionHost (coveredTables [bytes "list"])
    { decisions := [gapAcceptance [bytes "list"]] } { generatedAt := 5, projectKey := bytes "a" } 1 true true
    rfl (by decide) rfl
  refine gate.1.mpr ⟨by decide, fun decision listed => ?_⟩
  rw [List.mem_singleton.mp listed]
  exact Or.inr ⟨rfl, rfl, gapException [bytes "list"], List.mem_singleton_self _, by decide +kernel, by decide +kernel⟩

/-- The gate passes though the evidence has changed, because both lists have the same JSON text. -/
theorem changedEvidence_passes :
    Function.Injective longCodec.sha256Hex ∧
    (gapException [[0xFF]]).metadata = (decisionDraft longCodec (gapAcceptance [[0xFF]])).metadata ∧
    (gapAcceptance [[0xFE]]).requiredEvidence ≠ (gapAcceptance [[0xFF]]).requiredEvidence ∧
    (releaseAcceptanceGate longCodec exceptionHost (coveredTables [[0xFF]])
      { decisions := [gapAcceptance [[0xFE]]] } { generatedAt := 5, projectKey := bytes "a" }).toOption.map (·.status) =
        some (bytes "pass") :=
  ⟨longCodec_injective, rfl, by decide, by decide +kernel⟩

end Fingerprints

end AreaFlow.Project
