import AreaFlow.Library.Run
import AreaFlow.Construction.Project.WorkflowGates

namespace AreaFlow.Project
open Go Auth

section Operations

variable {codec : Codec} {host : GateHost} {seen : Sights} {db db' : Database} {now : Time} {sequence : Nat}
  {record : ProjectRow} {label : GoString}

/-- An authored version of the project is stored. -/
theorem getAuthoredVersion_ok {version : VersionRow} (ok : getAuthoredVersion db record label = .ok version) :
    version ∈ db.versions ∧ version.projectID = record.id ∧ version.importMode = .authored := by
  unfold getAuthoredVersion at ok
  split at ok
  · cases ok
  · rename_i found loaded
    split at ok
    · cases ok
    · rename_i authored
      cases ok
      unfold getWorkflowVersion at loaded
      split at loaded
      · cases loaded
      · split at loaded
        · cases loaded
        · rename_i look
          cases loaded
          have fits := List.find?_some look
          simp only [Bool.and_eq_true, beq_iff_eq] at fits
          exact ⟨List.mem_of_find?_eq_some look, fits.1, not_not.mp authored⟩

/-- A gate that was run stores its result beside its records. -/
theorem runWorkflowGateFrom_ok {raw : RunGateOptions} {result : GateRow}
    (ok : runWorkflowGateFrom host seen db now sequence record label raw = .ok (db', result)) :
    ∃ gate version audits events commands,
      GateName.ofName (normalizeRunGateOptions raw).gateName = some gate ∧
      getAuthoredVersion seen.version record label = .ok version ∧
      evaluateGate host seen record version gate (normalizeRunGateOptions raw) (freshID (db.gates.map (·.id))) now =
        .ok result ∧
      db' = { db with
        identity := { db.identity with audits := audits }
        gates := db.gates ++ [result], events := events, commands := commands } := by
  unfold runWorkflowGateFrom at ok
  dsimp only at ok
  split at ok
  · cases ok
  · rename_i gate named
    split at ok
    · cases ok
    · rename_i version found
      split at ok
      · cases ok
      · rename_i evaluated
        split at ok
        · cases ok
        · cases ok
          exact ⟨gate, version, _, _, _, named, found, evaluated, rfl⟩

/-- A previewed transition stores its preview beside its records. -/
theorem previewWorkflowTransitionFrom_ok {raw : PreviewTransitionOptions} {preview : PreviewRow}
    (ok : previewWorkflowTransitionFrom codec seen db now sequence record label raw = .ok (db', preview)) :
    ∃ version audits events commands, getAuthoredVersion seen.version record label = .ok version ∧
      preview = evaluateWorkflowTransitionPreview record version
        (latestGateResult seen.gate record.id version.id (bytes "promotion_preview"))
        (normalizePreviewTransitionOptions raw) (freshID (db.previews.map (·.id))) now ∧
      db' = { db with
        identity := { db.identity with audits := audits }
        previews := db.previews ++ [preview], events := events, commands := commands } := by
  unfold previewWorkflowTransitionFrom at ok
  dsimp only at ok
  split at ok
  · cases ok
  · rename_i version found
    split at ok
    · cases ok
    · cases ok
      exact ⟨version, _, _, _, found, rfl, rfl⟩

/-- A key is reserved if and only if it is new. -/
theorem reserveCommandRequest_created {projectID : ID} {commandType key hash : GoString} {commands : List CommandRow}
    (reserved : reserveCommandRequest db.commands projectID commandType key hash = .created commands) :
    db.command projectID commandType key = none := by
  unfold reserveCommandRequest at reserved
  split at reserved
  · assumption
  · split at reserved <;> cases reserved

theorem reserveCommandRequest_repeated {projectID : ID} {commandType key hash : GoString}
    (repeated : reserveCommandRequest db.commands projectID commandType key hash = .repeated) :
    db.command projectID commandType key ≠ none := by
  unfold reserveCommandRequest at repeated
  split at repeated
  · cases repeated
  · rename_i found
    rw [Database.command, found]
    exact Option.some_ne_none _

/-- A recorded approval was checked. It repeats an old one under a known key, or it is stored beside its records under a
new key. -/
theorem createApprovalRecordFrom_ok {raw : CreateApprovalOptions} {approval : ApprovalRow}
    (ok : createApprovalRecordFrom codec seen db now record label raw = .ok (db', approval)) :
    ∃ decision version preview,
      checkApproval codec seen record label (normalizeCreateApprovalOptions raw) = .ok (decision, version, preview) ∧
      let made := buildApprovalRecord record version preview decision (normalizeCreateApprovalOptions raw)
        (freshID (db.approvals.map (·.id))) now
      let known := db.command record.id (bytes "workflow.approval.record")
        (approvalKey codec record version made (normalizeCreateApprovalOptions raw))
      (known ≠ none ∧ db' = db) ∨ known = none ∧ approval = made ∧ ∃ audits events commands,
        db' = { db with
          identity := { db.identity with audits := audits }
          approvals := db.approvals ++ [approval], events := events, commands := commands } := by
  unfold createApprovalRecordFrom at ok
  dsimp only at ok
  split at ok
  · cases ok
  · rename_i decision version preview checked
    refine ⟨decision, version, preview, checked, ?_⟩
    split at ok
    · cases ok
    · rename_i repeated
      obtain ⟨_, _, effect⟩ := map_ok_iff.mp ok
      exact Or.inl ⟨reserveCommandRequest_repeated repeated, (Prod.mk.inj effect).1.symm⟩
    · rename_i reserved
      cases ok
      exact Or.inr ⟨reserveCommandRequest_created reserved, rfl, _, _, _, rfl⟩

/-- A resolved preview is a stored one of the version. -/
theorem resolveApprovalTransitionPreview_mem {projectID versionID previewID : ID} {preview : PreviewRow}
    (found : resolveApprovalTransitionPreview db projectID versionID previewID = some preview) :
    preview ∈ db.previews ∧ preview.projectID = projectID ∧ preview.versionID = versionID := by
  have listed := List.mem_filter.mp (firstBy_mem found)
  simp only [Bool.and_eq_true, beq_iff_eq] at listed
  exact ⟨listed.1, listed.2.1.1, listed.2.1.2⟩

/-- A latest gate result is a stored one of the version. -/
theorem latestGateResult_mem {projectID versionID : ID} {gateName : GoString} {gate : GateRow}
    (found : latestGateResult db projectID versionID gateName = some gate) :
    gate ∈ db.gates ∧ gate.projectID = projectID ∧ gate.versionID = versionID ∧ gate.gateName = gateName := by
  have listed := List.mem_filter.mp (firstBy_mem found)
  simp only [Bool.and_eq_true, beq_iff_eq] at listed
  exact ⟨listed.1, listed.2.1.1, listed.2.1.2, listed.2.2⟩

/-- These are the facts behind a checked approval. -/
theorem checkApproval_ok {options : CreateApprovalOptions} {decision : Decision} {version : VersionRow}
    {preview : Option PreviewRow}
    (ok : checkApproval codec seen record label options = .ok (decision, version, preview)) :
    Decision.ofName options.decision = some decision ∧ getAuthoredVersion seen.version record label = .ok version ∧
      preview = resolveApprovalTransitionPreview seen.preview record.id version.id options.transitionPreviewID ∧
      (decision = .approved → preview.map (·.status) = some .ready ∧
        (highRiskApproval codec options.riskLevel = true →
          sameActor codec options.actor (preview.bind fun found => metadataGet found.metadata (bytes "actor")) = false)) := by
  unfold checkApproval at ok
  split at ok
  · cases ok
  · rename_i named
    split at ok
    · cases ok
    · rename_i loaded
      dsimp only at ok
      split at ok
      · cases ok
      · split at ok
        · cases ok
        · rename_i ready
          split at ok
          · cases ok
          · rename_i apart
            cases ok
            refine ⟨named, loaded, rfl, fun approved => ⟨not_not.mp fun other => ready ⟨approved, other⟩, ?_⟩⟩
            intro risky
            exact Bool.eq_false_iff.mpr fun same => apart ⟨approved, risky, same⟩

/-- A checked approval is linked to a ready preview; at a high risk the actor of the preview has another name. -/
theorem checkApproval_approved {options : CreateApprovalOptions} {version : VersionRow} {preview : Option PreviewRow}
    (ok : checkApproval codec seen record label options = .ok (.approved, version, preview)) :
    getAuthoredVersion seen.version record label = .ok version ∧
      ∃ found, preview = some found ∧ found ∈ seen.preview.previews ∧ found.projectID = record.id ∧
        found.versionID = version.id ∧ found.status = .ready ∧
        (highRiskApproval codec options.riskLevel = true →
          sameActor codec options.actor (metadataGet found.metadata (bytes "actor")) = false) := by
  obtain ⟨-, loaded, resolved, approved⟩ := checkApproval_ok ok
  obtain ⟨status, apart⟩ := approved rfl
  obtain ⟨found, rfl, isReady⟩ := Option.map_eq_some_iff.mp status
  obtain ⟨stored, project, ofVersion⟩ := resolveApprovalTransitionPreview_mem resolved.symm
  exact ⟨loaded, found, rfl, stored, project, ofVersion, isReady, apart⟩

end Operations

section Chain

variable (codec : Codec) (db : Database)

/-- A preview names who asked for it, and a ready one refers to a passed promotion preview of its version. -/
structure PreviewChain (preview : PreviewRow) : Prop where
  asked : ∃ requester, metadataGet preview.metadata (bytes "actor") = some (.text requester) ∧ requester ≠ []
  passed : preview.status = .ready → ∃ gate ∈ db.gates, gate.id = preview.gateResultID ∧
    gate.projectID = preview.projectID ∧ gate.versionID = preview.versionID ∧
    gate.gateName = bytes "promotion_preview" ∧ gate.status = bytes "pass"

/-- An approval belongs to an authored version and refers to a ready preview of it, which refers to a passed gate;
at a high risk the approver is not the one who asked for the preview. -/
def ApprovalChain (approval : ApprovalRow) : Prop :=
  (∃ version ∈ db.versions, version.id = approval.versionID ∧ version.projectID = approval.projectID ∧
    version.importMode = .authored) ∧
  ∃ preview ∈ db.previews, preview.id = approval.transitionPreviewID ∧ preview.projectID = approval.projectID ∧
    preview.versionID = approval.versionID ∧ preview.status = .ready ∧
    (∃ gate ∈ db.gates, gate.id = preview.gateResultID ∧ gate.projectID = approval.projectID ∧
      gate.versionID = approval.versionID ∧ gate.gateName = bytes "promotion_preview" ∧ gate.status = bytes "pass") ∧
    (highRiskApproval codec approval.riskLevel = true →
      ∃ requester, metadataGet preview.metadata (bytes "actor") = some (.text requester) ∧ requester ≠ [] ∧
        codec.cases.equalFold (trimSpace approval.actor) (trimSpace requester) = false)

/-- The workflow tables only grow, and no version changes. -/
structure Grown (before after : Database) : Prop where
  versions : after.versions = before.versions
  gates : before.gates ⊆ after.gates
  previews : before.previews ⊆ after.previews

/-- The earlier tables have grown to the current ones, and these hold chained previews and approvals. -/
structure Chained (flow : Flow) : Prop where
  earlier : ∀ old ∈ flow.past, Grown old flow.db
  previews : ∀ preview ∈ flow.db.previews, PreviewChain flow.db preview
  approvals : ∀ approval ∈ flow.db.approvals, approval.decision = .approved → ApprovalChain codec flow.db approval

end Chain

namespace Grown

theorem same (db : Database) : Grown db db := ⟨rfl, fun _ member => member, fun _ member => member⟩

theorem trans {first second third : Database} (one : Grown first second) (two : Grown second third) :
    Grown first third where
  versions := two.versions.trans one.versions
  gates _ member := two.gates (one.gates member)
  previews _ member := two.previews (one.previews member)

variable {codec : Codec} {before after : Database}

/-- A chained preview stays chained. -/
theorem preview (grown : Grown before after) {preview : PreviewRow} (chain : PreviewChain before preview) :
    PreviewChain after preview where
  asked := chain.asked
  passed ready := by
    obtain ⟨gate, stored, facts⟩ := chain.passed ready
    exact ⟨gate, grown.gates stored, facts⟩

/-- A chained approval stays chained. -/
theorem approval (grown : Grown before after) {approval : ApprovalRow} (chain : ApprovalChain codec before approval) :
    ApprovalChain codec after approval := by
  obtain ⟨⟨version, known, authored⟩, preview, stored, id, project, ofVersion, ready, ⟨gate, kept, passed⟩, apart⟩ := chain
  refine ⟨⟨version, grown.versions ▸ known, authored⟩, preview, grown.previews stored, id, project, ofVersion, ready, ?_,
    apart⟩
  exact ⟨gate, grown.gates kept, passed⟩

end Grown

section Step

variable {codec : Codec} {host : GateHost} {flow : Flow}

/-- Every query saw tables that have grown to the current ones. -/
theorem Chained.before (chained : Chained codec flow) (ago : Nat) : Grown (flow.before ago) flow.db := by
  unfold Flow.before
  rw [List.getD_eq_getElem?_getD]
  cases read : (flow.db :: flow.past)[ago]? with
  | none => exact Grown.same flow.db
  | some old =>
      rcases List.mem_cons.mp (List.mem_of_getElem? read) with rfl | older
      · exact Grown.same _
      · exact chained.earlier old older

/-- A step that lets the tables grow keeps the chain, if the new previews and approvals are chained. -/
theorem Chained.next (chained : Chained codec flow) {db : Database} (grown : Grown flow.db db)
    (previews : ∀ preview ∈ db.previews, preview ∈ flow.db.previews ∨ PreviewChain db preview)
    (approvals : ∀ approval ∈ db.approvals,
      approval ∈ flow.db.approvals ∨ (approval.decision = .approved → ApprovalChain codec db approval)) :
    Chained codec ⟨db, flow.db :: flow.past⟩ where
  earlier := by
    intro old member
    rcases List.mem_cons.mp member with rfl | older
    · exact grown
    · exact (chained.earlier old older).trans grown
  previews := by
    intro preview member
    rcases previews preview member with old | new
    · exact grown.preview (chained.previews preview old)
    · exact new
  approvals := by
    intro approval member approved
    rcases approvals approval member with old | new
    · exact grown.approval (chained.approvals approval old approved)
    · exact new approved

/-- A text with a default is not empty. -/
theorem textOr_ne_nil {fallback : GoString} (given : fallback ≠ []) (text : GoString) : textOr fallback text ≠ [] := by
  unfold textOr
  split
  · exact given
  · assumption

/-- A preview that is made from a gate result that was stored before is chained. -/
theorem evaluateWorkflowTransitionPreview_chain {seen db : Database} (grown : seen.gates ⊆ db.gates) (record : ProjectRow)
    (version : VersionRow) (raw : PreviewTransitionOptions) (id : ID) (now : Time) :
    PreviewChain db (evaluateWorkflowTransitionPreview record version
      (latestGateResult seen record.id version.id (bytes "promotion_preview")) (normalizePreviewTransitionOptions raw)
      id now) where
  asked := ⟨textOr (bytes "local-user") raw.actor, rfl, textOr_ne_nil (by decide) _⟩
  passed := by
    intro ready
    unfold evaluateWorkflowTransitionPreview at ready ⊢
    dsimp only at ready ⊢
    cases found : latestGateResult seen record.id version.id (bytes "promotion_preview") with
    | none => simp [found, previewBlockers] at ready
    | some gate =>
        obtain ⟨stored, project, ofVersion, name⟩ := latestGateResult_mem found
        refine ⟨gate, grown stored, rfl, project, ofVersion, name, ?_⟩
        by_contra failed
        simp [found, previewBlockers, failed] at ready

theorem committed_eq_some {A : Type} {outcome : Except WorkflowError (Database × A)} {db : Database}
    (made : committed outcome = some db) : ∃ answer, outcome = .ok (db, answer) := by
  cases outcome with
  | error failure => cases made
  | ok done =>
      cases made
      exact ⟨done.2, rfl⟩

/-- The approval of a checked request is chained. -/
theorem checkApproval_chain (chained : Chained codec flow) {reads : Reads} {record : ProjectRow} {label : GoString}
    {options : CreateApprovalOptions} {version : VersionRow} {preview : Option PreviewRow}
    (checked : checkApproval codec (flow.sights reads) record label options = .ok (.approved, version, preview))
    (id : ID) (now : Time) :
    ApprovalChain codec flow.db (buildApprovalRecord record version preview .approved options id now) := by
  obtain ⟨authored, found, rfl, stored, project, ofVersion, ready, apart⟩ := checkApproval_approved checked
  obtain ⟨known, owned, mode⟩ := getAuthoredVersion_ok authored
  have present : found ∈ flow.db.previews := (chained.before reads.preview).previews stored
  obtain ⟨requester, asked, named⟩ := (chained.previews found present).asked
  obtain ⟨gate, kept, named', ofProject, ofTheVersion, passed⟩ := (chained.previews found present).passed ready
  refine ⟨⟨version, (chained.before reads.version).versions ▸ known, rfl, owned, mode⟩, found, present, rfl, project,
    ofVersion, ready, ⟨gate, kept, named', ofProject.trans project, ofTheVersion.trans ofVersion, passed⟩, ?_⟩
  intro risky
  refine ⟨requester, asked, named, ?_⟩
  have separate := apart risky
  rw [asked] at separate
  simpa [sameActor, buildApprovalRecord, named] using separate

/-- Every workflow operation keeps the chain, whatever its queries saw. -/
theorem flowStep_chained (chained : Chained host.codec flow) (event : FlowEvent) :
    Chained host.codec (flowStep host flow event).1 := by
  unfold flowStep
  split
  · exact chained
  · rename_i db outcome
    cases event with
    | runGate reads now sequence projectKey label options =>
        obtain ⟨record, -, made⟩ := Option.bind_eq_some_iff.mp outcome
        obtain ⟨result, ok⟩ := committed_eq_some made
        obtain ⟨gate, version, audits, events, commands, -, -, -, rfl⟩ := runWorkflowGateFrom_ok ok
        have grown : Grown flow.db { flow.db with
            identity := { flow.db.identity with audits := audits }
            gates := flow.db.gates ++ [result], events := events, commands := commands } :=
          ⟨rfl, List.subset_append_left _ _, fun _ member => member⟩
        exact chained.next grown (fun _ member => Or.inl member) fun _ member => Or.inl member
    | previewTransition reads now sequence projectKey label options =>
        obtain ⟨record, -, made⟩ := Option.bind_eq_some_iff.mp outcome
        obtain ⟨preview, ok⟩ := committed_eq_some made
        obtain ⟨version, audits, events, commands, -, evaluated, rfl⟩ := previewWorkflowTransitionFrom_ok ok
        have grown : Grown flow.db { flow.db with
            identity := { flow.db.identity with audits := audits }
            previews := flow.db.previews ++ [preview], events := events, commands := commands } :=
          ⟨rfl, fun _ member => member, List.subset_append_left _ _⟩
        have chain : PreviewChain flow.db preview := by
          rw [evaluated]
          exact evaluateWorkflowTransitionPreview_chain (chained.before reads.gate).gates record version options _ now
        refine chained.next grown ?_ fun _ member => Or.inl member
        intro row member
        rcases List.mem_append.mp member with old | last
        · exact Or.inl old
        · rw [List.mem_singleton.mp last]
          exact Or.inr (grown.preview chain)
    | createApproval reads now projectKey label options =>
        obtain ⟨record, -, made⟩ := Option.bind_eq_some_iff.mp outcome
        obtain ⟨approval, ok⟩ := committed_eq_some made
        obtain ⟨decision, version, preview, checked, ⟨-, rfl⟩ | ⟨-, built, audits, events, commands, rfl⟩⟩ :=
          createApprovalRecordFrom_ok ok
        · exact chained.next (Grown.same _) (fun _ member => Or.inl member) fun _ member => Or.inl member
        · have grown : Grown flow.db { flow.db with
              identity := { flow.db.identity with audits := audits }
              approvals := flow.db.approvals ++ [approval], events := events, commands := commands } :=
            ⟨rfl, fun _ member => member, fun _ member => member⟩
          have chain : approval.decision = .approved → ApprovalChain host.codec flow.db approval := by
            rw [built]
            intro approved
            obtain rfl : decision = .approved := approved
            exact checkApproval_chain chained checked _ now
          refine chained.next grown (fun _ member => Or.inl member) ?_
          intro row member
          rcases List.mem_append.mp member with old | last
          · exact Or.inl old
          · rw [List.mem_singleton.mp last]
            exact Or.inr fun approved => grown.approval (chain approved)

/-- After every interleaving of gate runs, transition previews and approvals, every approved approval is chained to a
ready preview and a passed promotion preview of its authored version, and a high-risk one names another actor. -/
theorem approvals_chained (host : GateHost) (tables : Database) (unasked : tables.previews = [])
    (unapproved : tables.approvals = []) (events : List FlowEvent) :
    ∀ approval ∈ (Run.final (flowStep host) ⟨tables, []⟩ events).db.approvals, approval.decision = .approved →
      ApprovalChain host.codec (Run.final (flowStep host) ⟨tables, []⟩ events).db approval := by
  have initial : Chained host.codec ⟨tables, []⟩ :=
    ⟨by simp, by simp [unasked], by simp [unapproved]⟩
  have keeps : ∀ flow event, Chained host.codec flow → Chained host.codec (flowStep host flow event).1 :=
    fun _ event chained => flowStep_chained chained event
  have reached : Chained host.codec (Run.final (flowStep host) ⟨tables, []⟩ events) :=
    Run.final_invariant keeps initial events
  exact reached.approvals

end Step

section Decision

variable {codec : Codec} {db db' : Database} {now : Time} {record : ProjectRow} {label : GoString}
  {raw : CreateApprovalOptions} {approval : ApprovalRow} {version : VersionRow}

/-- This is the row that a request without other calls would store. -/
def nextApproval (db : Database) (now : Time) (record : ProjectRow) (version : VersionRow) (decision : Decision)
    (options : CreateApprovalOptions) : ApprovalRow :=
  buildApprovalRecord record version
    (resolveApprovalTransitionPreview db record.id version.id options.transitionPreviewID) decision options
    (freshID (db.approvals.map (·.id))) now

/-- The approval of a version that is stored last is the latest one. -/
theorem latestApprovalRecord_append (clock : ∀ row ∈ db.approvals, row.createdAt ≤ approval.createdAt)
    (fresh : approval.id = freshID (db.approvals.map (·.id))) (grown : db'.approvals = db.approvals ++ [approval]) :
    latestApprovalRecord db' approval.projectID approval.versionID = some approval := by
  unfold latestApprovalRecord newest
  rw [grown, List.filter_append]
  simp only [List.filter_cons, beq_self_eq_true, Bool.and_self, if_true, List.filter_nil]
  apply firstBy_append_last
  intro row listed
  have member := List.mem_of_mem_filter listed
  have older := clock row member
  have below : row.id < approval.id := fresh ▸ lt_freshID (List.mem_map_of_mem member)
  simp only [newerFirst, decide_eq_false_iff_not]
  rintro (later | ⟨-, above⟩)
  · exact absurd later (Nat.not_lt.mpr older)
  · exact absurd below (Int.not_lt.mpr above)

/-- This is the key that a request without a key of its own gets. -/
def derivedApprovalKey (codec : Codec) (db : Database) (now : Time) (record : ProjectRow) (version : VersionRow)
    (decision : Decision) (options : CreateApprovalOptions) : GoString :=
  approvalKey codec record version (nextApproval db now record version decision options)
    { options with idempotencyKey := [] }

/-- A call without a key and without concurrent calls that returns no error takes effect if and only if its derived key
is new or the latest approval has its decision already. -/
theorem createApprovalRecord_effective_iff {decision : Decision} (unkeyed : trimSpace raw.idempotencyKey = [])
    (clock : ∀ row ∈ db.approvals, row.createdAt ≤ now)
    (decided : Decision.ofName (normalizeCreateApprovalOptions raw).decision = some decision)
    (authored : getAuthoredVersion db record label = .ok version)
    (ok : createApprovalRecord codec db now record label raw = .ok (db', approval)) :
    (latestApprovalRecord db' record.id version.id).map (·.decision) = some decision ↔
      db.command record.id (bytes "workflow.approval.record")
          (derivedApprovalKey codec db now record version decision (normalizeCreateApprovalOptions raw)) = none ∨
        (latestApprovalRecord db record.id version.id).map (·.decision) = some decision := by
  obtain ⟨found, itsVersion, preview, checked, outcome⟩ := createApprovalRecordFrom_ok ok
  obtain ⟨named, loaded, rfl, -⟩ := checkApproval_ok checked
  obtain rfl : found = decision := Option.some.inj (named.symm.trans decided)
  obtain rfl : itsVersion = version := Except.ok.inj (loaded.symm.trans authored)
  have key : approvalKey codec record itsVersion
      (nextApproval db now record itsVersion found (normalizeCreateApprovalOptions raw))
      (normalizeCreateApprovalOptions raw) =
      derivedApprovalKey codec db now record itsVersion found (normalizeCreateApprovalOptions raw) := by
    unfold derivedApprovalKey approvalKey
    rw [if_pos (show (normalizeCreateApprovalOptions raw).idempotencyKey = [] from unkeyed), if_pos rfl]
  rw [← key]
  rcases outcome with ⟨repeated, rfl⟩ | ⟨new, made, audits, events, commands, stored⟩
  · constructor
    · exact Or.inr
    · rintro (new | already)
      · exact absurd new repeated
      · exact already
  · refine iff_of_true ?_ (Or.inl new)
    have grown : db'.approvals = db.approvals ++ [approval] := by rw [stored]
    have latest : latestApprovalRecord db' record.id itsVersion.id = some approval := by
      rw [made] at grown ⊢
      exact latestApprovalRecord_append clock rfl grown
    rw [latest, made]
    rfl

end Decision

section Installation

/-- This host has no profiles. -/
def gateHost : GateHost where
  codec := Auth.sampleCodec
  profileRootError := none
  loadProfile := fun _ => .error []
  cutoverReadiness := fun _ _ _ => .error (.failed [])

/-- One project with an authored version and the finished items of its promotion preview. -/
def promotedTables : Database where
  identity := { projects := [smallProject], projectIDs := nodup_smallProjects }
  versions := [{ id := 1, projectID := 1, displayLabel := bytes "v1", importMode := .authored }]
  items :=
    [{ id := 1, projectID := 1, versionID := 1, stage := bytes "queue", itemType := bytes "queue_candidate",
       externalKey := bytes "q", title := [], status := bytes "ready", sourcePath := [], sourceHash := bytes "h",
       metadata := [], createdAt := 0 },
     { id := 2, projectID := 1, versionID := 1, stage := bytes "promotion_preview", itemType := bytes "promotion_preview",
       externalKey := bytes "p", title := [], status := bytes "ready", sourcePath := [], sourceHash := bytes "h",
       metadata := [], createdAt := 0 }]

/-- A gate of the version is run on the current tables. -/
def runGateAt (now : Time) (name : GoString) : FlowEvent :=
  .runGate {} now now (bytes "a") (bytes "v1") { gateName := name }

/-- Someone asks for the transition on the current tables. -/
def previewAt (now : Time) (actor : GoString) : FlowEvent :=
  .previewTransition {} now now (bytes "a") (bytes "v1") { fromStage := [], toStage := [], actor := actor, reason := [] }

/-- A decision at a high risk, without a key. -/
def decisionOptions (actor decision : GoString) : CreateApprovalOptions where
  decision := decision
  approvalKind := []
  actor := actor
  reason := []
  riskLevel := bytes "high"
  idempotencyKey := []
  transitionPreviewID := 0
  metadata := []

/-- Someone decides on the transition on the current tables. -/
def decideAt (now : Time) (actor decision : GoString) : FlowEvent :=
  .createApproval {} now (bytes "a") (bytes "v1") (decisionOptions actor decision)

/-- The gate passes, one person asks for the transition and another approves it. -/
def approvedFlow : List FlowEvent :=
  [runGateAt 1 (bytes "promotion_preview"), previewAt 2 (bytes "ann"), decideAt 3 (bytes "bob") (bytes "approved")]

/-- The person who asked was answered with a rejection and then with an approval. -/
def overruledFlow : List FlowEvent :=
  approvedFlow.take 2 ++ [decideAt 3 (bytes "bob") (bytes "rejected"), decideAt 4 (bytes "bob") (bytes "approved")]

/-- The tables after the events. -/
def tablesAfter (events : List FlowEvent) : Database :=
  (Run.final (flowStep gateHost) ⟨promotedTables, []⟩ events).db

/-- One person asks, another approves, and their approval is chained. -/
theorem approvedFlow_chained :
    ∃ approval ∈ (tablesAfter approvedFlow).approvals,
      approval.decision = .approved ∧ highRiskApproval gateHost.codec approval.riskLevel = true ∧
      ApprovalChain gateHost.codec (tablesAfter approvedFlow) approval := by
  have stored : ∃ approval ∈ (tablesAfter approvedFlow).approvals,
      approval.decision = .approved ∧ highRiskApproval gateHost.codec approval.riskLevel = true := by decide +kernel
  obtain ⟨approval, member, approved, risky⟩ := stored
  refine ⟨approval, member, approved, risky, ?_⟩
  unfold tablesAfter at member ⊢
  exact approvals_chained gateHost promotedTables rfl rfl approvedFlow approval member approved

/-- A first approval takes effect: its key is new. -/
theorem firstApproval_effective :
    ∃ db' approval, createApprovalRecord gateHost.codec (tablesAfter (approvedFlow.take 2)) 3 smallProject
        (bytes "v1") (decisionOptions (bytes "bob") (bytes "approved")) = .ok (db', approval) ∧
      (latestApprovalRecord db' 1 1).map (·.decision) = some .approved := by
  have answered : (createApprovalRecord gateHost.codec (tablesAfter (approvedFlow.take 2)) 3 smallProject
      (bytes "v1") (decisionOptions (bytes "bob") (bytes "approved"))).map (fun _ => ()) = .ok () := by decide +kernel
  obtain ⟨⟨db', approval⟩, ok, -⟩ := map_ok_iff.mp answered
  refine ⟨db', approval, ok, ?_⟩
  have loaded : getAuthoredVersion (tablesAfter (approvedFlow.take 2)) smallProject (bytes "v1") =
      .ok { id := 1, projectID := 1, displayLabel := bytes "v1", importMode := .authored } := by decide +kernel
  refine (createApprovalRecord_effective_iff ?_ ?_ (show _ = some Decision.approved from ?_) loaded ok).mpr (Or.inl ?_)
  · decide
  · decide +kernel
  · decide
  · decide +kernel

/-- The transition is rejected, approved and rejected again by the same person. The second rejection returns no error,
and the approval is still the latest. -/
theorem repeatedRejection_ineffective :
    ∃ db' approval, createApprovalRecord gateHost.codec (tablesAfter overruledFlow) 5 smallProject
        (bytes "v1") (decisionOptions (bytes "bob") (bytes "rejected")) = .ok (db', approval) ∧
      approval.decision = .rejected ∧ (latestApprovalRecord db' 1 1).map (·.decision) = some .approved := by
  have answered : (createApprovalRecord gateHost.codec (tablesAfter overruledFlow) 5 smallProject
        (bytes "v1") (decisionOptions (bytes "bob") (bytes "rejected"))).map
      (fun answer => (answer.2.decision, (latestApprovalRecord answer.1 1 1).map (·.decision))) =
      .ok (.rejected, some .approved) := by
    decide +kernel
  obtain ⟨⟨db', approval⟩, ok, facts⟩ := map_ok_iff.mp answered
  exact ⟨db', approval, ok, congrArg (·.1) facts, congrArg (·.2) facts⟩

end Installation

end AreaFlow.Project
