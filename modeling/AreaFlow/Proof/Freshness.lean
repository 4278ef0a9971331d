import AreaFlow.Construction.Project.History
import AreaFlow.Proof.Approvals
import AreaFlow.Proof.Persistence

namespace AreaFlow.Project
open Go Auth Tx

set_option synthInstance.maxSize 2048

/-- A step leaves the versions, the gate results, the previews and the approvals. -/
structure SameFlow (before after : Database) : Prop where
  versions : after.versions = before.versions
  gates : after.gates = before.gates
  previews : after.previews = before.previews
  approvals : after.approvals = before.approvals

namespace SameFlow

variable {Files : Type}

theorem same (db : Database) : SameFlow db db := ⟨rfl, rfl, rfl, rfl⟩

instance : IsPreorder Database SameFlow where
  refl := same
  trans _ _ _ first second :=
    ⟨second.versions.trans first.versions, second.gates.trans first.gates, second.previews.trans first.previews,
      second.approvals.trans first.approvals⟩

instance : Work Files SameFlow := .of_ignoring fun _ _ _ _ _ _ _ _ => ⟨rfl, rfl, rfl, rfl⟩

instance : Staff Files SameFlow := .of_ignoring fun _ _ _ _ => ⟨rfl, rfl, rfl, rfl⟩

instance {commandType : GoString} : Once Files SameFlow commandType :=
  Once.of_commands fun _ _ => .of_ignoring fun _ _ => ⟨rfl, rfl, rfl, rfl⟩

theorem grown {before after : Database} (unchanged : SameFlow before after) : Grown before after where
  versions := unchanged.versions
  gates := unchanged.gates ▸ fun _ member => member
  previews := unchanged.previews ▸ fun _ member => member

end SameFlow

section Ready

variable {Files : Type} {relation : Database → Database → Prop} [Steps Files relation] {env : Env Files} {now : Time}
  {record : ProjectRow}

/-- A ready mark moves along a relation that is indifferent to the change of its item. -/
theorem markWorkflowItemReady_moves {seen : Database} {label : GoString} {raw : MarkWorkflowItemReadyOptions}
    (marked : ∀ options item artifact,
      Moves relation (updateWorkflowItemReady options item artifact : Command Files ItemRow)) :
    Moves relation (markWorkflowItemReady env now record seen label raw) := by
  have marker (version : VersionRow) (options : MarkWorkflowItemReadyOptions) (item : ItemRow) :
      Moves relation (writeAndInsertReadyMarkerArtifact env now record version options item) := by
    unfold writeAndInsertReadyMarkerArtifact
    infer_instance
  unfold markWorkflowItemReady
  dsimp only
  split
  · infer_instance
  · infer_instance

instance {seen : Database} {label : GoString} {raw : MarkWorkflowItemReadyOptions} :
    Moves SameFlow (markWorkflowItemReady env now record seen label raw) :=
  markWorkflowItemReady_moves fun _ _ _ => Moves.write fun _ => ⟨rfl, rfl, rfl, rfl⟩

instance {seen : Database} {label : GoString} {raw : MarkWorkflowItemReadyOptions} :
    Moves Persists (markWorkflowItemReady env now record seen label raw) :=
  markWorkflowItemReady_moves fun _ _ _ => Moves.write fun _ => Persists.of_same rfl rfl rfl rfl rfl rfl

end Ready

section Executions

variable {Files : Type} {relation : Database → Database → Prop} [Work Files relation]
  [∀ commandType, Once Files relation commandType] {env : Env Files} {now : Time} {record : ProjectRow}

instance {operation : Operation} {seen : Database} {options : ExecutionOptions} :
    Moves relation (operation.apply env now seen record options) := by
  cases operation with
  | fixtureExecution =>
      unfold Operation.apply
      infer_instance
  | readOnlyVerify =>
      unfold Operation.apply
      infer_instance
  | approvedArtifactWrite =>
      unfold Operation.apply
      infer_instance
  | fixtureProjectWrite =>
      unfold Operation.apply
      infer_instance
  | managedGeneratedWrite =>
      unfold Operation.apply
      infer_instance

end Executions

section Gates

variable {host : GateHost} {seen : Sights} {record : ProjectRow} {version : VersionRow} {gate : GateName}
  {options : RunGateOptions} {id : ID} {now : Time} {result : GateRow}

/-- A passed live mapping names a passed promotion preview of its version. -/
def Mapped (db : Database) (gate : GateRow) : Prop :=
  gate.gateName = bytes "live_mapping_gate" → gate.status = bytes "pass" →
    ∃ promotion ∈ db.gates, promotion.status = bytes "pass" ∧
      metadataGet gate.inputs (bytes "promotion_gate_result_id") = some (.number promotion.id)

/-- The result of a gate has its identifier and its name. -/
theorem evaluateGate_ok (ok : evaluateGate host seen record version gate options id now = .ok result) :
    result.id = id ∧ result.gateName = gate.name := by
  cases gate with
  | cutoverReadinessGate =>
      obtain ⟨readiness, -, rfl⟩ := map_ok_iff.mp ok
      exact ⟨rfl, rfl⟩
  | profileBindingDrift =>
      cases ok
      unfold evaluateProfileBindingDriftGate
      dsimp only
      split
      · exact ⟨rfl, rfl⟩
      · split <;> exact ⟨rfl, rfl⟩
  | _ =>
      cases ok
      exact ⟨rfl, rfl⟩

theorem passUnless_pass {failures : List GoString} (passed : passUnless failures = bytes "pass") : failures = [] := by
  by_contra some
  rw [passUnless, if_neg some] at passed
  exact absurd passed (by decide)

/-- A live mapping that passes found a passed promotion preview. -/
theorem liveMappingFailures_nil {approval : Option ApprovalRow} {preview : Option PreviewRow} {promotion : Option GateRow}
    (none : liveMappingFailures approval preview promotion = []) :
    ∃ found, promotion = some found ∧ found.status = bytes "pass" := by
  unfold liveMappingFailures at none
  have last := (List.append_eq_nil_iff.mp none).2
  cases promotion with
  | none => simp at last
  | some found =>
      refine ⟨found, rfl, ?_⟩
      by_contra failed
      simp [failed] at last

/-- Every result of a gate that read stored results is mapped. -/
theorem evaluateGate_mapped {db : Database} (grown : seen.gate.gates ⊆ db.gates)
    (ok : evaluateGate host seen record version gate options id now = .ok result) : Mapped db result := by
  intro named passed
  rw [(evaluateGate_ok ok).2] at named
  obtain rfl : gate = .liveMappingGate := by
    revert named
    cases gate <;> decide
  cases ok
  obtain ⟨promotion, found, status⟩ := liveMappingFailures_nil (passUnless_pass passed)
  refine ⟨promotion, grown (latestGateResult_mem found).1, status, ?_⟩
  unfold evaluateLiveMappingGate
  rw [found]
  rfl

end Gates

/-- The tables are chained, no row of the work was lost, and every live mapping names the promotion preview it saw. -/
structure Sound {Files : Type} (codec : Codec) (history : History Files) : Prop where
  chained : Chained codec history.flow
  kept : ∀ old ∈ history.past, Persists old history.db
  numbered : (history.db.gates.map (·.id)).Nodup
  mapped : ∀ gate ∈ history.db.gates, Mapped history.db gate

section Steps

variable {Files : Type} {env : Env Files} {host : GateHost} {codec : Codec} {history : History Files}

/-- A workflow operation keeps the rows of the work. It leaves the gate results, or it adds a mapped one. -/
theorem FlowEvent.outcome_frame {flow : Flow} (chained : Chained host.codec flow) {event : FlowEvent} {db : Database}
    (made : event.outcome host flow = some db) :
    Persists flow.db db ∧ (db.gates = flow.db.gates ∨
      ∃ result, db.gates = flow.db.gates ++ [result] ∧ result.id = freshID (flow.db.gates.map (·.id)) ∧
        Mapped flow.db result) := by
  cases event with
  | runGate reads now sequence projectKey label options =>
      obtain ⟨record, -, outcome⟩ := Option.bind_eq_some_iff.mp made
      obtain ⟨result, ok⟩ := committed_eq_some outcome
      obtain ⟨gate, version, audits, events, commands, -, -, evaluated, rfl⟩ := runWorkflowGateFrom_ok ok
      refine ⟨Persists.of_same rfl rfl rfl rfl rfl rfl, Or.inr ⟨result, rfl, (evaluateGate_ok evaluated).1, ?_⟩⟩
      exact evaluateGate_mapped (chained.before reads.gate).gates evaluated
  | previewTransition reads now sequence projectKey label options =>
      obtain ⟨record, -, outcome⟩ := Option.bind_eq_some_iff.mp made
      obtain ⟨preview, ok⟩ := committed_eq_some outcome
      obtain ⟨version, audits, events, commands, -, -, rfl⟩ := previewWorkflowTransitionFrom_ok ok
      exact ⟨Persists.of_same rfl rfl rfl rfl rfl rfl, Or.inl rfl⟩
  | createApproval reads now projectKey label options =>
      obtain ⟨record, -, outcome⟩ := Option.bind_eq_some_iff.mp made
      obtain ⟨approval, ok⟩ := committed_eq_some outcome
      obtain ⟨decision, version, preview, -, ⟨-, rfl⟩ | ⟨-, -, audits, events, commands, rfl⟩⟩ :=
        createApprovalRecordFrom_ok ok
      · exact ⟨Persists.same _, Or.inl rfl⟩
      · exact ⟨Persists.of_same rfl rfl rfl rfl rfl rfl, Or.inl rfl⟩

/-- A workflow operation keeps the state sound. -/
theorem Sound.workflow (sound : Sound host.codec history) {event : FlowEvent} {db : Database}
    (made : event.outcome host history.flow = some db) :
    Sound host.codec ⟨history.files, db, history.db :: history.past⟩ := by
  obtain ⟨persists, gates⟩ := FlowEvent.outcome_frame sound.chained made
  have chained : Chained host.codec ⟨db, history.db :: history.past⟩ := by
    have next := flowStep_chained sound.chained event
    rw [flowStep, made] at next
    exact next
  refine ⟨chained, ?_, ?_, ?_⟩
  · intro old member
    rcases List.mem_cons.mp member with rfl | older
    · exact persists
    · exact Trans.trans (sound.kept old older) persists
  · rcases gates with same | ⟨result, grown, fresh, -⟩
    · rw [same]
      exact sound.numbered
    · rw [grown]
      exact Table.nodup_append_fresh sound.numbered (fresh ▸ freshID_not_mem _)
  · have stays {gate : GateRow} (mapped : Mapped history.db gate) : Mapped db gate := by
      intro named passed
      obtain ⟨promotion, stored, facts⟩ := mapped named passed
      exact ⟨promotion, (chained.earlier history.db List.mem_cons_self).gates stored, facts⟩
    intro gate member
    rcases gates with same | ⟨result, grown, -, mapped⟩
    · exact stays (sound.mapped gate (same ▸ member))
    · rcases List.mem_append.mp (grown ▸ member) with old | last
      · exact stays (sound.mapped gate old)
      · rw [List.mem_singleton.mp last]
        exact stays mapped

/-- A command that leaves the workflow tables and the rows of the work keeps the state sound. -/
theorem Sound.apply {A : Type} (sound : Sound codec history) (command : Command Files A) [Moves SameFlow command]
    [Moves Persists command] : Sound codec (history.apply command) := by
  have same : SameFlow history.db (history.apply command).db := Moves.commit history.files history.db
  have persists : Persists history.db (history.apply command).db := Moves.commit history.files history.db
  refine ⟨?_, ?_, same.gates ▸ sound.numbered, ?_⟩
  · refine sound.chained.next same.grown ?_ ?_
    · exact fun preview member => Or.inl (same.previews ▸ member)
    · exact fun approval member => Or.inl (same.approvals ▸ member)
  · intro old member
    rcases List.mem_cons.mp member with rfl | older
    · exact persists
    · exact Trans.trans (sound.kept old older) persists
  · intro gate member named passed
    obtain ⟨promotion, stored, facts⟩ := sound.mapped gate (same.gates ▸ member) named passed
    exact ⟨promotion, same.gates ▸ stored, facts⟩

/-- Every step of an interleaving keeps the state sound. -/
theorem historyStep_sound (sound : Sound host.codec history) (event : HistoryEvent) :
    Sound host.codec (historyStep env host history event).1 := by
  cases event with
  | workflow event =>
      unfold historyStep
      dsimp only
      split
      · exact sound
      · rename_i made
        exact sound.workflow made
  | markReady reads now projectKey label options =>
      unfold historyStep
      dsimp only
      split
      · exact sound
      · exact sound.apply _
  | execute operation reads now projectKey options =>
      unfold historyStep
      dsimp only
      split
      · exact sound
      · exact sound.apply _
  | call now sequence seen projectKey call =>
      unfold historyStep
      dsimp only
      split
      · exact sound
      · rename_i record _
        have same : Moves SameFlow (call.command env now sequence seen record) := call.moves fun _ _ => inferInstance
        have persists : Moves Persists (call.command env now sequence seen record) :=
          call.moves fun _ _ => inferInstance
        exact sound.apply _
  | control now runID options => exact sound.apply _

end Steps

section Allowed

variable {Files : Type} {env : Env Files} {now : Time} {operation : Operation} {scope : Scope} {record : ProjectRow}
  {seen db : Database} {raw : ExecutionOptions}

/-- This is the key under which an execution is reserved. -/
def executionKey (codec : Codec) (operation : Operation) (record : ProjectRow) (raw : ExecutionOptions) : GoString :=
  let named := normalizeExecutionOptions operation raw
  keyOr named.idempotencyKey
    (executionIdempotencyKey operation record named (executionRequestHash codec operation record named))

/-- This is the execution gate of a call on the tables that it saw. -/
def executionGate (env : Env Files) (operation : Operation) (seen : Database) (raw : ExecutionOptions) :
    Except StoreError (List ReadinessItem) :=
  executionApprovalGate env.engineBlocked seen raw.runID (normalizeExecutionOptions operation raw).allowedCapabilities
    (operation != .fixtureExecution)

/-- A task is admitted only behind a passed gate. -/
theorem admitTask_passed {codec : Codec} {task : TaskRow} (admitted : admitTask codec operation scope db = .ok task) :
    statusOf scope.gate = bytes "pass" := by
  unfold admitTask at admitted
  split at admitted
  · cases admitted
  · rename_i passed
    exact not_not.mp passed

/-- A denied operation has that decision. -/
theorem denyExecution_denied (denial : Denial) :
    Meets (fun _ => True) (denyExecution operation scope denial : Command Files (Answer ExecutionResult))
      fun answer _ => answer.result.decision = bytes "denied" := by
  unfold denyExecution
  have recorded (result : ExecutionResult) : Meets (fun _ => True)
      (recordExecution operation scope result (bytes "warning") : Command Files ExecutionResult) fun _ _ => True :=
    fun _ _ _ _ _ _ _ => trivial
  exact Meets.bind (recorded _) fun _ => Meets.pure fun _ _ => rfl

/-- A loaded run is the stored one. -/
theorem loadRunForUpdate_same (runID : ID) :
    Meets (fun store => store = db) (loadRunForUpdate runID : Command Files RunRow) fun run store =>
      db.runs.rows.find? (·.id == runID) = some run ∧ store = db := by
  refine Meets.check fun store run same loaded => ⟨?_, same⟩
  rw [same] at loaded
  split at loaded
  · cases loaded
  · rename_i found
    cases loaded
    exact found

/-- The body of a new execution is allowed only behind a passed gate. -/
theorem admitted_allowed {codec : Codec} {perform : Scope → TaskRow → Command Files (Answer ExecutionResult)} :
    Meets (fun _ => True)
      (do
        let admitted ← Tx.query fun db => admitTask codec operation scope db
        match admitted with
        | .error denial => denyExecution operation scope denial
        | .ok task => perform scope task)
      fun answer _ => answer.result.decision = bytes "allowed" → statusOf scope.gate = bytes "pass" := by
  have asked : Meets (fun _ => True)
      (Tx.query fun db => admitTask codec operation scope db : Command Files (Except Denial TaskRow))
      fun admitted _ => ∃ store, admitted = admitTask codec operation scope store :=
    Meets.query fun store _ => ⟨store, rfl⟩
  refine Meets.bind asked fun admitted => ?_
  cases admitted with
  | error denial =>
      refine (denyExecution_denied denial).consequence (fun _ _ => trivial) fun answer _ denied allowed => ?_
      rw [denied] at allowed
      exact absurd allowed (by decide)
  | ok task =>
      intro files store files' answer store' asked _ _
      obtain ⟨known, same⟩ := asked
      exact admitTask_passed same.symm

/-- A new execution that is allowed passed the gate on the tables that it saw, and its run is one of the project. -/
theorem execute_allowed {perform : Scope → TaskRow → Command Files (Answer ExecutionResult)}
    (new : db.command record.id operation.applyCommandType (executionKey env.codec operation record raw) = none) :
    Meets (fun store => store = db) (execute env operation seen record raw perform) fun answer _ =>
      answer.result.decision = bytes "allowed" →
        ∃ items run, executionGate env operation seen raw = .ok items ∧ statusOf items = bytes "pass" ∧
          db.runs.rows.find? (·.id == raw.runID) = some run ∧ orZero run.projectID = record.id := by
  unfold execute
  dsimp only
  split
  · exact Meets.fail
  · have gated : Meets (fun store => store = db)
        (Tx.check fun _ => executionGate env operation seen raw : Command Files (List ReadinessItem))
        fun items store => executionGate env operation seen raw = .ok items ∧ store = db :=
      Meets.check fun store items same evaluated => ⟨evaluated, same⟩
    refine Meets.bind gated fun items => Meets.assuming fun evaluated => ?_
    refine Meets.bind (loadRunForUpdate_same raw.runID) fun run => Meets.assuming fun found => ?_
    split
    · exact Meets.fail
    · rename_i owned
      have kept {A : Type} (read : Database → Except StoreError A) : Meets (fun store => store = db)
          (Tx.check read : Command Files A) fun _ store => store = db := Meets.check fun _ _ same _ => same
      refine Meets.bind (kept _) fun version => Meets.bind (kept _) fun worker => ?_
      refine (once_new_meets (fun _ => True) new trivial admitted_allowed).consequence (fun _ same => same) ?_
      intro answer _ passed allowed
      exact ⟨items, run, evaluated, passed allowed, found, not_not.mp owned⟩

/-- A new operation that is allowed passed its gate. -/
theorem apply_allowed
    (new : db.command record.id operation.applyCommandType (executionKey env.codec operation record raw) = none) :
    Meets (fun store => store = db) (operation.apply env now seen record raw) fun answer _ =>
      answer.result.decision = bytes "allowed" →
        ∃ items run, executionGate env operation seen raw = .ok items ∧ statusOf items = bytes "pass" ∧
          db.runs.rows.find? (·.id == raw.runID) = some run ∧ orZero run.projectID = record.id := by
  cases operation with
  | fixtureExecution =>
      unfold Operation.apply executeFixture
      exact execute_allowed new
  | readOnlyVerify =>
      unfold Operation.apply verifyReadOnly
      exact execute_allowed new
  | approvedArtifactWrite =>
      unfold Operation.apply writeApprovedArtifact
      exact execute_allowed new
  | fixtureProjectWrite =>
      unfold Operation.apply writeFixtureProject writeFileOf
      exact execute_allowed new
  | managedGeneratedWrite =>
      unfold Operation.apply writeManagedGenerated writeFileOf
      exact execute_allowed new

/-- All checks of a passed list passed. -/
theorem statusOf_pass {items : List ReadinessItem} (passed : statusOf items = bytes "pass") {item : ReadinessItem}
    (member : item ∈ items) : item.passed = true := by
  by_cases all : items.all (·.passed) = true
  · exact List.all_eq_true.mp all item member
  · rw [statusOf, if_neg all] at passed
    exact absurd passed (by decide)

/-- Passed checks found an approved approval and a passed live mapping. -/
theorem buildExecutionApprovalGate_passed {version : VersionRow} {run : RunRow} {tasks : List TaskRow}
    {approval : Option ApprovalRow} {approvalGate mapping : Option GateRow} {engine : ReadinessItem}
    {workers : List WorkerRow} {required : List GoString}
    (passed : statusOf (buildExecutionApprovalGate version run tasks approval approvalGate mapping engine workers required) =
      bytes "pass") :
    (∃ found, approval = some found ∧ found.decision = .approved) ∧
      ∃ found, mapping = some found ∧ found.status = bytes "pass" := by
  constructor
  · have item : (approvalItem approval).passed = true :=
      statusOf_pass passed (by simp [buildExecutionApprovalGate])
    cases approval with
    | none => cases item
    | some found => exact ⟨found, rfl, eq_of_beq item⟩
  · have item : gatePassed mapping = true :=
      statusOf_pass passed (show (⟨bytes "live_mapping_gate", gatePassed mapping,
        bytes "live_mapping_gate must pass before execution apply"⟩ : ReadinessItem) ∈ _ by
          simp [buildExecutionApprovalGate])
    cases mapping with
    | none => cases item
    | some found => exact ⟨found, rfl, Option.some.inj (eq_of_beq item)⟩

/-- A referenced project has the identifier of the reference. -/
theorem projectOf_id {identity : Identity} {projectID : Option ID} {project : ProjectRow}
    (found : identity.projectOf projectID = some project) : orZero projectID = project.id := by
  obtain ⟨id, rfl, look⟩ := Option.bind_eq_some_iff.mp found
  have fits := List.find?_some look
  exact (eq_of_beq fits).symm

theorem workflowVersionByID_id {projectID versionID : ID} {version : VersionRow}
    (found : workflowVersionByID db projectID versionID = .ok version) : version.id = versionID := by
  unfold workflowVersionByID at found
  split at found
  · cases found
  · rename_i look
    cases found
    have fits := List.find?_some look
    simp only [Bool.and_eq_true, beq_iff_eq] at fits
    exact fits.2

/-- A passed execution gate saw an approved approval and a passed live mapping of the version of its run. -/
theorem executionGate_passed {items : List ReadinessItem} (evaluated : executionGate env operation seen raw = .ok items)
    (passed : statusOf items = bytes "pass") :
    ∃ run approval mapping, seen.runs.rows.find? (·.id == raw.runID) = some run ∧
      latestApprovalRecord seen (orZero run.projectID) (orZero run.versionID) = some approval ∧
      approval.decision = .approved ∧
      latestGateResult seen (orZero run.projectID) (orZero run.versionID) (bytes "live_mapping_gate") = some mapping ∧
      mapping.status = bytes "pass" := by
  unfold executionGate executionApprovalGate at evaluated
  cases found : seen.runs.rows.find? (·.id == raw.runID) with
  | none =>
      simp only [found, bind, Except.bind] at evaluated
      cases evaluated
  | some run =>
      cases owner : seen.identity.projectOf run.projectID with
      | none =>
          simp only [found, owner, bind, Except.bind] at evaluated
          cases evaluated
      | some record =>
          cases loaded : workflowVersionByID seen record.id (orZero run.versionID) with
          | error failure =>
              simp only [found, owner, loaded, bind, Except.bind] at evaluated
              cases evaluated
          | ok version =>
              simp only [found, owner, loaded, bind, Except.bind] at evaluated
              cases evaluated
              have ofProject := projectOf_id owner
              have ofVersion := workflowVersionByID_id loaded
              obtain ⟨⟨approval, latest, approved⟩, mapping, mapped, pass⟩ := buildExecutionApprovalGate_passed passed
              rw [← ofProject, ofVersion] at latest mapped
              exact ⟨run, approval, mapping, rfl, latest, approved, mapped, pass⟩

end Allowed

/-- The latest approval of a version is approved and linked to a ready preview, and its latest promotion preview
passed. -/
def CurrentlyApproved (db : Database) (projectID versionID : ID) : Prop :=
  ∃ approval, latestApprovalRecord db projectID versionID = some approval ∧ approval.decision = .approved ∧
    (∃ preview ∈ db.previews, preview.id = approval.transitionPreviewID ∧ preview.status = .ready) ∧
    ∃ gate, latestGateResult db projectID versionID (bytes "promotion_preview") = some gate ∧
      gate.status = bytes "pass"

/-- The approval that a call read is still the latest one of the version, and the live mapping that it read was made
from the promotion preview that is still the latest one. -/
structure StillLatest {Files : Type} (history : History Files) (reads : GateReads) (projectID versionID : ID) : Prop where
  approval : latestApprovalRecord history.db projectID versionID =
    latestApprovalRecord (history.flow.before reads.approval) projectID versionID
  promotion : ∀ mapping, latestGateResult (history.flow.before reads.liveMapping) projectID versionID
      (bytes "live_mapping_gate") = some mapping →
    ∃ gate, latestGateResult history.db projectID versionID (bytes "promotion_preview") = some gate ∧
      metadataGet mapping.inputs (bytes "promotion_gate_result_id") = some (.number gate.id)

section Interleavings

variable {Files : Type} {env : Env Files} {host : GateHost} {history : History Files}

/-- Earlier tables keep the project and the version of a run. -/
theorem Sound.run_before {codec : Codec} (sound : Sound codec history) {ago : Nat} {runID : ID} {old run : RunRow}
    (was : (history.flow.before ago).runs.rows.find? (·.id == runID) = some old)
    (found : history.db.runs.rows.find? (·.id == runID) = some run) :
    old.projectID = run.projectID ∧ old.versionID = run.versionID := by
  have persists : Persists (history.flow.before ago) history.db := by
    unfold Flow.before
    rw [List.getD_eq_getElem?_getD]
    cases read : (history.flow.db :: history.flow.past)[ago]? with
    | none => exact Persists.same history.db
    | some earlier =>
        rcases List.mem_cons.mp (List.mem_of_getElem? read) with rfl | older
        · exact Persists.same history.db
        · exact sound.kept earlier older
  obtain ⟨later, stored, same⟩ := persists.runs old (List.mem_of_find?_eq_some was)
  have id : later.id = old.id := congrArg (·.1) same
  have first := List.find?_some was
  have second := List.find?_some found
  have named : later.id = run.id := by
    rw [id, eq_of_beq first, eq_of_beq second]
  obtain rfl : later = run := Table.unique stored (List.mem_of_find?_eq_some found) named
  exact ⟨(congrArg (·.2.1) same).symm, (congrArg (·.2.2) same).symm⟩

/-- The live mapping of the composed tables is the one of the tables that its query saw. -/
theorem gateSights_liveMapping (reads : GateReads) (projectID versionID : ID) :
    latestGateResult (history.gateSights reads) projectID versionID (bytes "live_mapping_gate") =
      latestGateResult (history.flow.before reads.liveMapping) projectID versionID (bytes "live_mapping_gate") := by
  unfold latestGateResult History.gateSights
  dsimp only
  rw [List.filter_append, List.filter_filter, List.filter_filter]
  have others : ((history.flow.before reads.approvalGate).gates.filter fun gate =>
      (gate.projectID == projectID && gate.versionID == versionID && gate.gateName == bytes "live_mapping_gate") &&
        gate.gateName == bytes "approval_gate") = [] := by
    refine List.filter_eq_nil_iff.mpr fun gate _ both => ?_
    simp only [Bool.and_eq_true, beq_iff_eq] at both
    rw [both.1.2] at both
    exact absurd both.2 (by decide)
  rw [others, List.nil_append]
  congr 1
  refine List.filter_congr fun gate _ => ?_
  cases gate.gateName == bytes "live_mapping_gate" <;> simp

/-- In a sound state, a new execution that is allowed and that read what is still the latest leaves its version
currently approved. -/
theorem Sound.allowed (sound : Sound host.codec history) {operation : Operation} {reads : GateReads} {now : Time}
    {record : ProjectRow} {options : ExecutionOptions} {answer : Answer ExecutionResult} {run : RunRow}
    (new : history.db.command record.id operation.applyCommandType (executionKey env.codec operation record options) = none)
    (found : history.db.runs.rows.find? (·.id == options.runID) = some run)
    (latest : StillLatest history reads (orZero run.projectID) (orZero run.versionID))
    (answered : ((operation.apply env now (history.gateSights reads) record options).commit history.files history.db).2 =
      .ok answer) (allowed : answer.result.decision = bytes "allowed") :
    CurrentlyApproved (history.apply (operation.apply env now (history.gateSights reads) record options)).db
      (orZero run.projectID) (orZero run.versionID) := by
  obtain ⟨items, _, evaluated, passed, -, -⟩ := (apply_allowed new).committed rfl answered allowed
  obtain ⟨old, approval, mapping, was, recorded, approved, mapped, pass⟩ := executionGate_passed evaluated passed
  obtain ⟨sameProject, sameVersion⟩ := sound.run_before was found
  rw [sameProject, sameVersion] at recorded mapped
  have same : SameFlow history.db
      (history.apply (operation.apply env now (history.gateSights reads) record options)).db :=
    Moves.commit history.files history.db
  have current : latestApprovalRecord history.db (orZero run.projectID) (orZero run.versionID) = some approval :=
    latest.approval.trans recorded
  rw [gateSights_liveMapping] at mapped
  obtain ⟨gate, isLatest, named⟩ := latest.promotion mapping mapped
  have stored : mapping ∈ history.db.gates :=
    (sound.chained.before reads.liveMapping).gates (latestGateResult_mem mapped).1
  obtain ⟨promotion, kept, status, names⟩ :=
    sound.mapped mapping stored (latestGateResult_mem mapped).2.2.2 pass
  have number : promotion.id = gate.id := by
    rw [names] at named
    simpa using named
  have equal : promotion = gate :=
    List.inj_on_of_nodup_map sound.numbered kept (latestGateResult_mem isLatest).1 number
  have present : approval ∈ history.db.approvals := (List.mem_filter.mp (firstBy_mem current)).1
  obtain ⟨-, preview, listed, id, -, -, ready, -⟩ := sound.chained.approvals approval present approved
  refine ⟨approval, ?_, approved, ⟨preview, same.previews ▸ listed, id, ready⟩, gate, ?_, equal ▸ status⟩
  · rw [latestApprovalRecord, same.approvals]
    exact current
  · rw [latestGateResult, same.gates]
    exact isLatest

/-- In every interleaving that starts without previews, approvals and gate results, a new execution that is allowed and
that read what is still the latest commits in a state in which the version of its run is currently approved. -/
theorem execution_currently_approved (env : Env Files) (host : GateHost) (files : Files) (tables : Database)
    (ungated : tables.gates = []) (unasked : tables.previews = []) (unapproved : tables.approvals = [])
    (events : List HistoryEvent) (operation : Operation) (reads : GateReads) (now : Time) (projectKey : GoString)
    (options : ExecutionOptions) (record : ProjectRow) (run : RunRow) (answer : Answer ExecutionResult) :
    let history := Run.final (historyStep env host) ⟨files, tables, []⟩ events
    (history.flow.before reads.project).getByKey projectKey = some record →
    history.db.command record.id operation.applyCommandType (executionKey env.codec operation record options) = none →
    history.db.runs.rows.find? (·.id == options.runID) = some run →
    StillLatest history reads (orZero run.projectID) (orZero run.versionID) →
    ((operation.apply env now (history.gateSights reads) record options).commit history.files history.db).2 = .ok answer →
    answer.result.decision = bytes "allowed" →
      CurrentlyApproved (historyStep env host history (.execute operation reads now projectKey options)).1.db
        (orZero run.projectID) (orZero run.versionID) := by
  intro history known new found latest answered allowed
  have initial : Sound host.codec (⟨files, tables, []⟩ : History Files) :=
    ⟨⟨by simp [History.flow], by simp [History.flow, unasked], by simp [History.flow, unapproved]⟩, by simp,
      by simp [ungated], by simp [ungated]⟩
  have keeps : ∀ before event, Sound host.codec before → Sound host.codec (historyStep env host before event).1 :=
    fun _ event sound => historyStep_sound sound event
  have sound : Sound host.codec history := Run.final_invariant keeps initial events
  unfold historyStep
  dsimp only
  rw [known]
  exact sound.allowed new found latest answered allowed

end Interleavings

section Installation

/-- A call for the project at a time. -/
def workAt (now : Time) (call : Call) : HistoryEvent := .call now 0 {} (bytes "a") call

/-- The version is approved, its gates pass, and a worker and a queued run wait for the fixture. -/
def preparedHistory : List HistoryEvent :=
  (approvedFlow ++ [runGateAt 4 (bytes "approval_gate"), runGateAt 5 (bytes "live_mapping_gate")]).map .workflow ++
    [workAt 6 (.registerWorker { workerKey := bytes "w", capabilities := Operation.fixtureExecution.capabilities }),
      workAt 7 (.queueFixtureExecution (bytes "v1") {})]

/-- The worker executes the queued run. -/
def fixtureOptions : ExecutionOptions := { workerKey := bytes "w", runID := 1 }

/-- This is the state in which the run waits. -/
def preparedState : History Unit := Run.final (historyStep smallHost gateHost) ⟨(), promotedTables, []⟩ preparedHistory

/-- This is the state after the approval was withdrawn again. -/
def withdrawnState : History Unit :=
  Run.final (historyStep smallHost gateHost) ⟨(), promotedTables, []⟩
    (preparedHistory ++ [.workflow (decideAt 8 (bytes "bob") (bytes "rejected"))])

/-- An execution whose reads are current is allowed, and its version is currently approved. -/
theorem preparedState_approved :
    ∃ answer, ((Operation.fixtureExecution.apply smallHost 9 (preparedState.gateSights {}) smallProject
        fixtureOptions).commit () preparedState.db).2 = .ok answer ∧
      answer.result.decision = bytes "allowed" ∧
      CurrentlyApproved (historyStep smallHost gateHost preparedState
        (.execute .fixtureExecution {} 9 (bytes "a") fixtureOptions)).1.db 1 1 := by
  have decided : ((Operation.fixtureExecution.apply smallHost 9 (preparedState.gateSights {}) smallProject
      fixtureOptions).commit () preparedState.db).2.map (·.result.decision) = .ok (bytes "allowed") := by decide +kernel
  obtain ⟨answer, answered, allowed⟩ := map_ok_iff.mp decided
  have queued : (preparedState.db.runs.rows.find? (·.id == fixtureOptions.runID)).map
      (fun run => (orZero run.projectID, orZero run.versionID)) = some (1, 1) := by decide +kernel
  obtain ⟨run, found, owned⟩ := Option.map_eq_some_iff.mp queued
  have project : orZero run.projectID = 1 := congrArg (·.1) owned
  have ofVersion : orZero run.versionID = 1 := congrArg (·.2) owned
  have named : (latestGateResult (preparedState.flow.before 0) 1 1 (bytes "live_mapping_gate")).map
      (fun mapping => metadataGet mapping.inputs (bytes "promotion_gate_result_id")) =
      (latestGateResult preparedState.db 1 1 (bytes "promotion_preview")).map (fun gate => some (.number gate.id)) := by
    decide +kernel
  have ran := answered
  rw [Subsingleton.elim () preparedState.files] at ran
  unfold preparedState at answered ran found named ⊢
  have main := execution_currently_approved smallHost gateHost () promotedTables rfl rfl rfl preparedHistory
    .fixtureExecution {} 9 (bytes "a") fixtureOptions smallProject run answer (by decide +kernel) (by decide +kernel)
    found
  rw [project, ofVersion] at main
  refine ⟨answer, answered, allowed, main ⟨by decide +kernel, ?_⟩ ran allowed⟩
  intro mapping seen
  rw [seen] at named
  obtain ⟨gate, latest, names⟩ := Option.map_eq_some_iff.mp named.symm
  exact ⟨gate, latest, names.symm⟩

/-- An approval that is withdrawn after an execution has read it and before the execution commits does not stop it. -/
theorem withdrawnState_executes :
    ∃ answer, ((Operation.fixtureExecution.apply smallHost 9 (withdrawnState.gateSights { approval := 1 })
        smallProject fixtureOptions).commit () withdrawnState.db).2 = .ok answer ∧
      answer.result.decision = bytes "allowed" ∧
      ¬ CurrentlyApproved (historyStep smallHost gateHost withdrawnState
        (.execute .fixtureExecution { approval := 1 } 9 (bytes "a") fixtureOptions)).1.db 1 1 := by
  have decided : ((Operation.fixtureExecution.apply smallHost 9 (withdrawnState.gateSights { approval := 1 })
      smallProject fixtureOptions).commit () withdrawnState.db).2.map (·.result.decision) = .ok (bytes "allowed") := by
    decide +kernel
  obtain ⟨answer, answered, allowed⟩ := map_ok_iff.mp decided
  refine ⟨answer, answered, allowed, ?_⟩
  have rejected : (latestApprovalRecord (historyStep smallHost gateHost withdrawnState
      (.execute .fixtureExecution { approval := 1 } 9 (bytes "a") fixtureOptions)).1.db 1 1).map (·.decision) =
      some .rejected := by decide +kernel
  rintro ⟨approval, latest, approved, -⟩
  rw [latest, Option.map_some, approved] at rejected
  cases rejected

end Installation

end AreaFlow.Project
