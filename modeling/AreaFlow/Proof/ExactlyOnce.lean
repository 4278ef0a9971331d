import AreaFlow.Library.Run
import AreaFlow.Proof.Records

namespace AreaFlow.Project
open Go Tx

set_option synthInstance.maxSize 2048

section Keys

variable {Files : Type} {projectID : ID} {commandType idempotencyKey : GoString}

/-- A command key that is stored stays stored, and events and audits are only appended. -/
structure Remembers (projectID : ID) (commandType idempotencyKey : GoString) (before after : Database) : Prop where
  stored : (before.command projectID commandType idempotencyKey).isSome →
    (after.command projectID commandType idempotencyKey).isSome
  events : before.events <+: after.events
  audits : before.identity.audits <+: after.identity.audits

namespace Remembers

theorem stored_iff {db : Database} : (db.command projectID commandType idempotencyKey).isSome ↔
    ∃ row ∈ db.commands, row.projectID = projectID ∧ row.commandType = commandType ∧
      row.idempotencyKey = idempotencyKey := by
  simp [Database.command, List.find?_isSome, and_assoc]

instance : IsPreorder Database (Remembers projectID commandType idempotencyKey) where
  refl _ := ⟨id, List.prefix_rfl, List.prefix_rfl⟩
  trans _ _ _ first second :=
    ⟨second.stored ∘ first.stored, first.events.trans second.events, first.audits.trans second.audits⟩

instance : Work Files (Remembers projectID commandType idempotencyKey) where
  event _ := Moves.write fun _ => ⟨id, List.prefix_append _ _, List.prefix_rfl⟩
  audit _ := Moves.write fun _ => ⟨id, List.prefix_rfl, List.prefix_append _ _⟩
  attempt _ := Moves.write fun _ => ⟨id, List.prefix_rfl, List.prefix_rfl⟩
  artifact _ := Moves.write fun _ => ⟨id, List.prefix_rfl, List.prefix_rfl⟩
  taskMetadata _ _ := Moves.write fun _ => ⟨id, List.prefix_rfl, List.prefix_rfl⟩
  run _ := Moves.write fun _ => ⟨id, List.prefix_rfl, List.prefix_rfl⟩
  controlled _ _ _ _ := Moves.write fun _ => ⟨id, List.prefix_rfl, List.prefix_rfl⟩
  worked _ _ _ _ _ _ _ := Moves.write fun _ => ⟨id, List.prefix_rfl, List.prefix_rfl⟩
  task _ _ := Moves.write fun _ => ⟨id, List.prefix_rfl, List.prefix_rfl⟩
  taskStatus _ _ := Moves.write fun _ => by split <;> exact ⟨id, List.prefix_rfl, List.prefix_rfl⟩
  taskCancel _ _ _ := Moves.write fun _ => ⟨id, List.prefix_rfl, List.prefix_rfl⟩
  lease _ := Moves.write fun _ => ⟨id, List.prefix_rfl, List.prefix_rfl⟩
  leaseEnd _ _ _ _ := Moves.write fun _ => ⟨id, List.prefix_rfl, List.prefix_rfl⟩

instance : Staff Files (Remembers projectID commandType idempotencyKey) :=
  .of_ignoring fun _ _ _ _ => ⟨id, List.prefix_rfl, List.prefix_rfl⟩

instance {otherProject : ID} {otherType otherKey : GoString} :
    Commands Files (Remembers projectID commandType idempotencyKey) otherProject otherType otherKey where
  reserved hash := ⟨by
    intro files db files' created db' run
    unfold reserve reserveCommandRequest at run
    split at run
    · rename_i commands reserved
      split at reserved
      · cases reserved
        cases run
        refine ⟨fun stored => ?_, List.prefix_rfl, List.prefix_rfl⟩
        simp [Database.command, List.find?_append, Option.isSome_or, show (db.commands.find? _).isSome = true from stored]
      · split at reserved <;> cases reserved
    · cases run
      exact refl db
    · cases run⟩
  completed response := Moves.write fun db => by
    refine ⟨fun stored => ?_, List.prefix_rfl, List.prefix_rfl⟩
    obtain ⟨row, member, named⟩ := stored_iff.mp stored
    refine stored_iff.mpr ⟨_, List.mem_map_of_mem member, ?_⟩
    split <;> exact named

instance {otherType : GoString} : Once Files (Remembers projectID commandType idempotencyKey) otherType :=
  Once.of_commands fun _ _ => inferInstance

end Remembers

end Keys

section Keyed

variable {Files A B : Type} {projectID : ID} {commandType given : GoString}

/-- A command with a stored key has no effect. Otherwise it stores its key, and it never touches the rows of other keys. -/
structure Pays (projectID : ID) (commandType idempotencyKey : GoString) (before after : Database) : Prop where
  inert : (before.command projectID commandType idempotencyKey).isSome → after = before
  stores : after = before ∨ (after.command projectID commandType idempotencyKey).isSome
  keeps : before.commands ⊆ after.commands

theorem Pays.same {key : GoString} (db : Database) : Pays projectID commandType key db db :=
  ⟨fun _ => rfl, Or.inl rfl, List.Subset.refl _⟩

/-- Whenever a command ends with an answer, it has paid with a key, and with the given one if there is one. -/
def Keyed (projectID : ID) (commandType given : GoString) (command : Command Files A) : Prop :=
  ∀ files db files' answer db', command files db = (files', .ok (answer, db')) →
    ∃ key, (given ≠ [] → key = given) ∧ Pays projectID commandType key db db'

namespace Keyed

variable {first : Command Files A} {next : A → Command Files B}

/-- Queries may come before. -/
theorem after [Moves Eq first] (keyed : ∀ answer, Keyed projectID commandType given (next answer)) :
    Keyed projectID commandType given (first >>= next) := by
  intro files db files' answer db' run
  obtain ⟨middle, value, between, ran, rest⟩ := bind_done run
  have same : db = between := Moves.moves files db middle value between ran
  exact same ▸ keyed value middle between files' answer db' rest

theorem ignored (keyed : Keyed projectID commandType given first) :
    Keyed projectID commandType given (ignoring first) := by
  intro files db files' answer db' run
  obtain ⟨middle, value, between, ran, rest⟩ := bind_done run
  cases rest
  exact keyed files db _ value _ ran

theorem fail {failure : StoreError} : Keyed projectID commandType given (Tx.fail failure : Command Files A) := by
  intro files db files' answer db' run
  cases run

theorem ite {condition : Prop} [Decidable condition] {second : Command Files A}
    (keyed : Keyed projectID commandType given first) (other : Keyed projectID commandType given second) :
    Keyed projectID commandType given (if condition then first else second) := by
  split
  · exact keyed
  · exact other

/-- A command that runs its body once for a key pays with this key. -/
theorem once {key hash : GoString} {body replay : Command Files A} [Moves Eq replay] (named : given ≠ [] → key = given)
    (moves : ∀ (relation : Database → Database → Prop) [Work Files relation] [Staff Files relation],
      Commands Files relation projectID commandType key → Moves relation body) :
    Keyed projectID commandType given (once projectID commandType key hash body replay) := by
  intro files db files' answer db' run
  refine ⟨key, named, ?_⟩
  cases found : db.command projectID commandType key with
  | some row =>
      rw [once_repeated found] at run
      split at run
      · have same : db = db' := Moves.moves files db files' answer db' run
        exact same ▸ .same db
      · cases run
  | none =>
      rw [once_new found] at run
      have remembers := moves (Remembers projectID commandType key) inferInstance
      have stored : (db'.command projectID commandType key).isSome :=
        (remembers.moves files _ files' answer db' run).stored
          (Remembers.stored_iff.mpr ⟨_, List.mem_append_right _ List.mem_cons_self, rfl, rfl, rfl⟩)
      refine ⟨fun taken => absurd taken (by simp [found]), Or.inr stored, fun row member => ?_⟩
      -- the reserved key is free, so every row has another one
      let chosen : ID → GoString → GoString → Bool := fun project type text =>
        !(project == projectID && type == commandType && text == key)
      have leaves := moves (SameCommands chosen) (SameCommands.commands (by simp [chosen]))
      have same : SameCommands chosen _ db' := leaves.moves files _ files' answer db' run
      have other : chosen row.projectID row.commandType row.idempotencyKey = true :=
        (Bool.not_eq_true' _).mpr (Bool.eq_false_iff.mpr (List.find?_eq_none.mp found row member))
      exact (same.mem_iff other).mpr (List.mem_append_left _ member)

/-- A commit or a rollback pays with a key. -/
theorem commit {command : Command Files A} (keyed : Keyed projectID commandType given command) (files : Files)
    (db : Database) :
    ∃ key, (given ≠ [] → key = given) ∧ Pays projectID commandType key db (command.commit files db).1.2 := by
  unfold Tx.commit
  split
  · exact ⟨given, fun _ => rfl, .same db⟩
  · rename_i files' answer db' run
    exact keyed files db files' answer db' run

end Keyed

end Keyed

section Operations

variable {Files : Type} {env : Env Files} {now : Time} {sequence : Nat} {seen : Database} {record : ProjectRow}

theorem keyOr_named (given derived : GoString) : given ≠ [] → keyOr given derived = given := fun named => if_neg named

theorem queueRun_keyed {operation : Operation} {version : VersionRow} {plan : QueuePlan} {raw : QueueOptions}
    {extend : RunRow → TaskRow → Command Files Extension} (planned : plan.operation = operation)
    (extended : ∀ (relation : Database → Database → Prop) [Work Files relation] run task, Moves relation (extend run task)) :
    Keyed record.id operation.queueCommandType (trimSpace raw.idempotencyKey)
      (queueRun env now record version plan raw extend) := by
  subst planned
  unfold queueRun
  refine Keyed.once (keyOr_named _ _) fun relation _ _ _ => ?_
  have moves := extended relation
  infer_instance

theorem execute_keyed {operation : Operation} {raw : ExecutionOptions}
    {perform : Scope → TaskRow → Command Files (Answer ExecutionResult)}
    (moves : ∀ (relation : Database → Database → Prop) [Work Files relation] scope task,
      Commands Files relation scope.record.id operation.applyCommandType scope.options.idempotencyKey →
        Moves relation (perform scope task)) :
    Keyed record.id operation.applyCommandType (trimSpace raw.idempotencyKey)
      (execute env operation seen record raw perform) := by
  unfold execute
  refine Keyed.ite Keyed.fail (Keyed.after fun gate => Keyed.after fun run => Keyed.ite Keyed.fail ?_)
  refine Keyed.after fun version => Keyed.after fun worker => ?_
  refine Keyed.once (keyOr_named _ _) fun relation _ _ commands => Moves.bind inferInstance fun admitted => ?_
  cases admitted with
  | error denial => infer_instance
  | ok task => exact moves relation _ task commands

theorem writeFileOf_keyed {operation : Operation} {raw : ExecutionOptions} :
    Keyed record.id operation.applyCommandType (trimSpace raw.idempotencyKey)
      (writeFileOf env now operation seen record raw) := by
  refine execute_keyed fun relation _ scope task _ => Moves.bind inferInstance fun checked => ?_
  cases checked with
  | error denial => infer_instance
  | ok change => infer_instance

/-- This is the key that a call gives. -/
def Call.idempotencyKey : Call → GoString
  | runWorkerOnce _ => []
  | registerWorker options | recordWorkerHeartbeat _ options | acquireLease options | releaseLease options
  | recoverExpiredLeases options | previewRunner _ options | queueFixtureExecution _ options
  | queueReadOnlyVerify _ _ options | queueApprovedArtifactWrite _ _ options | queueFixtureProjectWrite _ _ options
  | queueManagedGeneratedWrite _ _ options | executeFixture options | verifyReadOnly options
  | writeApprovedArtifact options | writeFixtureProject options | writeManagedGenerated options => options.idempotencyKey

/-- Every call with a command pays with its key. -/
theorem Call.keyed (call : Call) {commandType : GoString} (typed : call.commandType = some commandType) :
    Keyed record.id commandType (trimSpace call.idempotencyKey) (call.command env now sequence seen record) := by
  cases call with
  | runWorkerOnce options => cases typed
  | registerWorker options | acquireLease options | releaseLease options | recoverExpiredLeases options =>
      cases typed
      exact Keyed.ignored (Keyed.once (keyOr_named _ _) fun _ _ _ _ => inferInstance)
  | recordWorkerHeartbeat workerKey options =>
      cases typed
      exact Keyed.ignored (Keyed.ite Keyed.fail (Keyed.once (keyOr_named _ _) fun _ _ _ _ => inferInstance))
  | previewRunner label options =>
      cases typed
      refine Keyed.ignored (Keyed.after fun version => Keyed.ite Keyed.fail ?_)
      exact Keyed.once (fun named => if_neg named) fun _ _ _ _ => inferInstance
  | queueFixtureExecution label options | queueApprovedArtifactWrite label artifactLabel options =>
      cases typed
      exact Keyed.ignored (Keyed.after fun version => queueRun_keyed rfl fun _ _ _ _ => inferInstance)
  | queueReadOnlyVerify label targetPath options =>
      cases typed
      refine Keyed.ignored (Keyed.after fun version => Keyed.ite Keyed.fail ?_)
      exact queueRun_keyed rfl fun _ _ _ _ => inferInstance
  | queueFixtureProjectWrite label request options =>
      cases typed
      refine Keyed.ignored (Keyed.after fun version => Keyed.ite Keyed.fail (Keyed.ite Keyed.fail (Keyed.ite Keyed.fail ?_)))
      exact queueRun_keyed rfl fun _ _ _ _ => inferInstance
  | queueManagedGeneratedWrite label request options =>
      cases typed
      refine Keyed.ignored (Keyed.after fun version => Keyed.ite Keyed.fail (Keyed.ite Keyed.fail (Keyed.ite Keyed.fail
        (Keyed.ite Keyed.fail ?_))))
      exact queueRun_keyed rfl fun _ _ _ _ => inferInstance
  | executeFixture options | writeApprovedArtifact options =>
      cases typed
      exact Keyed.ignored (execute_keyed fun _ _ _ _ _ => inferInstance)
  | verifyReadOnly options =>
      cases typed
      refine Keyed.ignored (execute_keyed fun relation _ scope task _ => Moves.bind inferInstance fun checked => ?_)
      cases checked with
      | error denial => infer_instance
      | ok fullPath => infer_instance
  | writeFixtureProject options | writeManagedGenerated options =>
      cases typed
      exact Keyed.ignored writeFileOf_keyed

/-- A command row that is there stays as it is. -/
def KeepsCommands (before after : Database) : Prop := before.commands ⊆ after.commands

instance : IsPreorder Database KeepsCommands where
  refl _ := List.Subset.refl _
  trans _ _ _ := List.Subset.trans

theorem Keyed.keeps {A : Type} {projectID : ID} {commandType given : GoString} {command : Command Files A}
    (keyed : Keyed projectID commandType given command) : Moves KeepsCommands command where
  moves files db files' answer db' run := by
    obtain ⟨_, _, pays⟩ := keyed files db files' answer db' run
    exact pays.keeps

instance controlRun_keeps {runID : ID} {options : RunControlOptions} :
    Moves KeepsCommands (controlRun env now runID options) := by
  unfold controlRun
  dsimp only
  split
  · infer_instance
  · refine Moves.bind inferInstance fun run => Moves.bind inferInstance fun record => ?_
    exact Keyed.keeps (Keyed.once (fun _ => rfl) fun _ _ _ _ => inferInstance)

end Operations

section Ledger

variable {Files : Type} (env : Env Files)

theorem Call.commandType_work {call : Call} {commandType : GoString} (typed : call.commandType = some commandType)
    {row : CommandRow} (named : row.commandType = commandType) : workCommand row = true := by
  unfold workCommand
  rw [named]
  cases call with
  | runWorkerOnce options => cases typed
  | _ =>
      cases typed
      decide +kernel

/-- A key of these operations that is stored stays stored. -/
theorem workStep_remembers {call : Call} {commandType : GoString} (typed : call.commandType = some commandType)
    (projectID : ID) (idempotencyKey : GoString) (world : World Files) (event : WorkEvent Files)
    (stored : (world.db.command projectID commandType idempotencyKey).isSome) :
    ((workStep env world event).1.db.command projectID commandType idempotencyKey).isSome := by
  by_cases inside : ∀ files after, event ≠ .elsewhere files after
  · have remembers : Remembers projectID commandType idempotencyKey world.db (workStep env world event).1.db :=
      workStep_moves fun files after same => absurd same (inside files after)
    exact remembers.stored stored
  · push Not at inside
    obtain ⟨files, after, rfl⟩ := inside
    obtain ⟨row, member, project, type, key⟩ := Remembers.stored_iff.mp stored
    have work : row ∈ world.db.commands.filter workCommand :=
      List.mem_filter.mpr ⟨member, Call.commandType_work typed type⟩
    exact Remembers.stored_iff.mpr ⟨row, List.mem_append_left _ work, project, type, key⟩

theorem workStep_keeps (world : World Files) (event : WorkEvent Files) :
    world.db.commands.filter workCommand ⊆ (workStep env world event).1.db.commands.filter workCommand := by
  have within {after : Database} (keeps : KeepsCommands world.db after) :
      world.db.commands.filter workCommand ⊆ after.commands.filter workCommand :=
    List.filter_subset _ keeps
  cases event with
  | call now sequence seen projectKey call =>
      cases found : world.db.getByKey projectKey with
      | none =>
          rw [workStep_unknown found]
          exact List.Subset.refl _
      | some record =>
          rw [workStep_known found]
          cases typed : call.commandType with
          | some commandType =>
              have keeps : Moves KeepsCommands (call.command env now sequence seen record) := (call.keyed typed).keeps
              exact within (Moves.commit world.files world.db)
          | none =>
              have same : Moves (SameCommands fun _ _ _ => true) (call.command env now sequence seen record) :=
                call.moves fun _ some => by rw [typed] at some; cases some
              have commands : SameCommands (fun _ _ _ => true) world.db
                  ((call.command env now sequence seen record).commit world.files world.db).1.2 := Moves.commit _ _
              exact within fun row member => (SameCommands.mem_iff commands rfl).mpr member
  | control now runID options => exact within (Moves.commit world.files world.db)
  | elsewhere files after =>
      intro row member
      exact List.mem_filter.mpr ⟨List.mem_append_left _ member, (List.mem_filter.mp member).2⟩

/-- A call with a given key that has an effect is executed once: after any further steps, every call of the same project,
of the same type and with the same key leaves the tables as they are. -/
theorem keyedCall_once {world after : World Files} {now now' : Time} {sequence sequence' : Nat} {seen seen' : Database}
    {projectKey projectKey' commandType : GoString} {call call' : Call} {record record' : ProjectRow}
    (found : world.db.getByKey projectKey = some record) (typed : call.commandType = some commandType)
    (named : trimSpace call.idempotencyKey ≠ [])
    (effect : (workStep env world (.call now sequence seen projectKey call)).1.db ≠ world.db)
    (between : List (WorkEvent Files))
    (reached : Run.final (workStep env) (workStep env world (.call now sequence seen projectKey call)).1 between = after)
    (found' : after.db.getByKey projectKey' = some record') (project : record'.id = record.id)
    (typed' : call'.commandType = some commandType)
    (named' : trimSpace call'.idempotencyKey = trimSpace call.idempotencyKey) :
    (workStep env after (.call now' sequence' seen' projectKey' call')).1.db = after.db := by
  have stored : ((workStep env world (.call now sequence seen projectKey call)).1.db.command record.id commandType
      (trimSpace call.idempotencyKey)).isSome := by
    rw [workStep_known found] at effect ⊢
    obtain ⟨key, given, pays⟩ := Keyed.commit (call.keyed typed) world.files world.db
    exact given named ▸ pays.stores.resolve_left effect
  have remembered := Run.final_invariant (fun world event => workStep_remembers env typed record.id _ world event) stored between
  rw [reached] at remembered
  rw [workStep_known found']
  obtain ⟨key, given, pays⟩ := Keyed.commit (call'.keyed typed') after.files after.db
  rw [named'] at given
  rw [project] at pays
  exact pays.inert (given named ▸ remembered)

theorem keyedCall_once_registerWorker :
    let world : World Unit := { files := (), db := smallTables }
    let first := callAt 0 (.registerWorker { workerKey := bytes "w", idempotencyKey := bytes "k" })
    let other := callAt 2 (.registerWorker { workerKey := bytes "v", idempotencyKey := bytes " k " })
    let state := Run.final (workStep smallHost) (workStep smallHost world first).1
      [callAt 1 (.recordWorkerHeartbeat (bytes "w") {})]
    (workStep smallHost state other).1.db = state.db := by
  refine keyedCall_once smallHost rfl rfl (by decide) (fun same => ?_) _ rfl rfl rfl rfl (by decide)
  exact absurd (congrArg (fun db => db.commands.length) same) (by decide +kernel)

/-- No step rewrites or removes a command of these operations. -/
theorem commands_kept (world : World Files) (events : List (WorkEvent Files)) :
    world.db.commands.filter workCommand ⊆ (Run.final (workStep env) world events).db.commands.filter workCommand := by
  induction events generalizing world with
  | nil => exact List.Subset.refl _
  | cons event rest ih => exact List.Subset.trans (workStep_keeps env world event) (ih _)

/-- No operation rewrites or removes an event or an audit. -/
theorem history_appended (world : World Files) {events : List (WorkEvent Files)}
    (inside : ∀ event ∈ events, ∀ files after, event ≠ .elsewhere files after) :
    world.db.events <+: (Run.final (workStep env) world events).db.events ∧
      world.db.identity.audits <+: (Run.final (workStep env) world events).db.identity.audits := by
  induction events generalizing world with
  | nil => exact ⟨List.prefix_rfl, List.prefix_rfl⟩
  | cons event rest ih =>
      have first : Remembers 0 [] [] world.db (workStep env world event).1.db :=
        workStep_moves fun files after same => absurd same (inside event List.mem_cons_self files after)
      have later := ih (workStep env world event).1 fun event member => inside event (List.mem_cons_of_mem _ member)
      exact ⟨first.events.trans later.1, first.audits.trans later.2⟩

theorem history_appended_recovery :
    let world := Run.final (workStep smallHost) ⟨(), {}⟩ leasedFixture
    let later := Run.final (workStep smallHost) world [callAt (seconds 301) (.recoverExpiredLeases {})]
    world.db.events <+: later.db.events ∧ world.db.identity.audits <+: later.db.identity.audits :=
  history_appended smallHost _ (by simp [callAt])

end Ledger

end AreaFlow.Project
