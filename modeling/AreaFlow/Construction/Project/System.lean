import AreaFlow.Construction.Project.Execution

namespace AreaFlow.Project
open Go

/-- These are the run, worker and lease operations of a project with their options. -/
inductive Call where
  | registerWorker (options : RegisterWorkerOptions)
  | recordWorkerHeartbeat (workerKey : GoString) (options : WorkerHeartbeatOptions)
  | acquireLease (options : AcquireLeaseOptions)
  | releaseLease (options : ReleaseLeaseOptions)
  | recoverExpiredLeases (options : RecoverLeasesOptions)
  | previewRunner (label : GoString) (options : RunnerPreviewOptions)
  | runWorkerOnce (options : WorkerRunOnceOptions)
  | queueFixtureExecution (label : GoString) (options : QueueOptions)
  | queueReadOnlyVerify (label targetPath : GoString) (options : QueueOptions)
  | queueApprovedArtifactWrite (label artifactLabel : GoString) (options : QueueOptions)
  | queueFixtureProjectWrite (label : GoString) (request : WriteRequest) (options : QueueOptions)
  | queueManagedGeneratedWrite (label : GoString) (request : WriteRequest) (options : QueueOptions)
  | executeFixture (options : ExecutionOptions)
  | verifyReadOnly (options : ExecutionOptions)
  | writeApprovedArtifact (options : ExecutionOptions)
  | writeFixtureProject (options : ExecutionOptions)
  | writeManagedGenerated (options : ExecutionOptions)

section System

variable {Files : Type} (env : Env Files)

/-- This command runs another one for its effect. -/
abbrev ignoring {A : Type} (command : Command Files A) : Command Files Unit := do
  let _ ← command
  pure ()

/-- A call at a time, with a sequence number for its generated keys and the tables that its gate saw. -/
def Call.command (now : Time) (sequence : Nat) (seen : Database) (record : ProjectRow) : Call → Command Files Unit
  | registerWorker options => ignoring (Project.registerWorker env now sequence record options)
  | recordWorkerHeartbeat workerKey options =>
      ignoring (Project.recordWorkerHeartbeat env now sequence record workerKey options)
  | acquireLease options => ignoring (Project.acquireLease env now record options)
  | releaseLease options => ignoring (Project.releaseLease env now record options)
  | recoverExpiredLeases options => ignoring (recoverLeases env now sequence record options)
  | previewRunner label options => ignoring (Project.previewRunner env now record label options)
  | runWorkerOnce options => ignoring (Project.runWorkerOnce env now record options)
  | queueFixtureExecution label options => ignoring (Project.queueFixtureExecution env now record label options)
  | queueReadOnlyVerify label targetPath options =>
      ignoring (Project.queueReadOnlyVerify env now record label targetPath options)
  | queueApprovedArtifactWrite label artifactLabel options =>
      ignoring (Project.queueApprovedArtifactWrite env now record label artifactLabel options)
  | queueFixtureProjectWrite label request options =>
      ignoring (Project.queueFixtureProjectWrite env now record label request options)
  | queueManagedGeneratedWrite label request options =>
      ignoring (Project.queueManagedGeneratedWrite env now record label request options)
  | executeFixture options => ignoring (Project.executeFixture env now seen record options)
  | verifyReadOnly options => ignoring (Project.verifyReadOnly env now seen record options)
  | writeApprovedArtifact options => ignoring (Project.writeApprovedArtifact env now seen record options)
  | writeFixtureProject options => ignoring (Project.writeFixtureProject env now seen record options)
  | writeManagedGenerated options => ignoring (Project.writeManagedGenerated env now seen record options)

/-- This is the state of the system: the files of the host and the tables. -/
structure World (Files : Type) where
  files : Files
  db : Database

/-- A step is a call for a project, a control of a run, or a change outside these operations. -/
inductive WorkEvent (Files : Type) where
  | call (now : Time) (sequence : Nat) (seen : Database) (projectKey : GoString) (call : Call)
  | control (now : Time) (runID : ID) (options : RunControlOptions)
  | elsewhere (files : Files) (after : Database)

/-- This world is the one after a committed or rolled back command. -/
def World.apply {A : Type} (world : World Files) (command : Command Files A) : World Files :=
  let outcome := (command.commit world.files world.db).1
  ⟨outcome.1, outcome.2⟩

/-- The types of the commands of these operations start with one of these words. -/
def workCommand (command : CommandRow) : Bool :=
  [bytes "run.", bytes "runner.", bytes "worker.", bytes "lease."].any fun word => hasPrefix command.commandType word

/-- A change outside leaves the tables of runs, workers and leases, and the commands of these operations. -/
def outside (before after : Database) : Database :=
  { after with
    commands := before.commands.filter workCommand ++ after.commands.filter fun command => !workCommand command
    runs := before.runs, tasks := before.tasks, attempts := before.attempts, workers := before.workers
    heartbeats := before.heartbeats, leases := before.leases, artifacts := before.artifacts }

/-- This is one step of the system. -/
def workStep (world : World Files) : WorkEvent Files → World Files × Unit
  | .call now sequence seen projectKey call =>
      match world.db.getByKey projectKey with
      | none => (world, ())
      | some record => (world.apply (call.command env now sequence seen record), ())
  | .control now runID options => (world.apply (controlRun env now runID options), ())
  | .elsewhere files after => ({ files := files, db := outside world.db after }, ())

end System

end AreaFlow.Project
