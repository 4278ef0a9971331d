import AreaFlow.Construction.Project.Items
import AreaFlow.Construction.Project.System

namespace AreaFlow.Project
open Go

/-- This is the state of the files and of the tables, with the earlier tables, the latest first. -/
structure History (Files : Type) where
  files : Files
  db : Database
  past : List Database := []

/-- These numbers tell how many commits ago each query of a call and of its execution gate ran. -/
structure GateReads where
  project : Nat := 0
  run : Nat := 0
  tasks : Nat := 0
  owner : Nat := 0
  version : Nat := 0
  approval : Nat := 0
  approvalGate : Nat := 0
  liveMapping : Nat := 0
  workers : Nat := 0
  deriving DecidableEq

namespace History

variable {Files A : Type} (history : History Files)

/-- These are the tables with their past. -/
def flow : Flow := ⟨history.db, history.past⟩

/-- The execution gate reads each of these tables in a statement of its own; the two gate results are read apart. -/
def gateSights (reads : GateReads) : Database :=
  { history.flow.before reads.run with
    tasks := (history.flow.before reads.tasks).tasks
    identity := (history.flow.before reads.owner).identity
    versions := (history.flow.before reads.version).versions
    approvals := (history.flow.before reads.approval).approvals
    gates :=
      (history.flow.before reads.approvalGate).gates.filter (·.gateName == bytes "approval_gate") ++
        (history.flow.before reads.liveMapping).gates.filter (·.gateName == bytes "live_mapping_gate")
    workers := (history.flow.before reads.workers).workers }

/-- This is the history after a committed or rolled back command. -/
def apply (command : Command Files A) : History Files :=
  let outcome := (command.commit history.files history.db).1
  ⟨outcome.1, outcome.2, history.db :: history.past⟩

end History

section Events

variable {Files : Type} (env : Env Files) (host : GateHost)

/-- This is the member of the family that an operation names. -/
def Operation.apply (now : Time) (seen : Database) (record : ProjectRow) (options : ExecutionOptions) :
    Operation → Command Files (Answer ExecutionResult)
  | fixtureExecution => executeFixture env now seen record options
  | readOnlyVerify => verifyReadOnly env now seen record options
  | approvedArtifactWrite => writeApprovedArtifact env now seen record options
  | fixtureProjectWrite => writeFixtureProject env now seen record options
  | managedGeneratedWrite => writeManagedGenerated env now seen record options

/-- A step is a workflow operation, a ready mark, an execution, or another operation on runs, workers and leases. -/
inductive HistoryEvent where
  | workflow (event : FlowEvent)
  | markReady (reads : Reads) (now : Time) (projectKey label : GoString) (options : MarkWorkflowItemReadyOptions)
  | execute (operation : Operation) (reads : GateReads) (now : Time) (projectKey : GoString) (options : ExecutionOptions)
  | call (now : Time) (sequence : Nat) (seen : Database) (projectKey : GoString) (call : Call)
  | control (now : Time) (runID : ID) (options : RunControlOptions)

/-- This is one step of an interleaving. -/
def historyStep (history : History Files) : HistoryEvent → History Files × Unit
  | .workflow event =>
      match event.outcome host history.flow with
      | none => (history, ())
      | some db => (⟨history.files, db, history.db :: history.past⟩, ())
  | .markReady reads now projectKey label options =>
      match (history.flow.before reads.project).getByKey projectKey with
      | none => (history, ())
      | some record =>
          (history.apply (markWorkflowItemReady env now record (history.flow.before reads.version) label options), ())
  | .execute operation reads now projectKey options =>
      match (history.flow.before reads.project).getByKey projectKey with
      | none => (history, ())
      | some record => (history.apply (operation.apply env now (history.gateSights reads) record options), ())
  | .call now sequence seen projectKey call =>
      match history.db.getByKey projectKey with
      | none => (history, ())
      | some record => (history.apply (call.command env now sequence seen record), ())
  | .control now runID options => (history.apply (controlRun env now runID options), ())

end Events

end AreaFlow.Project
