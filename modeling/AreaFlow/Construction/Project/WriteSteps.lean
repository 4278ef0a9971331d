import AreaFlow.Construction.Project.Execution
import AreaFlow.Library.Run

namespace AreaFlow.Project
open Go

/-- These are the steps of the two operations that write a project file, from the locks on their rows to their return.
The two operations have the same steps. -/
inductive WriteStep
  | locks
  | preimage
  | denial
  | denialCommit
  | lease
  | leasedTask
  | preimageArtifact
  | write
  | after
  | copyAttempt
  | verifyAttempt
  | restore
  | restored
  | rollbackAttempt
  | report
  | release
  | doneTask
  | run
  | event
  | audit
  | response
  | commit
  | undo
  | returned
  deriving DecidableEq

inductive WriteOutcome
  | denied
  | failed
  | succeeded
  deriving DecidableEq

/-- This is a write call under way. The two flags control the deferred restoration. -/
structure WriteCall where
  step : WriteStep := .locks
  preimage : GoString := []
  after : GoString := []
  projectFileChanged : Bool := false
  projectFileRestored : Bool := false
  outcome : Option WriteOutcome := none
  deriving DecidableEq

/-- These are the faults of a call: the steps whose statement fails, and the bytes that a failing write of the first
change or of the restoration leaves in the target. -/
structure Faults where
  statement : WriteStep → Bool
  write : Option GoString
  restore : Option GoString

/-- This is a call without faults. -/
def Faults.none : Faults := ⟨fun _ => false, Option.none, Option.none⟩

/-- A call that returns an error first runs its deferred restoration. -/
def WriteCall.fail (call : WriteCall) : WriteCall :=
  { call with
    step := if call.projectFileChanged && !call.projectFileRestored then .undo else .returned
    outcome := some .failed }

section Steps

variable (sha256Hex : GoString → GoString) (writeSet : WriteSet)

/-- The read of a file fails if the file is too large. -/
def readable (file : GoString) : Bool := !decide (maxProjectFileBytes < file.length)

/-- A file has the hash and the size that the write set expects before the change. -/
def expectedBefore (file : GoString) : Bool :=
  sha256Hex file == writeSet.expectedBeforeSHA256 && (file.length : Int) == writeSet.expectedBeforeSize

def expectedAfter (file : GoString) : Bool :=
  sha256Hex file == writeSet.afterSHA256 && (file.length : Int) == writeSet.afterSize

/-- A step that only runs a statement goes on to the next step. -/
def WriteCall.statement (faults : Faults) (call : WriteCall) (next : WriteStep) : WriteCall :=
  if faults.statement call.step then call.fail else { call with step := next }

/-- A commit ends a call. -/
def WriteCall.commit (faults : Faults) (call : WriteCall) (outcome : WriteOutcome) : WriteCall :=
  if faults.statement call.step then call.fail else { call with step := .returned, outcome := some outcome }

/-- This function is one step of a call. The second argument and the second result are the bytes of the target. The
artifacts of a call are other files. -/
def writeStep (faults : Faults) (call : WriteCall) (file : GoString) : WriteCall × GoString :=
  match call.step with
  | .locks => (call.statement faults .preimage, file)
  | .preimage =>
      if !readable file then (call.fail, file)
      else if !expectedBefore sha256Hex writeSet file then ({ call with preimage := file, step := .denial }, file)
      else ({ call with preimage := file, step := .lease }, file)
  | .denial => (call.statement faults .denialCommit, file)
  | .denialCommit => (call.commit faults .denied, file)
  | .lease => (call.statement faults .leasedTask, file)
  | .leasedTask => (call.statement faults .preimageArtifact, file)
  | .preimageArtifact => (call.statement faults .write, file)
  | .write =>
      match faults.write with
      | some left => (call.fail, left)
      | none => ({ call with step := .after, projectFileChanged := true }, writeSet.content)
  | .after => if !readable file then (call.fail, file) else ({ call with step := .copyAttempt, after := file }, file)
  | .copyAttempt => (call.statement faults .verifyAttempt, file)
  | .verifyAttempt =>
      if expectedAfter sha256Hex writeSet call.after then (call.statement faults .restore, file) else (call.fail, file)
  | .restore =>
      match faults.restore with
      | some left => (call.fail, left)
      | none => ({ call with step := .restored }, call.preimage)
  | .restored =>
      if readable file && sha256Hex file == sha256Hex call.preimage && file.length == call.preimage.length then
        ({ call with step := .rollbackAttempt, projectFileRestored := true }, file)
      else (call.fail, file)
  | .rollbackAttempt => (call.statement faults .report, file)
  | .report => (call.statement faults .release, file)
  | .release => (call.statement faults .doneTask, file)
  | .doneTask => (call.statement faults .run, file)
  | .run => (call.statement faults .event, file)
  | .event => (call.statement faults .audit, file)
  | .audit => (call.statement faults .response, file)
  | .response => (call.statement faults .commit, file)
  | .commit => (call.commit faults .succeeded, file)
  -- The deferred restoration succeeds; its error is ignored in the source.
  | .undo => ({ call with step := .returned }, call.preimage)
  | .returned => (call, file)

/-- This is a call after a number of its steps. -/
def writeSteps (faults : Faults) : Nat → WriteCall × GoString → WriteCall × GoString
  | 0, state => state
  | count + 1, state => writeSteps faults count (writeStep sha256Hex writeSet faults state.1 state.2)

/-- This is a whole call on a target with given bytes. -/
def writeCall (faults : Faults) (file : GoString) : WriteCall × GoString :=
  writeSteps sha256Hex writeSet faults 21 ({}, file)

end Steps

/-- Two calls share one target. They hold row locks in common if they are calls for the same run or by the same
worker. -/
structure WriteRace where
  first : WriteSet
  second : WriteSet
  locked : Bool

/-- This is the state of two calls and of their target. -/
structure RaceState where
  first : WriteCall := {}
  second : WriteCall := {}
  file : GoString
  deriving DecidableEq

/-- A call holds its row locks from its start to its return. -/
def WriteCall.active (call : WriteCall) : Bool := call.step != .locks && call.step != .returned

/-- One of the two calls makes a step; it waits for a lock that the other call holds. -/
def raceStep (sha256Hex : GoString → GoString) (race : WriteRace) (state : RaceState) (second : Bool) : RaceState × Unit :=
  if second then
    if race.locked && state.second.step == .locks && state.first.active then (state, ())
    else
      let (call, file) := writeStep sha256Hex race.second .none state.second state.file
      ({ state with second := call, file := file }, ())
  else
    if race.locked && state.first.step == .locks && state.second.active then (state, ())
    else
      let (call, file) := writeStep sha256Hex race.first .none state.first state.file
      ({ state with first := call, file := file }, ())

end AreaFlow.Project
