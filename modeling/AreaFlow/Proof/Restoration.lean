import AreaFlow.Construction.Project.WriteSteps

namespace AreaFlow.Project
open Go

/-- This is the number of steps that a call still makes at most. -/
def WriteStep.rank : WriteStep → Nat
  | .locks => 21
  | .preimage => 20
  | .lease => 19
  | .leasedTask => 18
  | .preimageArtifact => 17
  | .write => 16
  | .after => 15
  | .copyAttempt => 14
  | .verifyAttempt => 13
  | .restore => 12
  | .restored => 11
  | .rollbackAttempt => 10
  | .report => 9
  | .release => 8
  | .doneTask => 7
  | .run => 6
  | .event => 5
  | .audit => 4
  | .response => 3
  | .denial => 3
  | .commit => 2
  | .denialCommit => 2
  | .undo => 1
  | .returned => 0

/-- A call at one of these steps has accepted its preimage and may still write it. -/
def WriteStep.accepted : WriteStep → Bool
  | .lease | .leasedTask | .preimageArtifact | .write | .after | .copyAttempt | .verifyAttempt | .restore | .restored
  | .undo => true
  | _ => false

/-- A call at one of these steps has changed the target and owes a restoration. -/
def WriteStep.owes : WriteStep → Bool
  | .after | .copyAttempt | .verifyAttempt | .restore | .undo => true
  | _ => false

/-- These are the stretches of a call between the changes of its two flags. -/
inductive WritePhase
  | untouched
  | changed
  | restored
  | ended
  deriving DecidableEq

def WriteStep.phase : WriteStep → WritePhase
  | .locks | .preimage | .denial | .denialCommit | .lease | .leasedTask | .preimageArtifact | .write => .untouched
  | .after | .copyAttempt | .verifyAttempt | .restore | .restored => .changed
  | .rollbackAttempt | .report | .release | .doneTask | .run | .event | .audit | .response | .commit => .restored
  | .undo | .returned => .ended

/-- The flags of a call say how far it has come. -/
structure WriteCall.Flagged (call : WriteCall) : Prop where
  untouched : call.step.phase = .untouched → call.projectFileChanged = false ∧ call.projectFileRestored = false
  changed : call.step.phase = .changed → call.projectFileChanged = true ∧ call.projectFileRestored = false
  restored : call.step.phase = .restored → call.projectFileRestored = true
  succeeded : call.outcome = some .succeeded → call.projectFileRestored = true

section Calls

variable {sha256Hex : GoString → GoString} {writeSet : WriteSet} {faults : Faults} {call : WriteCall} {file : GoString}
  {next : WriteStep}

theorem fail_rank (running : 1 < call.step.rank) : call.fail.step.rank < call.step.rank := by
  have last : call.fail.step.rank ≤ 1 := by
    unfold WriteCall.fail
    dsimp only
    split <;> decide
  omega

theorem statement_rank (running : 1 < call.step.rank) (lower : next.rank < call.step.rank) :
    (call.statement faults next).step.rank < call.step.rank := by
  unfold WriteCall.statement
  split
  · exact fail_rank running
  · exact lower

theorem commit_rank {outcome : WriteOutcome} (running : 1 < call.step.rank) :
    (call.commit faults outcome).step.rank < call.step.rank := by
  unfold WriteCall.commit
  split
  · exact fail_rank running
  · exact Nat.lt_of_succ_lt running

/-- Every step brings a call closer to its return. -/
theorem writeStep_rank (running : call.step ≠ .returned) :
    (writeStep sha256Hex writeSet faults call file).1.step.rank < call.step.rank := by
  obtain ⟨step, preimage, after, changed, restored, outcome⟩ := call
  unfold writeStep
  cases step <;> dsimp only
  case returned => exact absurd rfl running
  case undo => exact Nat.zero_lt_one
  case denialCommit | commit => exact commit_rank (by simp [WriteStep.rank])
  case preimage | write | after | restore | restored =>
      (repeat' split) <;> first | exact fail_rank (by simp [WriteStep.rank]) | simp [WriteStep.rank]
  case verifyAttempt =>
      split
      · exact statement_rank (by simp [WriteStep.rank]) (by simp [WriteStep.rank])
      · exact fail_rank (by simp [WriteStep.rank])
  all_goals exact statement_rank (by simp [WriteStep.rank]) (by simp [WriteStep.rank])

theorem writeSteps_returned {count : Nat} {state : WriteCall × GoString} (enough : state.1.step.rank ≤ count) :
    (writeSteps sha256Hex writeSet faults count state).1.step = .returned := by
  induction count generalizing state with
  | zero =>
      have last : state.1.step.rank = 0 := by omega
      unfold writeSteps
      cases step : state.1.step <;> simp_all [WriteStep.rank]
  | succ count ih =>
      apply ih
      by_cases ended : state.1.step = .returned
      · simp [writeStep, ended, WriteStep.rank]
      · have closer : (writeStep sha256Hex writeSet faults state.1 state.2).1.step.rank < state.1.step.rank :=
          writeStep_rank ended
        omega

/-- A failing call goes to its deferred restoration exactly in the stretch in which the file is changed. -/
theorem WriteCall.Flagged.fail_step (flagged : call.Flagged) (running : call.step.phase ≠ .ended) :
    call.fail.step = if call.step.phase = .changed then .undo else .returned := by
  unfold WriteCall.fail
  cases phase : call.step.phase with
  | untouched => simp [flagged.untouched phase]
  | changed => simp [flagged.changed phase]
  | restored => simp [flagged.restored phase]
  | ended => exact absurd phase running

theorem fail_flagged (call : WriteCall) : call.fail.Flagged := by
  have ended : call.fail.step.phase = .ended := by
    unfold WriteCall.fail
    dsimp only
    split <;> rfl
  exact ⟨by simp [ended], by simp [ended], by simp [ended], by simp [WriteCall.fail]⟩

/-- A step within a stretch keeps the flags. -/
theorem WriteCall.Flagged.within {other : WriteCall} (flagged : call.Flagged) (phase : other.step.phase = call.step.phase)
    (changed : other.projectFileChanged = call.projectFileChanged)
    (restored : other.projectFileRestored = call.projectFileRestored) (outcome : other.outcome = call.outcome) :
    other.Flagged where
  untouched given := by
    rw [changed, restored]
    exact flagged.untouched (phase ▸ given)
  changed given := by
    rw [changed, restored]
    exact flagged.changed (phase ▸ given)
  restored given := restored ▸ flagged.restored (phase ▸ given)
  succeeded given := restored ▸ flagged.succeeded (outcome ▸ given)

theorem WriteCall.Flagged.statement (flagged : call.Flagged) (phase : next.phase = call.step.phase) :
    (call.statement faults next).Flagged := by
  unfold WriteCall.statement
  split
  · exact fail_flagged call
  · exact flagged.within phase rfl rfl rfl

theorem WriteCall.Flagged.commit {outcome : WriteOutcome} (restored : outcome = .succeeded → call.projectFileRestored = true) :
    (call.commit faults outcome).Flagged := by
  unfold WriteCall.commit
  split
  · exact fail_flagged call
  · exact ⟨by simp [WriteStep.phase], by simp [WriteStep.phase], by simp [WriteStep.phase], by simpa using restored⟩

/-- Every step keeps the flags. -/
theorem WriteCall.Flagged.step (flagged : call.Flagged) :
    (writeStep sha256Hex writeSet faults call file).1.Flagged := by
  obtain ⟨step, preimage, after, changed, restored, outcome⟩ := call
  unfold writeStep
  cases step <;> dsimp only
  case denialCommit => exact WriteCall.Flagged.commit (by simp)
  case commit => exact WriteCall.Flagged.commit fun _ => flagged.restored rfl
  case preimage | after =>
      (repeat' split) <;> first | exact fail_flagged _ | exact flagged.within rfl rfl rfl rfl
  case write =>
      split
      · exact fail_flagged _
      · exact ⟨by simp [WriteStep.phase], fun _ => ⟨rfl, (flagged.untouched rfl).2⟩, by simp [WriteStep.phase],
          flagged.succeeded⟩
  case verifyAttempt =>
      split
      · exact flagged.statement rfl
      · exact fail_flagged _
  case restore =>
      split
      · exact fail_flagged _
      · exact flagged.within rfl rfl rfl rfl
  case restored =>
      split
      · exact ⟨by simp [WriteStep.phase], by simp [WriteStep.phase], fun _ => rfl, fun _ => rfl⟩
      · exact fail_flagged _
  case undo => exact ⟨by simp [WriteStep.phase], by simp [WriteStep.phase], by simp [WriteStep.phase], flagged.succeeded⟩
  case returned => exact flagged
  all_goals exact flagged.statement rfl

/-- This is what one step can do to a call and to the bytes of its target. -/
inductive StepEffect (sha256Hex : GoString → GoString) (writeSet : WriteSet) (faults : Faults) (call : WriteCall)
    (file : GoString) : WriteCall → GoString → Prop
  /-- The file stays, and the call still owes what it owed. -/
  | keep {after : WriteCall} (owes : call.step.owes = true → after.step.owes = true)
      (accepted : after.step.accepted = true → call.step.accepted = true ∧ after.preimage = call.preimage) :
      StepEffect sha256Hex writeSet faults call file after file
  /-- The file is accepted as the preimage. -/
  | accept {after : WriteCall} (step : call.step = .preimage) (read : readable file = true)
      (expected : expectedBefore sha256Hex writeSet file = true) (preimage : after.preimage = file)
      (owes : after.step.owes = false) :
      StepEffect sha256Hex writeSet faults call file after file
  /-- The new content is written. -/
  | write {after : WriteCall} (step : call.step = .write) (intact : faults.write = none)
      (preimage : after.preimage = call.preimage) (owes : after.step.owes = true) :
      StepEffect sha256Hex writeSet faults call file after writeSet.content
  /-- The write of the new content fails, and the call returns. -/
  | broken {after : WriteCall} {left : GoString} (step : call.step = .write) (fault : faults.write = some left)
      (ended : after.step = .returned) : StepEffect sha256Hex writeSet faults call file after left
  /-- The restoration fails, and the deferred one is still to come. -/
  | torn {after : WriteCall} {left : GoString} (step : call.step = .restore) (fault : faults.restore = some left)
      (ended : after.step = .undo) (preimage : after.preimage = call.preimage) :
      StepEffect sha256Hex writeSet faults call file after left
  /-- The preimage is written back. -/
  | restore {after : WriteCall} (accepted : call.step.accepted = true) (preimage : after.preimage = call.preimage) :
      StepEffect sha256Hex writeSet faults call file after call.preimage

/-- A failing step that does not write keeps the file. -/
theorem WriteCall.Flagged.fail_effect (flagged : call.Flagged) (running : call.step.phase ≠ .ended) :
    StepEffect sha256Hex writeSet faults call file call.fail file := by
  have step := flagged.fail_step running
  cases phase : call.step.phase with
  | changed =>
      rw [if_pos phase] at step
      refine .keep (fun _ => by rw [step]; rfl) fun _ => ⟨?_, rfl⟩
      cases current : call.step <;> simp_all [WriteStep.phase, WriteStep.accepted]
  | untouched | restored | ended =>
      rw [if_neg (by simp [phase])] at step
      refine .keep (fun owes => ?_) fun accepted => by simp [step, WriteStep.accepted] at accepted
      cases current : call.step <;> simp_all [WriteStep.phase, WriteStep.owes]

theorem WriteCall.Flagged.statement_effect (flagged : call.Flagged) (running : call.step.phase ≠ .ended)
    (owes : call.step.owes = true → next.owes = true) (accepted : next.accepted = true → call.step.accepted = true) :
    StepEffect sha256Hex writeSet faults call file (call.statement faults next) file := by
  unfold WriteCall.statement
  split
  · exact flagged.fail_effect running
  · exact .keep owes fun given => ⟨accepted given, rfl⟩

theorem WriteCall.Flagged.commit_effect {outcome : WriteOutcome} (flagged : call.Flagged)
    (running : call.step.phase ≠ .ended) (settled : call.step.owes = false) :
    StepEffect sha256Hex writeSet faults call file (call.commit faults outcome) file := by
  unfold WriteCall.commit
  split
  · exact flagged.fail_effect running
  · exact .keep (by simp [settled]) (by simp [WriteStep.accepted])

theorem WriteCall.Flagged.effect (flagged : call.Flagged) :
    StepEffect sha256Hex writeSet faults call file (writeStep sha256Hex writeSet faults call file).1
      (writeStep sha256Hex writeSet faults call file).2 := by
  obtain ⟨step, preimage, after, changed, restored, outcome⟩ := call
  unfold writeStep
  cases step <;> dsimp only
  case denialCommit | commit => exact flagged.commit_effect (by simp [WriteStep.phase]) rfl
  case preimage =>
      split
      · exact flagged.fail_effect (by simp [WriteStep.phase])
      · rename_i read
        split
        · exact .keep (by simp [WriteStep.owes]) (by simp [WriteStep.accepted])
        · rename_i expected
          exact .accept rfl (by simpa using read) (by simpa using expected) rfl rfl
  case write =>
      split
      · rename_i left fault
        exact .broken rfl fault (by rw [flagged.fail_step (by simp [WriteStep.phase])]; rfl)
      · rename_i intact
        exact .write rfl intact rfl rfl
  case after =>
      split
      · exact flagged.fail_effect (by simp [WriteStep.phase])
      · exact .keep (by simp [WriteStep.owes]) fun _ => ⟨rfl, rfl⟩
  case verifyAttempt =>
      split
      · exact flagged.statement_effect (by simp [WriteStep.phase]) (by simp [WriteStep.owes]) (by simp [WriteStep.accepted])
      · exact flagged.fail_effect (by simp [WriteStep.phase])
  case restore =>
      split
      · rename_i left fault
        exact .torn rfl fault (by rw [flagged.fail_step (by simp [WriteStep.phase])]; rfl) rfl
      · exact .restore rfl rfl
  case restored =>
      split
      · exact .keep (by simp [WriteStep.owes]) (by simp [WriteStep.accepted])
      · exact flagged.fail_effect (by simp [WriteStep.phase])
  case undo => exact .restore rfl rfl
  case returned => exact .keep id fun accepted => ⟨accepted, rfl⟩
  all_goals
    exact flagged.statement_effect (by simp [WriteStep.phase]) (by simp [WriteStep.owes]) (by simp [WriteStep.accepted])

/-- A call is on its way to leave given bytes: what it accepted are these bytes, and they are in the file unless the
call still owes them. -/
structure Settling (bytes : GoString) (call : WriteCall) (file : GoString) : Prop where
  flagged : call.Flagged
  accepted : call.step.accepted = true → call.preimage = bytes
  settled : call.step.owes = true ∨ file = bytes

theorem Settling.step {kept : GoString} (settling : Settling kept call file)
    (intact : ∀ left, faults.write = some left → left = kept) :
    Settling kept (writeStep sha256Hex writeSet faults call file).1
      (writeStep sha256Hex writeSet faults call file).2 := by
  have flagged : (writeStep sha256Hex writeSet faults call file).1.Flagged := settling.flagged.step
  have effect : StepEffect sha256Hex writeSet faults call file _ _ := settling.flagged.effect
  generalize writeStep sha256Hex writeSet faults call file = done at flagged effect
  obtain ⟨after, file'⟩ := done
  dsimp only at flagged effect ⊢
  cases effect with
  | keep owes accepted =>
      refine ⟨flagged, fun given => ?_, settling.settled.imp_left owes⟩
      obtain ⟨before, same⟩ := accepted given
      rw [same]
      exact settling.accepted before
  | accept step read expected preimage owes =>
      have same : file = kept := settling.settled.resolve_left (by simp [step, WriteStep.owes])
      exact ⟨flagged, fun _ => preimage.trans same, Or.inr same⟩
  | write step intact preimage owes =>
      exact ⟨flagged, fun _ => preimage.trans (settling.accepted (by rw [step]; rfl)), Or.inl owes⟩
  | broken step fault ended =>
      exact ⟨flagged, fun given => by simp [ended, WriteStep.accepted] at given, Or.inr (intact _ fault)⟩
  | torn step fault ended preimage =>
      exact ⟨flagged, fun _ => preimage.trans (settling.accepted (by rw [step]; rfl)), Or.inl (by rw [ended]; rfl)⟩
  | restore accepted preimage =>
      have same := settling.accepted accepted
      exact ⟨flagged, fun _ => preimage.trans same, Or.inr same⟩

theorem Settling.steps {kept : GoString} {count : Nat} {state : WriteCall × GoString}
    (settling : Settling kept state.1 state.2) (intact : ∀ left, faults.write = some left → left = kept) :
    Settling kept (writeSteps sha256Hex writeSet faults count state).1
      (writeSteps sha256Hex writeSet faults count state).2 := by
  induction count generalizing state with
  | zero => exact settling
  | succ count ih => exact ih (settling.step intact)

/-- A call that has returned has left the bytes. -/
theorem Settling.file_eq {kept : GoString} (settling : Settling kept call file) (ended : call.step = .returned) :
    file = kept :=
  settling.settled.resolve_left (by simp [ended, WriteStep.owes])

theorem writeSteps_add (first second : Nat) (state : WriteCall × GoString) :
    writeSteps sha256Hex writeSet faults (first + second) state =
      writeSteps sha256Hex writeSet faults second (writeSteps sha256Hex writeSet faults first state) := by
  induction first generalizing state with
  | zero => rw [Nat.zero_add, writeSteps]
  | succ first ih =>
      rw [Nat.succ_add, writeSteps, writeSteps]
      exact ih _

theorem writeSteps_after_returned {count : Nat} {state : WriteCall × GoString} (ended : state.1.step = .returned) :
    writeSteps sha256Hex writeSet faults count state = state := by
  induction count with
  | zero => rfl
  | succ count ih =>
      have still : writeStep sha256Hex writeSet faults state.1 state.2 = state := by
        unfold writeStep
        rw [ended]
      rw [writeSteps, still, ih]

/-- A call comes to its first write: it accepts the file, and no statement before the write fails. -/
structure Prepared (sha256Hex : GoString → GoString) (writeSet : WriteSet) (faults : Faults) (file : GoString) : Prop where
  readable : readable file = true
  expected : expectedBefore sha256Hex writeSet file = true
  statements : ∀ step ∈ [WriteStep.locks, .lease, .leasedTask, .preimageArtifact], faults.statement step = false

theorem Prepared.reaches (prepared : Prepared sha256Hex writeSet faults file) :
    writeSteps sha256Hex writeSet faults 5 ({}, file) = ({ step := .write, preimage := file }, file) := by
  have statement (step : WriteStep) (early : step ∈ [WriteStep.locks, .lease, .leasedTask, .preimageArtifact]) :=
    prepared.statements step early
  simp [writeSteps, writeStep, WriteCall.statement, statement, prepared.readable,
    prepared.expected]

/-- A call that does not come to its first write has soon returned, and it leaves the file alone. -/
theorem writeSteps_unprepared (unprepared : ¬ Prepared sha256Hex writeSet faults file) :
    (writeSteps sha256Hex writeSet faults 5 ({}, file)).1.step = .returned ∧
      (writeSteps sha256Hex writeSet faults 5 ({}, file)).2 = file := by
  simp only [writeSteps]
  cases locks : faults.statement .locks
  case true => simp [writeStep, WriteCall.statement, WriteCall.fail, locks]
  cases read : readable file
  case false => simp [writeStep, WriteCall.statement, WriteCall.fail, locks, read]
  cases expected : expectedBefore sha256Hex writeSet file
  case false =>
      cases denial : faults.statement .denial <;> cases commit : faults.statement .denialCommit <;>
        simp [writeStep, WriteCall.statement, WriteCall.commit, WriteCall.fail, locks, read, expected, denial, commit]
  cases lease : faults.statement .lease
  case true => simp [writeStep, WriteCall.statement, WriteCall.fail, locks, read, expected, lease]
  cases leased : faults.statement .leasedTask
  case true => simp [writeStep, WriteCall.statement, WriteCall.fail, locks, read, expected, lease, leased]
  cases artifact : faults.statement .preimageArtifact
  case true => simp [writeStep, WriteCall.statement, WriteCall.fail, locks, read, expected, lease, leased, artifact]
  exact absurd ⟨read, expected, by simp [locks, lease, leased, artifact]⟩ unprepared

/-- A call that comes to its first write leaves what this write leaves if it fails, and the old bytes otherwise. -/
theorem Prepared.writeCall_file (prepared : Prepared sha256Hex writeSet faults file) :
    (writeCall sha256Hex writeSet faults file).2 = faults.write.getD file := by
  have early : writeCall sha256Hex writeSet faults file =
      writeSteps sha256Hex writeSet faults 16 ({ step := .write, preimage := file }, file) := by
    rw [writeCall, show 21 = 5 + 16 from rfl, writeSteps_add, prepared.reaches]
  rw [early]
  cases fault : faults.write with
  | some left =>
      have broken : writeSteps sha256Hex writeSet faults 1 ({ step := .write, preimage := file }, file) =
          ({ step := .returned, preimage := file, outcome := some .failed }, left) := by
        simp [writeSteps, writeStep, WriteCall.fail, fault]
      rw [show 16 = 1 + 15 from rfl, writeSteps_add, broken, writeSteps_after_returned rfl]
      rfl
  | none =>
      have start : Settling file { step := .write, preimage := file } file :=
        ⟨⟨fun _ => ⟨rfl, rfl⟩, by simp [WriteStep.phase], by simp [WriteStep.phase], by simp⟩, fun _ => rfl, Or.inr rfl⟩
      exact (start.steps (by simp [fault])).file_eq (writeSteps_returned (Nat.le_refl 16))

/-- A call always returns. The target has its old bytes then unless the call came to its first write and this write
failed and left other bytes: the deferred restoration is armed only after that write. -/
theorem writeCall_restores_iff (sha256Hex : GoString → GoString) (writeSet : WriteSet) (faults : Faults) (file : GoString) :
    (writeCall sha256Hex writeSet faults file).1.step = .returned ∧
      ((writeCall sha256Hex writeSet faults file).2 = file ↔
        ¬ (Prepared sha256Hex writeSet faults file ∧ ∃ left, faults.write = some left ∧ left ≠ file)) := by
  refine ⟨writeSteps_returned (Nat.le_refl 21), ?_⟩
  by_cases prepared : Prepared sha256Hex writeSet faults file
  · rw [prepared.writeCall_file]
    cases fault : faults.write with
    | none => simp
    | some left => simp [prepared]
  · obtain ⟨ended, same⟩ := writeSteps_unprepared prepared
    refine iff_of_true ?_ fun bad => prepared bad.1
    rw [writeCall, show 21 = 5 + 16 from rfl, writeSteps_add, writeSteps_after_returned ended, same]

end Calls

section Drills

variable {Files : Type} {env : Env Files} {path : GoString} {content : Files → GoString}

/-- The host keeps a file at a path: its bytes can be read and replaced. -/
structure HoldsFile (env : Env Files) (path : GoString) (content : Files → GoString) : Prop where
  stat : ∀ files, ∃ info, env.stat path files = .ok info ∧ info.isDir = false ∧ info.size = (content files).length
  read : ∀ files, env.readFile path files = .ok (content files)
  write : ∀ new files, ∃ files', env.writeFile path new files = (files', .ok ()) ∧ content files' = new

theorem HoldsFile.image (holds : HoldsFile env path content) (files : Files) :
    (readable (content files) = true ∧ readFixtureProjectFileImage env files path =
        .ok ⟨content files, env.codec.sha256Hex (content files), (content files).length⟩) ∨
      (readable (content files) = false ∧ ∃ failure, readFixtureProjectFileImage env files path = .error failure) := by
  obtain ⟨info, found, notDirectory, size⟩ := holds.stat files
  unfold readFixtureProjectFileImage readFileImage readable
  simp only [found, holds.read, Except.mapError, bind, Except.bind, notDirectory, Bool.false_eq_true, if_false, size]
  by_cases large : maxProjectFileBytes < (content files).length
  · simp [large]
  · simp [large]

/-- The steps of a call from its first write to the end of its restoration. -/
theorem writeSteps_result (sha256Hex : GoString → GoString) (writeSet : WriteSet) (preimage file : GoString) :
    (writeSteps sha256Hex writeSet .none 7 ({ step := .write, preimage := preimage }, file)).2 = preimage ∧
      ((writeSteps sha256Hex writeSet .none 7 ({ step := .write, preimage := preimage }, file)).1.step = .report ↔
        readable writeSet.content = true ∧ expectedAfter sha256Hex writeSet writeSet.content = true ∧
          readable preimage = true) := by
  have wrote : writeSteps sha256Hex writeSet .none 7 ({ step := .write, preimage := preimage }, file) =
      writeSteps sha256Hex writeSet .none 6
        ({ step := .after, preimage := preimage, projectFileChanged := true }, writeSet.content) := rfl
  rw [wrote]
  cases read : readable writeSet.content with
  | false => simp [writeSteps, writeStep, WriteCall.fail, read]
  | true =>
      cases expected : expectedAfter sha256Hex writeSet writeSet.content with
      | false => simp [writeSteps, writeStep, WriteCall.statement, WriteCall.fail, Faults.none, read, expected]
      | true =>
          cases readBack : readable preimage with
          | false => simp [writeSteps, writeStep, WriteCall.statement, WriteCall.fail, Faults.none, read, expected, readBack]
          | true => simp [writeSteps, writeStep, WriteCall.statement, Faults.none, read, expected, readBack]

variable (holds : HoldsFile env path content) (now : Time) (operation : Operation) (scope : Scope) (task : TaskRow)
  (change : Change) (lease : LeaseRow) (artifact : ArtifactRow) (files : Files) (db : Database)
  (target : change.fullPath = path) (hash : change.preimage.sha256 = env.codec.sha256Hex change.preimage.content)
  (size : change.preimage.sizeBytes = change.preimage.content.length)

include holds target hash size

/-- A drill always leaves the preimage. It ends with an answer if both contents can be read back and the new one is the
expected one. -/
theorem drill_result :
    content (drill env now operation scope task change lease artifact files db).1 = change.preimage.content ∧
      ((drill env now operation scope task change lease artifact files db).2.isOk = true ↔
        readable change.writeSet.content = true ∧
          expectedAfter env.codec.sha256Hex change.writeSet change.writeSet.content = true ∧
          readable change.preimage.content = true) := by
  subst target
  obtain ⟨written, wrote, changed⟩ := holds.write change.writeSet.content files
  obtain ⟨restored, restores, back⟩ := holds.write change.preimage.content written
  have arrives : arrived change ⟨content written, env.codec.sha256Hex (content written), (content written).length⟩ =
      expectedAfter env.codec.sha256Hex change.writeSet change.writeSet.content := by
    rw [changed]
    rfl
  unfold drill
  simp only [Tx.bind_apply, Tx.act, wrote, Tx.onFailure]
  rcases holds.image written with ⟨read, image⟩ | ⟨unread, failure, image⟩
  · rw [changed] at read
    simp only [image, insertRunAttempt, Tx.write, arrives]
    by_cases expected : expectedAfter env.codec.sha256Hex change.writeSet change.writeSet.content = true
    · rcases holds.image restored with ⟨readBack, imageBack⟩ | ⟨unread, failure, imageBack⟩
      · rw [back] at readBack imageBack
        simp [expected, Tx.bind_apply, Tx.act, restores, imageBack, hash, size, pure, back, read, readBack, Except.isOk,
          Except.toBool]
      · obtain ⟨again, restoresAgain, backAgain⟩ := holds.write change.preimage.content restored
        rw [back] at unread
        simp [expected, Tx.bind_apply, Tx.act, restores, imageBack, restoresAgain, backAgain, unread, Except.isOk,
          Except.toBool]
    · simp [expected, Tx.fail, restores, back, Except.isOk, Except.toBool]
  · rw [changed] at unread
    simp [image, restores, back, unread, Except.isOk, Except.toBool]

/-- The drill does to its target what the steps of a call without faults do from the first write on, and it ends with an
answer exactly if these steps go on to the report. -/
theorem drill_writeSteps :
    let drilled := drill env now operation scope task change lease artifact files db
    let ended := writeSteps env.codec.sha256Hex change.writeSet .none 7
      ({ step := .write, preimage := change.preimage.content }, content files)
    content drilled.1 = ended.2 ∧ (drilled.2.isOk = true ↔ ended.1.step = .report) := by
  obtain ⟨left, answered⟩ := drill_result holds now operation scope task change lease artifact files db target hash size
  obtain ⟨same, reported⟩ :=
    writeSteps_result env.codec.sha256Hex change.writeSet change.preimage.content (content files)
  exact ⟨left.trans same.symm, answered.trans reported.symm⟩

end Drills

section Torn

/-- This write set replaces one byte by another. -/
def oneByte (before after : GoString) : WriteSet :=
  { operation := bytes "modify", targetPath := bytes "f", targetPathKind := [], expectedBeforeSHA256 := Json.digest before,
    expectedBeforeSize := before.length, afterSHA256 := Json.digest after, afterSize := after.length, content := after,
    permissionCapabilities := [], approvalRequired := true, rollbackMode := [] }

/-- The first write fails after it truncated the file; the call returns and the file stays empty. -/
theorem truncatedTarget_stays :
    (writeCall Json.digest (oneByte (bytes "a") (bytes "b")) { Faults.none with write := some [] } (bytes "a")).1.outcome =
        some .failed ∧
      (writeCall Json.digest (oneByte (bytes "a") (bytes "b")) { Faults.none with write := some [] } (bytes "a")).2 = [] := by
  decide +kernel

end Torn

section Races

variable {sha256Hex : GoString → GoString} {race : WriteRace} {initial : GoString}

/-- The first call changes the file to something that the second one expects to find. -/
structure Overlaps (sha256Hex : GoString → GoString) (first second : WriteSet) (initial : GoString) : Prop where
  readable : readable initial = true
  expected : expectedBefore sha256Hex first initial = true
  changes : first.content ≠ initial
  readableChange : AreaFlow.Project.readable first.content = true
  expectedChange : expectedBefore sha256Hex second first.content = true

/-- Both calls have accepted the initial bytes only, and these are in the file unless a call owes its restoration. -/
structure Raced (sha256Hex : GoString → GoString) (initial : GoString) (first second : WriteSet) (a b : WriteCall)
    (file : GoString) : Prop where
  flagged : a.Flagged
  otherFlagged : b.Flagged
  accepted : a.step.accepted = true →
    a.preimage = initial ∧ readable initial = true ∧ expectedBefore sha256Hex first initial = true
  otherAccepted : b.step.accepted = true →
    b.preimage = initial ∧ readable initial = true ∧ expectedBefore sha256Hex second initial = true
  settled : file = initial ∨ (file = first.content ∧ a.step.owes = true) ∨ (file = second.content ∧ b.step.owes = true)

variable {first second : WriteSet} {a b : WriteCall} {file : GoString}

theorem Raced.symm (raced : Raced sha256Hex initial first second a b file) :
    Raced sha256Hex initial second first b a file :=
  ⟨raced.otherFlagged, raced.flagged, raced.otherAccepted, raced.accepted, raced.settled.imp_right Or.symm⟩

theorem accepted_of_owes {step : WriteStep} (owes : step.owes = true) : step.accepted = true := by
  cases step <;> simp_all [WriteStep.owes, WriteStep.accepted]

theorem active_of_owes (owes : a.step.owes = true) : a.active = true := by
  unfold WriteCall.active
  cases step : a.step <;> simp_all [WriteStep.owes]

/-- A step of one call keeps the invariant if the call accepts nothing but the initial bytes. -/
theorem Raced.step (raced : Raced sha256Hex initial first second a b file)
    (accepts : a.step = .preimage → readable file = true → expectedBefore sha256Hex first file = true → file = initial) :
    Raced sha256Hex initial first second (writeStep sha256Hex first .none a file).1 b
      (writeStep sha256Hex first .none a file).2 := by
  have flagged : (writeStep sha256Hex first .none a file).1.Flagged := raced.flagged.step
  have effect : StepEffect sha256Hex first .none a file _ _ := raced.flagged.effect
  generalize writeStep sha256Hex first .none a file = done at flagged effect
  obtain ⟨after, file'⟩ := done
  dsimp only at flagged effect ⊢
  cases effect with
  | keep owes accepted =>
      refine ⟨flagged, raced.otherFlagged, fun given => ?_, raced.otherAccepted, ?_⟩
      · obtain ⟨before, same⟩ := accepted given
        rw [same]
        exact raced.accepted before
      · exact raced.settled.imp_right (Or.imp_left (And.imp_right owes))
  | accept step read expected preimage owes =>
      have same := accepts step read expected
      refine ⟨flagged, raced.otherFlagged, fun _ => ⟨preimage.trans same, ?_, ?_⟩, raced.otherAccepted, Or.inl same⟩
      · rwa [← same]
      · rwa [← same]
  | write step intact preimage owes =>
      refine ⟨flagged, raced.otherFlagged, fun _ => ?_, raced.otherAccepted, Or.inr (Or.inl ⟨rfl, owes⟩)⟩
      rw [preimage]
      exact raced.accepted (by rw [step]; rfl)
  | broken step fault ended => cases fault
  | torn step fault ended preimage => cases fault
  | restore accepted preimage =>
      have before := raced.accepted accepted
      refine ⟨flagged, raced.otherFlagged, fun _ => ?_, raced.otherAccepted, Or.inl before.1⟩
      rw [preimage]
      exact before

/-- Without an overlap, or with row locks in common, a call accepts nothing but the initial bytes. -/
theorem Raced.accepts (raced : Raced sha256Hex initial first second a b file)
    (apart : ¬ Overlaps sha256Hex second first initial ∨ ¬ (a.active = true ∧ b.active = true)) (step : a.step = .preimage)
    (read : readable file = true) (expected : expectedBefore sha256Hex first file = true) : file = initial := by
  rcases raced.settled with same | ⟨-, owes⟩ | ⟨changed, owes⟩
  · exact same
  · simp [step, WriteStep.owes] at owes
  · obtain ⟨-, readInitial, expectedInitial⟩ := raced.otherAccepted (accepted_of_owes owes)
    rcases apart with apart | alone
    · by_contra other
      subst changed
      exact apart ⟨readInitial, expectedInitial, other, read, expected⟩
    · exact absurd ⟨by simp [WriteCall.active, step], active_of_owes owes⟩ alone

theorem active_of_step (active : (writeStep sha256Hex first .none a file).1.active = true) :
    a.active = true ∨ a.step = .locks := by
  unfold WriteCall.active at active ⊢
  by_cases start : a.step = .locks
  · exact Or.inr start
  · by_cases ended : a.step = .returned
    · simp [writeStep, ended] at active
    · simp [start, ended]

/-- This is the invariant of two calls: no two of them are active under common locks. -/
structure RaceSafe (sha256Hex : GoString → GoString) (race : WriteRace) (initial : GoString) (state : RaceState) :
    Prop where
  raced : Raced sha256Hex initial race.first race.second state.first state.second state.file
  exclusive : race.locked = true → ¬ (state.first.active = true ∧ state.second.active = true)

/-- These races leave their target as it was. -/
def WriteRace.Apart (sha256Hex : GoString → GoString) (race : WriteRace) (initial : GoString) : Prop :=
  race.locked = true ∨
    (¬ Overlaps sha256Hex race.first race.second initial ∧ ¬ Overlaps sha256Hex race.second race.first initial)

theorem RaceSafe.step {state : RaceState} (apart : race.Apart sha256Hex initial)
    (safe : RaceSafe sha256Hex race initial state) (second : Bool) :
    RaceSafe sha256Hex race initial (raceStep sha256Hex race state second).1 := by
  unfold raceStep
  cases second with
  | true =>
      simp only [if_true]
      split
      · exact safe
      · rename_i free
        have alone : ¬ Overlaps sha256Hex race.first race.second initial ∨
            ¬ (state.second.active = true ∧ state.first.active = true) := by
          rcases apart with locked | apart
          · exact Or.inr fun both => safe.exclusive locked both.symm
          · exact Or.inl apart.1
        refine ⟨(safe.raced.symm.step (safe.raced.symm.accepts alone)).symm, fun locked both => ?_⟩
        rcases active_of_step both.2 with active | start
        · exact safe.exclusive locked ⟨both.1, active⟩
        · exact free (by simp [locked, start, both.1])
  | false =>
      simp only [Bool.false_eq_true, if_false]
      split
      · exact safe
      · rename_i free
        have alone : ¬ Overlaps sha256Hex race.second race.first initial ∨
            ¬ (state.first.active = true ∧ state.second.active = true) := by
          rcases apart with locked | apart
          · exact Or.inr (safe.exclusive locked)
          · exact Or.inl apart.2
        refine ⟨safe.raced.step (safe.raced.accepts alone), fun locked both => ?_⟩
        rcases active_of_step both.1 with active | start
        · exact safe.exclusive locked ⟨active, both.2⟩
        · exact free (by simp [locked, start, both.2])

theorem start_flagged : WriteCall.Flagged {} :=
  ⟨fun _ => ⟨rfl, rfl⟩, by simp [WriteStep.phase], by simp [WriteStep.phase], by simp⟩

theorem RaceSafe.run (apart : race.Apart sha256Hex initial) (schedule : List Bool) :
    RaceSafe sha256Hex race initial (Run.final (raceStep sha256Hex race) { file := initial } schedule) := by
  have start : RaceSafe sha256Hex race initial { file := initial } :=
    ⟨⟨start_flagged, start_flagged, by simp [WriteStep.accepted], by simp [WriteStep.accepted], Or.inl rfl⟩,
      by simp [WriteCall.active]⟩
  exact Run.final_invariant (fun _ second safe => safe.step apart second) start schedule

/-- The first call runs alone for a while. -/
theorem race_first (unlocked : race.locked = false) (count : Nat) (state : RaceState) :
    Run.final (raceStep sha256Hex race) state (List.replicate count false) =
      { state with
        first := (writeSteps sha256Hex race.first .none count (state.first, state.file)).1
        file := (writeSteps sha256Hex race.first .none count (state.first, state.file)).2 } := by
  induction count generalizing state with
  | zero => rfl
  | succ count ih =>
      rw [List.replicate_succ, Run.final, ih]
      simp [raceStep, unlocked, writeSteps]

theorem race_second (unlocked : race.locked = false) (count : Nat) (state : RaceState) :
    Run.final (raceStep sha256Hex race) state (List.replicate count true) =
      { state with
        second := (writeSteps sha256Hex race.second .none count (state.second, state.file)).1
        file := (writeSteps sha256Hex race.second .none count (state.second, state.file)).2 } := by
  induction count generalizing state with
  | zero => rfl
  | succ count ih =>
      rw [List.replicate_succ, Run.final, ih]
      simp [raceStep, unlocked, writeSteps]

/-- A call that has written leaves its preimage in the end, whatever is in the file. -/
theorem writeSteps_leaves_preimage (sha256Hex : GoString → GoString) (first : WriteSet) {count : Nat}
    (enough : 19 ≤ count) (preimage file : GoString) :
    (writeSteps sha256Hex first .none count ({ step := .lease, preimage := preimage }, file)).1.step = .returned ∧
      (writeSteps sha256Hex first .none count ({ step := .lease, preimage := preimage }, file)).2 = preimage := by
  have ended : (writeSteps sha256Hex first .none count ({ step := .lease, preimage := preimage }, file)).1.step =
      .returned := writeSteps_returned (by simpa [WriteStep.rank] using enough)
  refine ⟨ended, ?_⟩
  obtain ⟨rest, rfl⟩ : ∃ rest, count = 4 + rest := ⟨count - 4, by omega⟩
  have written : writeSteps sha256Hex first .none 4 ({ step := .lease, preimage := preimage }, file) =
      ({ step := .after, preimage := preimage, projectFileChanged := true }, first.content) := by
    simp [writeSteps, writeStep, WriteCall.statement, Faults.none]
  rw [writeSteps_add, written] at ended ⊢
  have start : Settling preimage { step := .after, preimage := preimage, projectFileChanged := true } first.content :=
    ⟨⟨by simp [WriteStep.phase], fun _ => ⟨rfl, rfl⟩, by simp [WriteStep.phase], by simp⟩, fun _ => rfl, Or.inl rfl⟩
  exact (start.steps (by simp [Faults.none])).file_eq ended

/-- In an overlap, the second call reads what the first one wrote and puts it back after the first one has returned. -/
theorem Overlaps.corrupts (unlocked : race.locked = false) (overlaps : Overlaps sha256Hex race.first race.second initial) :
    ∃ schedule, (Run.final (raceStep sha256Hex race) { file := initial } schedule).first.step = .returned ∧
      (Run.final (raceStep sha256Hex race) { file := initial } schedule).second.step = .returned ∧
      (Run.final (raceStep sha256Hex race) { file := initial } schedule).file ≠ initial := by
  have prepared : Prepared sha256Hex race.first .none initial :=
    ⟨overlaps.readable, overlaps.expected, fun _ _ => rfl⟩
  have wrote : writeSteps sha256Hex race.first .none 6 ({}, initial) =
      ({ step := .after, preimage := initial, projectFileChanged := true }, race.first.content) := by
    rw [show 6 = 5 + 1 from rfl, writeSteps_add, prepared.reaches]
    rfl
  have read : writeSteps sha256Hex race.second .none 2 ({}, race.first.content) =
      ({ step := .lease, preimage := race.first.content }, race.first.content) := by
    simp [writeSteps, writeStep, WriteCall.statement, Faults.none, overlaps.readableChange, overlaps.expectedChange]
  have left := writeSteps_leaves_preimage sha256Hex race.second (Nat.le_refl 19) race.first.content
    (writeSteps sha256Hex race.first .none 15
      ({ step := .after, preimage := initial, projectFileChanged := true }, race.first.content)).2
  refine ⟨List.replicate 6 false ++ (List.replicate 2 true ++ (List.replicate 15 false ++ List.replicate 19 true)), ?_⟩
  simp only [Run.final_append, race_first unlocked, race_second unlocked, wrote, read]
  exact ⟨writeSteps_returned (Nat.le_refl 15), left.1, fun same => overlaps.changes (left.2.symm.trans same)⟩

/-- These are the same two calls in the other order. -/
def WriteRace.swap (race : WriteRace) : WriteRace := ⟨race.second, race.first, race.locked⟩

def RaceState.swap (state : RaceState) : RaceState := ⟨state.second, state.first, state.file⟩

theorem race_swap (schedule : List Bool) (state : RaceState) :
    Run.final (raceStep sha256Hex race.swap) state.swap (schedule.map Bool.not) =
      (Run.final (raceStep sha256Hex race) state schedule).swap := by
  induction schedule generalizing state with
  | nil => rfl
  | cons second rest ih =>
      have step : (raceStep sha256Hex race.swap state.swap (!second)).1 =
          (raceStep sha256Hex race state second).1.swap := by
        cases second with
        | false =>
            by_cases blocked : (race.locked && state.first.step == .locks && state.second.active) = true <;>
              simp only [raceStep, WriteRace.swap, RaceState.swap, Bool.not_false, if_true, Bool.false_eq_true, if_false,
                blocked]
        | true =>
            by_cases blocked : (race.locked && state.second.step == .locks && state.first.active) = true <;>
              simp only [raceStep, WriteRace.swap, RaceState.swap, Bool.not_true, if_true, Bool.false_eq_true, if_false,
                blocked]
      rw [List.map_cons, Run.final, step, ih]
      rfl

/-- After two concurrent calls the target is as it was before them, in every interleaving, exactly if the calls have row
locks in common or neither of them expects what the other one writes. -/
theorem concurrentWrites_restore_iff (sha256Hex : GoString → GoString) (race : WriteRace) (initial : GoString) :
    (∀ schedule : List Bool,
      let ended := Run.final (raceStep sha256Hex race) { file := initial } schedule
      ended.first.step = .returned → ended.second.step = .returned →
        ended.file = initial ∧ (ended.first.outcome = some .succeeded → ended.first.projectFileRestored = true) ∧
          (ended.second.outcome = some .succeeded → ended.second.projectFileRestored = true)) ↔
      race.locked = true ∨
        (¬ Overlaps sha256Hex race.first race.second initial ∧ ¬ Overlaps sha256Hex race.second race.first initial) := by
  constructor
  · intro restores
    by_cases locked : race.locked = true
    · exact Or.inl locked
    · have unlocked : race.locked = false := by simpa using locked
      refine Or.inr ⟨fun overlaps => ?_, fun overlaps => ?_⟩
      · obtain ⟨schedule, first, second, changed⟩ := overlaps.corrupts unlocked
        exact changed (restores schedule first second).1
      · obtain ⟨schedule, first, second, changed⟩ := Overlaps.corrupts (show race.swap.locked = false from unlocked) overlaps
        have same : Run.final (raceStep sha256Hex race.swap) { file := initial } ((schedule.map Bool.not).map Bool.not) =
            (Run.final (raceStep sha256Hex race) { file := initial } (schedule.map Bool.not)).swap :=
          race_swap (schedule.map Bool.not) { file := initial }
        rw [List.map_map, Bool.involutive_not.comp_self, List.map_id] at same
        rw [same] at first second changed
        exact changed (restores _ second first).1
  · intro apart schedule ended first second
    have safe : RaceSafe sha256Hex race initial ended := RaceSafe.run apart schedule
    refine ⟨?_, safe.raced.flagged.succeeded, safe.raced.otherFlagged.succeeded⟩
    rcases safe.raced.settled with same | ⟨-, owes⟩ | ⟨-, owes⟩
    · exact same
    · simp [first, WriteStep.owes] at owes
    · simp [second, WriteStep.owes] at owes

/-- One call changes the byte a to b, and the other one expects b; both return, and b stays in the file. -/
theorem overlappingWrites_corrupt :
    let race : WriteRace := ⟨oneByte (bytes "a") (bytes "b"), oneByte (bytes "b") (bytes "c"), false⟩
    let ended := Run.final (raceStep Json.digest race) { file := bytes "a" }
      (List.replicate 6 false ++ List.replicate 2 true ++ List.replicate 15 false ++ List.replicate 19 true)
    ended.first.step = .returned ∧ ended.second.outcome = some .succeeded ∧ ended.second.step = .returned ∧
      ended.file = bytes "b" := by
  decide +kernel

end Races

end AreaFlow.Project
