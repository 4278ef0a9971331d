import AreaFlow.Proof.Records

namespace AreaFlow.Project
open Go Tx

set_option synthInstance.maxSize 2048

/-- No step deletes a row of the work, and what a row refers to stays. -/
structure Persists (before after : Database) : Prop where
  runs : Table.Kept (fun run => (run.id, run.projectID, run.versionID)) before.runs after.runs
  tasks : Table.Kept (fun task => (task.id, task.projectID)) before.tasks after.tasks
  attempts : Table.Kept (fun attempt => (attempt.id, attempt.projectID)) before.attempts after.attempts
  artifacts : Table.Kept (fun artifact => (artifact.id, artifact.projectID)) before.artifacts after.artifacts
  leases : Table.Kept (fun lease => (lease.id, lease.projectID, lease.taskID, lease.workerID)) before.leases after.leases
  workers : Table.Kept (fun worker => (worker.id, worker.projectID, worker.workerKey)) before.workers after.workers

namespace Persists

/-- A step that leaves the tables of the work keeps their rows. -/
theorem of_same {before after : Database} (runs : after.runs = before.runs) (tasks : after.tasks = before.tasks)
    (attempts : after.attempts = before.attempts) (artifacts : after.artifacts = before.artifacts)
    (leases : after.leases = before.leases) (workers : after.workers = before.workers) : Persists before after where
  runs := runs ▸ .refl _
  tasks := tasks ▸ .refl _
  attempts := attempts ▸ .refl _
  artifacts := artifacts ▸ .refl _
  leases := leases ▸ .refl _
  workers := workers ▸ .refl _

theorem same (db : Database) : Persists db db := of_same rfl rfl rfl rfl rfl rfl

instance : IsPreorder Database Persists where
  refl db := same db
  trans _ _ _ first second :=
    ⟨first.runs.trans second.runs, first.tasks.trans second.tasks, first.attempts.trans second.attempts,
      first.artifacts.trans second.artifacts, first.leases.trans second.leases, first.workers.trans second.workers⟩

variable {Files : Type}

instance : Work Files Persists where
  event _ := Moves.write fun _ => of_same rfl rfl rfl rfl rfl rfl
  audit _ := Moves.write fun _ => of_same rfl rfl rfl rfl rfl rfl
  attempt _ := Moves.write fun db => { same db with attempts := .insert _ _ }
  artifact _ := Moves.write fun db => { same db with artifacts := .insert _ _ }
  taskMetadata _ _ := Moves.write fun db => { same db with tasks := .update fun _ _ _ => rfl }
  run _ := Moves.write fun db => { same db with runs := .insert _ _ }
  controlled _ _ _ _ := Moves.write fun db => { same db with runs := .update fun _ _ _ => rfl }
  worked _ _ _ _ _ _ _ := Moves.write fun db => { same db with runs := .update fun _ _ _ => rfl }
  task _ _ := Moves.write fun db => { same db with tasks := .insert _ _ }
  taskStatus _ _ := Moves.write fun db => by
    split
    · exact same db
    · exact { same db with tasks := .update fun _ _ _ => rfl }
  taskCancel _ _ _ := Moves.write fun db => { same db with tasks := .update fun _ _ _ => rfl }
  lease _ := Moves.write fun db => { same db with leases := .insert _ _ }
  leaseEnd _ _ _ _ := Moves.write fun db => { same db with leases := .update fun _ _ _ => rfl }

instance : Staff Files Persists where
  heartbeat _ _ _ _ _ := Moves.write fun _ => of_same rfl rfl rfl rfl rfl rfl
  actor _ _ := Moves.write fun db => by
    split
    · exact same db
    · exact of_same rfl rfl rfl rfl rfl rfl
  worker now record options actorID := Moves.write fun db => by
    split
    · exact { same db with workers := .insert _ _ }
    · rename_i known look
      -- a known worker is registered again under the same key
      refine { same db with workers := .update fun worker stored chosen => ?_ }
      have fits := List.find?_some look
      simp only [Bool.and_eq_true, beq_iff_eq] at fits
      have equal : worker = known := Table.unique stored (List.mem_of_find?_eq_some look) (eq_of_beq chosen)
      rw [equal]
      exact Prod.ext rfl (Prod.ext fits.1.symm fits.2.symm)
  beat _ _ _ := Moves.write fun db => { same db with workers := .update fun _ _ _ => rfl }

instance {commandType : GoString} : Once Files Persists commandType :=
  Once.of_commands fun _ _ => .of_ignoring fun _ _ => of_same rfl rfl rfl rfl rfl rfl

variable {env : Env Files}

/-- Every step of the system keeps the rows of the work. -/
theorem workStep (world : World Files) (event : WorkEvent Files) :
    Persists world.db (Project.workStep env world event).1.db :=
  workStep_moves fun _ _ _ => of_same rfl rfl rfl rfl rfl rfl

end Persists

end AreaFlow.Project
