import AreaFlow.Library.Programs
import AreaFlow.Library.Run

namespace Program

variable {Label Cell A B Call : Type}

section Rules

variable (rule : List (Label × Cell × Cell) → Label → (Cell → Cell) → Cell → Prop)
  (post : List (Label × Cell × Cell) → A → Prop)

/-- Whatever a program finds in the cell, each of its accesses meets a rule, and its answer meets the post-condition. -/
def Obeys : Program Label Cell A → List (Label × Cell × Cell) → Prop
  | done answer, record => post record answer
  | access label action next, record => ∀ found, rule record label action found ∧
      Obeys (next found) ((label, found, action found) :: record)

variable {rule post}

theorem Obeys.mono {program : Program Label Cell A} {weaker : List (Label × Cell × Cell) → A → Prop}
    {record : List (Label × Cell × Cell)} (obeys : Obeys rule post program record)
    (weakens : ∀ record answer, post record answer → weaker record answer) : Obeys rule weaker program record := by
  induction program generalizing record with
  | done answer => exact weakens record answer obeys
  | access label action next ih => exact fun found => ⟨(obeys found).1, ih found (obeys found).2⟩

/-- A program goes on after the one before it. -/
theorem Obeys.bind {program : Program Label Cell A} {rest : A → Program Label Cell B}
    {final : List (Label × Cell × Cell) → B → Prop} {record : List (Label × Cell × Cell)}
    (first : Obeys rule (fun record answer => Obeys rule final (rest answer) record) program record) :
    Obeys rule final (program >>= rest) record := by
  induction program generalizing record with
  | done answer => exact first
  | access label action next ih => exact fun found => ⟨(first found).1, ih found (first found).2⟩

/-- A part that may fail goes on only if it does not. -/
theorem Obeys.attempt {E : Type} {part : ExceptT E (Program Label Cell) A} {rest : A → ExceptT E (Program Label Cell) B}
    {final : List (Label × Cell × Cell) → Except E B → Prop} {record : List (Label × Cell × Cell)}
    (first : Obeys rule (fun record answer =>
      (∀ failure, answer = .error failure → final record (.error failure)) ∧
      ∀ found, answer = .ok found → Obeys rule final (rest found).run record) part.run record) :
    Obeys rule final (part >>= rest).run record := by
  apply Obeys.bind
  apply first.mono
  rintro record (failure | found) ⟨failed, done⟩
  · exact failed failure rfl
  · exact done found rfl

end Rules

/-- A process is a program that runs beside others, with the record of its own accesses. -/
structure Process (Label Cell A : Type) where
  program : Program Label Cell A
  record : List (Label × Cell × Cell) := []

/-- These are the processes that share a cell. The log holds the accesses of all processes, the latest first. -/
structure Pool (Label Cell A : Type) where
  cell : Cell
  processes : List (Process Label Cell A) := []
  log : List (Label × Cell × Cell) := []

/-- A call is started, or one of the processes makes its next access. -/
inductive PoolMove (Call : Type) where
  | start (call : Call)
  | advance (index : Nat)
  deriving DecidableEq

section Pools

variable (code : Call → Program Label Cell A)

/-- This function is one move. A process that is done makes no access. -/
def Pool.step (pool : Pool Label Cell A) : PoolMove Call → Pool Label Cell A × Unit
  | .start call => ({ pool with processes := pool.processes ++ [{ program := code call }] }, ())
  | .advance index =>
      match pool.processes[index]? with
      | some ⟨access label action next, record⟩ =>
          ({ cell := action pool.cell
             processes := pool.processes.set index
               { program := next pool.cell, record := (label, pool.cell, action pool.cell) :: record }
             log := (label, pool.cell, action pool.cell) :: pool.log }, ())
      | _ => (pool, ())

/-- This is the label of the access that a move makes. -/
def Pool.label (pool : Pool Label Cell A) : PoolMove Call → Option Label
  | .start _ => none
  | .advance index => pool.processes[index]?.bind fun process => process.program.upcoming

/-- A move makes an access of a process, or it makes none and starts at most one call. -/
theorem Pool.step_cases (pool : Pool Label Cell A) (move : PoolMove Call) :
    (∃ index process label action next, pool.processes[index]? = some process ∧ move = .advance index ∧
      process.program = access label action next ∧
      (pool.step code move).1 =
        { cell := action pool.cell
          processes := pool.processes.set index
            { program := next pool.cell, record := (label, pool.cell, action pool.cell) :: process.record }
          log := (label, pool.cell, action pool.cell) :: pool.log }) ∨
    (∃ call, (pool.step code move).1 = { pool with processes := pool.processes ++ [{ program := code call }] }) ∨
    (pool.step code move).1 = pool := by
  cases move with
  | start call => exact Or.inr (Or.inl ⟨call, rfl⟩)
  | advance index =>
      cases held : pool.processes[index]? with
      | none =>
          simp only [Pool.step, held]
          exact Or.inr (Or.inr trivial)
      | some process =>
          obtain ⟨program, record⟩ := process
          cases program with
          | done answer =>
              simp only [Pool.step, held]
              exact Or.inr (Or.inr trivial)
          | access label action next =>
              refine Or.inl ⟨index, _, label, action, next, held, rfl, rfl, ?_⟩
              simp only [Pool.step, held]

variable {code} {rule : List (Label × Cell × Cell) → Label → (Cell → Cell) → Cell → Prop}
  {post : List (Label × Cell × Cell) → A → Prop}

/-- Every process of a pool obeys a rule, if every call does. -/
theorem Pool.obeys_step (calls : ∀ call, Obeys rule post (code call) []) (pool : Pool Label Cell A) (move : PoolMove Call)
    (obeys : ∀ process ∈ pool.processes, Obeys rule post process.program process.record) :
    ∀ process ∈ (pool.step code move).1.processes, Obeys rule post process.program process.record := by
  rcases pool.step_cases code move with ⟨index, old, label, action, next, held, -, shape, after⟩ | ⟨call, after⟩ | after
  · rw [after]
    intro process member
    rcases List.mem_or_eq_of_mem_set member with kept | rfl
    · exact obeys process kept
    · have before := obeys old (List.mem_of_getElem? held)
      rw [shape] at before
      exact (before pool.cell).2
  · rw [after]
    intro process member
    rcases List.mem_append.mp member with kept | new
    · exact obeys process kept
    · rw [List.mem_singleton.mp new]
      exact calls call
  · rw [after]
    exact obeys

/-- Each access of a program does what its label says. -/
def Lawful (perform : Label → Cell → Cell) (program : Program Label Cell A) (record : List (Label × Cell × Cell)) : Prop :=
  Obeys (fun _ label action _ => action = perform label) (fun _ _ => True) program record

/-- A move of lawful processes does what the label of its access says, or it leaves the cell and the log. -/
theorem Pool.step_effect {perform : Label → Cell → Cell} (pool : Pool Label Cell A) (move : PoolMove Call)
    (lawful : ∀ process ∈ pool.processes, Lawful perform process.program process.record) :
    (∃ label, pool.label move = some label ∧ (pool.step code move).1.cell = perform label pool.cell ∧
      (pool.step code move).1.log = (label, pool.cell, perform label pool.cell) :: pool.log) ∨
    ((pool.step code move).1.cell = pool.cell ∧ (pool.step code move).1.log = pool.log) := by
  rcases pool.step_cases code move with ⟨index, old, label, action, next, held, rfl, shape, after⟩ | ⟨call, after⟩ | after
  · have law := lawful old (List.mem_of_getElem? held)
    rw [Lawful, shape] at law
    obtain rfl : action = perform label := (law pool.cell).1
    rw [after]
    refine Or.inl ⟨label, ?_, rfl, rfl⟩
    simp only [Pool.label, held, Option.bind_some, shape, upcoming]
  · rw [after]
    exact Or.inr ⟨rfl, rfl⟩
  · rw [after]
    exact Or.inr ⟨rfl, rfl⟩

/-- A program whose accesses all find a good cell ends with the post-condition. -/
def Within (good : Cell → Prop) (post : A → Prop) : Program Label Cell A → Prop
  | done answer => post answer
  | access _ _ next => ∀ found, good found → Within good post (next found)

variable {good : Cell → Prop} {ends : A → Prop}

/-- The processes of a pool from an index on stay within a condition, while the cell is good. -/
theorem Pool.within_step (calls : ∀ call, Within good ends (code call)) (start : Nat) (pool : Pool Label Cell A)
    (move : PoolMove Call) (holds : good pool.cell)
    (within : ∀ index, start ≤ index → ∀ process ∈ pool.processes[index]?, Within good ends process.program) :
    ∀ index, start ≤ index → ∀ process ∈ (pool.step code move).1.processes[index]?, Within good ends process.program := by
  intro index late process held
  rcases pool.step_cases code move with ⟨moved, old, label, action, next, present, -, shape, after⟩ | ⟨call, after⟩ | after
  · rw [after, Option.mem_def, List.getElem?_set] at held
    split at held
    · rename_i same
      split at held
      · cases held
        have before := within moved (same ▸ late) old present
        rw [shape] at before
        exact before pool.cell holds
      · cases held
    · exact within index late process held
  · rw [after, Option.mem_def, List.getElem?_append] at held
    split at held
    · exact within index late process held
    · rw [List.mem_singleton.mp (List.mem_of_getElem? held)]
      exact calls call
  · rw [after] at held
    exact within index late process held

/-- The processes that start during a run end with the post-condition, if the cell is good at every move. -/
theorem Pool.within_run (calls : ∀ call, Within good ends (code call)) (pool : Pool Label Cell A)
    (moves : List (PoolMove Call)) (holds : Run.Along (Pool.step code) (fun pool _ => good pool.cell) pool moves)
    (index : Nat) (late : pool.processes.length ≤ index) (process : Process Label Cell A)
    (held : (Run.final (Pool.step code) pool moves).processes[index]? = some process) :
    Within good ends process.program := by
  have keeps : ∀ (pool' : Pool Label Cell A) (move : PoolMove Call),
      (∀ index, pool.processes.length ≤ index → ∀ process ∈ pool'.processes[index]?, Within good ends process.program) →
      good pool'.cell → ∀ index, pool.processes.length ≤ index →
      ∀ process ∈ (pool'.step code move).1.processes[index]?, Within good ends process.program :=
    fun pool' move within now => pool'.within_step calls _ move now within
  refine Run.Along.invariant keeps ?_ holds index late process held
  intro index late process held
  rw [List.getElem?_eq_none late] at held
  cases held

end Pools

end Program
