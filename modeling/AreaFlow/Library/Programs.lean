import Mathlib.Tactic

/-- A program makes a finite number of accesses to a shared cell. An access reads the cell and leaves a new value in it in
one step; the rest of the program depends on what was read. -/
inductive Program (Label Cell A : Type) where
  | done (answer : A)
  | access (label : Label) (action : Cell → Cell) (next : Cell → Program Label Cell A)

namespace Program

variable {Label Cell A B : Type}

/-- This program runs another one and goes on with its answer. -/
def andThen : Program Label Cell A → (A → Program Label Cell B) → Program Label Cell B
  | done answer, next => next answer
  | access label action rest, next => access label action fun found => (rest found).andThen next

instance : Monad (Program Label Cell) where
  pure := done
  bind := andThen

/-- This program reads the cell. -/
def read (label : Label) (answer : Cell → A) : Program Label Cell A := access label id fun found => done (answer found)

/-- This program changes the cell and answers with what it found. -/
def change (label : Label) (action : Cell → Cell) (answer : Cell → A) : Program Label Cell A :=
  access label action fun found => done (answer found)

/-- This is a program that runs alone. -/
def run : Program Label Cell A → Cell → A × Cell
  | done answer, cell => (answer, cell)
  | access _ action next, cell => (next cell).run (action cell)

@[simp] theorem run_bind (program : Program Label Cell A) (next : A → Program Label Cell B) (cell : Cell) :
    (program >>= next).run cell = (next (program.run cell).1).run (program.run cell).2 := by
  induction program generalizing cell with
  | done answer => rfl
  | access label action rest ih => exact ih cell (action cell)

/-- A part that may fail goes on only if it does not. -/
theorem run_attempt {E : Type} (part : ExceptT E (Program Label Cell) A) (rest : A → ExceptT E (Program Label Cell) B)
    (cell : Cell) :
    (part >>= rest).run.run cell =
      match part.run.run cell with
      | (.ok answer, left) => (rest answer).run.run left
      | (.error failure, left) => (.error failure, left) := by
  rw [ExceptT.run_bind, run_bind]
  rcases part.run.run cell with ⟨_ | _, left⟩ <;> rfl

/-- This is the label of the next access. -/
def upcoming : Program Label Cell A → Option Label
  | done _ => none
  | access label _ _ => some label

end Program
