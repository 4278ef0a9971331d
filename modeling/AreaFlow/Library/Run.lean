import Mathlib.Tactic

namespace Run

variable {State Input Output : Type} (step : State → Input → State × Output)

/-- This is the state after a list of inputs. -/
def final : State → List Input → State
  | state, [] => state
  | state, input :: rest => final (step state input).1 rest

/-- A condition on a state and an input holds at every step of a run. -/
def Along (condition : State → Input → Prop) : State → List Input → Prop
  | _, [] => True
  | state, input :: rest => condition state input ∧ Along condition (step state input).1 rest

instance decidableAlong (condition : State → Input → Prop) [∀ state input, Decidable (condition state input)] :
    (state : State) → (inputs : List Input) → Decidable (Along step condition state inputs)
  | _, [] => instDecidableTrue
  | state, input :: rest => @instDecidableAnd _ _ _ (decidableAlong condition (step state input).1 rest)

variable {step}

theorem final_append (state : State) (first second : List Input) :
    final step state (first ++ second) = final step (final step state first) second := by
  induction first generalizing state with
  | nil => rfl
  | cons input rest ih => exact ih _

/-- These are the inputs of a run with their outputs. -/
def trace (step : State → Input → State × Output) : State → List Input → List (Input × Output)
  | _, [] => []
  | state, input :: rest => (input, (step state input).2) :: trace step (step state input).1 rest

variable {condition first second : State → Input → Prop} {good : State → Prop}

/-- A condition along a run holds along its two parts. -/
theorem Along.append {state : State} {first second : List Input} :
    Along step condition state (first ++ second) ↔
      Along step condition state first ∧ Along step condition (final step state first) second := by
  induction first generalizing state with
  | nil => exact (true_and _).symm.to_iff
  | cons input rest ih =>
      rw [List.cons_append, Along, Along, ih, and_assoc]
      rfl

/-- A condition that holds of every step holds along every run. -/
theorem Along.always (holds : ∀ state input, condition state input) (state : State)
    (inputs : List Input) : Along step condition state inputs := by
  induction inputs generalizing state with
  | nil => exact trivial
  | cons input rest ih => exact ⟨holds state input, ih _⟩

/-- A condition along a run implies every weaker one. -/
theorem Along.mono (weakens : ∀ state input, first state input → second state input)
    {state : State} {inputs : List Input} (along : Along step first state inputs) : Along step second state inputs := by
  induction inputs generalizing state with
  | nil => exact trivial
  | cons input rest ih => exact ⟨weakens state input along.1, ih along.2⟩

/-- Conditions that agree at every step agree along every run. -/
theorem Along.congr (same : ∀ state input, first state input ↔ second state input) (state : State) (inputs : List Input) :
    Along step first state inputs ↔ Along step second state inputs :=
  ⟨Along.mono fun state input => (same state input).mp, Along.mono fun state input => (same state input).mpr⟩

/-- Conditions that agree under a third one agree along every run that meets it. -/
theorem Along.congr_under (same : ∀ state input, condition state input → (first state input ↔ second state input))
    {state : State} {inputs : List Input} (guarded : Along step condition state inputs) :
    Along step first state inputs ↔ Along step second state inputs := by
  induction inputs generalizing state with
  | nil => rfl
  | cons input rest ih => exact and_congr (same state input guarded.1) (ih guarded.2)

/-- An invariant that every allowed step keeps holds after a run of allowed steps. -/
theorem Along.invariant (keeps : ∀ state input, good state → condition state input → good (step state input).1)
    {state : State} {inputs : List Input} (initial : good state)
    (allowed : Along step condition state inputs) : good (final step state inputs) := by
  induction inputs generalizing state with
  | nil => exact initial
  | cons input rest ih => exact ih (keeps state input initial allowed.1) allowed.2

/-- An invariant that every step keeps holds after every run. -/
theorem final_invariant (keeps : ∀ state input, good state → good (step state input).1)
    {state : State} (initial : good state) (inputs : List Input) : good (final step state inputs) := by
  have always : Along step (fun _ _ => True) state inputs := Along.always (fun _ _ => trivial) state inputs
  exact Along.invariant (fun state input holds _ => keeps state input holds) initial always

/-- Such an invariant holds before every step of the run. -/
theorem Along.holds (keeps : ∀ state input, good state → condition state input → good (step state input).1)
    {state : State} {inputs : List Input} (initial : good state)
    (allowed : Along step condition state inputs) : Along step (fun state _ => good state) state inputs := by
  induction inputs generalizing state with
  | nil => exact trivial
  | cons input rest ih => exact ⟨initial, ih (keeps state input initial allowed.1) allowed.2⟩

end Run
