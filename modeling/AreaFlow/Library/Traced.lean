import Mathlib.Tactic

/-- A computation leaves marks on its way to an answer or an error. -/
structure Traced (Mark E A : Type) where
  marks : List Mark
  outcome : Except E A

namespace Traced

variable {Mark E A B : Type}

def andThen (first : Traced Mark E A) (next : A → Traced Mark E B) : Traced Mark E B :=
  match first.outcome with
  | .error failure => ⟨first.marks, .error failure⟩
  | .ok answer => ⟨first.marks ++ (next answer).marks, (next answer).outcome⟩

instance : Monad (Traced Mark E) where
  pure answer := ⟨[], .ok answer⟩
  bind := andThen

/-- This computation leaves one mark. -/
def leave (mark : Mark) (outcome : Except E A) : Traced Mark E A := ⟨[mark], outcome⟩

def fail (failure : E) : Traced Mark E A := ⟨[], .error failure⟩

/-- An error becomes a missing answer; its marks stay. -/
def attempt (first : Traced Mark E A) : Traced Mark E (Option A) := ⟨first.marks, .ok first.outcome.toOption⟩

/-- This computation is run on every element of a list. -/
def mapEach (body : A → Traced Mark E B) : List A → Traced Mark E (List B)
  | [] => pure []
  | element :: rest => do
      let answer ← body element
      let answers ← mapEach body rest
      pure (answer :: answers)

@[simp] theorem marks_pure (answer : A) : (pure answer : Traced Mark E A).marks = [] := rfl

@[simp] theorem outcome_pure (answer : A) : (pure answer : Traced Mark E A).outcome = .ok answer := rfl

@[simp] theorem marks_leave (mark : Mark) (outcome : Except E A) : (leave mark outcome).marks = [mark] := rfl

@[simp] theorem outcome_leave (mark : Mark) (outcome : Except E A) : (leave mark outcome).outcome = outcome := rfl

@[simp] theorem marks_attempt (first : Traced Mark E A) : first.attempt.marks = first.marks := rfl

@[simp] theorem outcome_attempt (first : Traced Mark E A) : first.attempt.outcome = .ok first.outcome.toOption := rfl

variable {first : Traced Mark E A} {next : A → Traced Mark E B}

/-- The marks of a sequence are those of its first part and, if that part has an answer, those of the rest. -/
theorem forall_marks_bind {P : Mark → Prop} :
    (∀ mark ∈ (first >>= next).marks, P mark) ↔
      (∀ mark ∈ first.marks, P mark) ∧ ∀ answer, first.outcome = .ok answer → ∀ mark ∈ (next answer).marks, P mark := by
  change (∀ mark ∈ (first.andThen next).marks, P mark) ↔ _
  unfold andThen
  cases first.outcome with
  | error failure => simp
  | ok answer => simp [or_imp, forall_and]

theorem bind_ok {answer : B} (done : (first >>= next).outcome = .ok answer) :
    ∃ middle, first.outcome = .ok middle ∧ (next middle).outcome = .ok answer := by
  change (first.andThen next).outcome = .ok answer at done
  unfold andThen at done
  cases found : first.outcome with
  | error failure =>
      rw [found] at done
      cases done
  | ok middle =>
      rw [found] at done
      exact ⟨middle, rfl, done⟩

/-- A list is worked through as long as its elements have answers. -/
theorem forall_marks_mapEach {P : Mark → Prop} {body : A → Traced Mark E B} {list : List A} :
    (∀ mark ∈ (mapEach body list).marks, P mark) ↔
      ∀ before element after, list = before ++ element :: after →
        (∀ earlier ∈ before, ∃ answer, (body earlier).outcome = .ok answer) → ∀ mark ∈ (body element).marks, P mark := by
  induction list with
  | nil => simp [mapEach]
  | cons first rest ih =>
      have step : (∀ mark ∈ (mapEach body (first :: rest)).marks, P mark) ↔ (∀ mark ∈ (body first).marks, P mark) ∧
          ∀ answer, (body first).outcome = .ok answer → ∀ mark ∈ (mapEach body rest).marks, P mark := by
        rw [mapEach, forall_marks_bind]
        apply and_congr_right'
        apply forall₂_congr
        intro answer _
        rw [forall_marks_bind]
        simp
      rw [step, ih]
      constructor
      · rintro ⟨here, later⟩ before element after split earlier
        cases before with
        | nil =>
            cases split
            exact here
        | cons other before =>
            cases split
            obtain ⟨answer, done⟩ := earlier first List.mem_cons_self
            exact later answer done before element after rfl fun other member => earlier other (List.mem_cons_of_mem _ member)
      · intro all
        refine ⟨all [] first rest rfl (by simp), ?_⟩
        intro answer done before element after split earlier
        apply all (first :: before) element after (by rw [split, List.cons_append])
        intro other member
        rcases List.mem_cons.mp member with rfl | member
        · exact ⟨answer, done⟩
        · exact earlier other member

theorem bind_eq_ok {middle : A} {answer : B} (done : first.outcome = .ok middle) (rest : (next middle).outcome = .ok answer) :
    (first >>= next).outcome = .ok answer := by
  change (first.andThen next).outcome = .ok answer
  unfold andThen
  rw [done]
  exact rest

theorem mapEach_answers {body : A → Traced Mark E B} {list : List A}
    (each : ∀ element ∈ list, ∃ answer, (body element).outcome = .ok answer) :
    ∃ answers, (mapEach body list).outcome = .ok answers := by
  induction list with
  | nil => exact ⟨[], rfl⟩
  | cons element rest ih =>
      obtain ⟨answer, done⟩ := each element List.mem_cons_self
      obtain ⟨answers, finished⟩ := ih fun other member => each other (List.mem_cons_of_mem _ member)
      exact ⟨answer :: answers, bind_eq_ok done (bind_eq_ok finished rfl)⟩

end Traced
