import Mathlib.Tactic

/-- A transaction reads and changes a store, and it acts on a host. It ends with an answer and a changed store,
or with an error; the host keeps what was done to it in both cases. -/
def Tx (Host Store Error Answer : Type) : Type := Host → Store → Host × Except Error (Answer × Store)

namespace Tx

variable {Host Store Error A B : Type}

instance : Monad (Tx Host Store Error) where
  pure answer := fun host store => (host, .ok (answer, store))
  bind tx next := fun host store =>
    match tx host store with
    | (host', .error failure) => (host', .error failure)
    | (host', .ok (answer, after)) => next answer host' after

/-- This transaction fails. -/
def fail (failure : Error) : Tx Host Store Error A := fun host _ => (host, .error failure)

/-- This transaction answers a query. -/
def query (read : Store → A) : Tx Host Store Error A := fun host store => (host, .ok (read store, store))

/-- This transaction answers a query that may fail. -/
def check (read : Store → Except Error A) : Tx Host Store Error A := fun host store =>
  match read store with
  | .error failure => (host, .error failure)
  | .ok answer => (host, .ok (answer, store))

/-- This transaction changes the store and answers with what the change returns. -/
def write (change : Store → A × Store) : Tx Host Store Error A := fun host store => (host, .ok (change store))

/-- This transaction acts on the host; its failure rolls the store back. -/
def act (action : Host → Host × Except Error A) : Tx Host Store Error A := fun host store =>
  match action host with
  | (host', .error failure) => (host', .error failure)
  | (host', .ok answer) => (host', .ok (answer, store))

/-- This transaction runs another one if a condition holds. -/
def when (condition : Bool) (tx : Tx Host Store Error Unit) : Tx Host Store Error Unit :=
  if condition then tx else pure ()

/-- This transaction undoes something on the host when its body fails. -/
def onFailure (undo : Host → Host) (tx : Tx Host Store Error A) : Tx Host Store Error A := fun host store =>
  match tx host store with
  | (host', .error failure) => (undo host', .error failure)
  | done => done

/-- This transaction runs another one for every element of a list. -/
def forEach (body : B → Tx Host Store Error Unit) : List B → Tx Host Store Error Unit
  | [] => pure ()
  | first :: rest => do
      body first
      forEach body rest

/-- A transaction on a part of the store is one on the store. -/
def within {Part : Type} (read : Store → Part) (put : Part → Store → Store) (tx : Tx Host Part Error A) :
    Tx Host Store Error A := fun host store =>
  match tx host (read store) with
  | (host', .error failure) => (host', .error failure)
  | (host', .ok (answer, part)) => (host', .ok (answer, put part store))

/-- A transaction that ends with an answer is committed; an error rolls the store back. -/
def commit (tx : Tx Host Store Error A) (host : Host) (store : Store) : (Host × Store) × Except Error A :=
  match tx host store with
  | (host', .error failure) => ((host', store), .error failure)
  | (host', .ok (answer, after)) => ((host', after), .ok answer)

/-- From every store with a property, a transaction that ends with an answer leaves a store with another property. -/
def Meets (before : Store → Prop) (tx : Tx Host Store Error A) (after : A → Store → Prop) : Prop :=
  ∀ host store host' answer store', before store → tx host store = (host', .ok (answer, store')) → after answer store'

/-- A transaction keeps a property of the store. -/
def Keeps (invariant : Store → Prop) (tx : Tx Host Store Error A) : Prop := Meets invariant tx fun _ => invariant

variable {before before' invariant : Store → Prop} {tx : Tx Host Store Error A} {after after' : A → Store → Prop}

/-- A sequence of two transactions ends with an answer only if both do. -/
theorem bind_apply (tx : Tx Host Store Error A) (next : A → Tx Host Store Error B) (host : Host) (store : Store) :
    (tx >>= next) host store =
      match tx host store with
      | (host', .error failure) => (host', .error failure)
      | (host', .ok (answer, after)) => next answer host' after := rfl

/-- A sequence that ends with an answer has both its parts end with one. -/
theorem bind_done {tx : Tx Host Store Error A} {next : A → Tx Host Store Error B} {host host' : Host} {store store' : Store}
    {answer : B} (done : (tx >>= next) host store = (host', .ok (answer, store'))) :
    ∃ middle value between, tx host store = (middle, .ok (value, between)) ∧
      next value middle between = (host', .ok (answer, store')) := by
  rw [bind_apply] at done
  generalize tx host store = first at done ⊢
  obtain ⟨middle, outcome⟩ := first
  cases outcome with
  | error failure => cases done
  | ok pair => exact ⟨middle, pair.1, pair.2, rfl, done⟩

/-- A query that is answered hands its answer over. -/
theorem check_bind_ok {read : Store → Except Error A} {store : Store} {answer : A} (done : read store = .ok answer)
    (next : A → Tx Host Store Error B) (host : Host) : (check read >>= next) host store = next answer host store := by
  rw [bind_apply]
  unfold check
  rw [done]

/-- A query that fails ends its transaction. -/
theorem check_bind_error {read : Store → Except Error A} {store : Store} {failure : Error}
    (failed : read store = .error failure) (next : A → Tx Host Store Error B) (host : Host) :
    (check read >>= next) host store = (host, .error failure) := by
  rw [bind_apply]
  unfold check
  rw [failed]

theorem Meets.bind {next : A → Tx Host Store Error B} {final : B → Store → Prop} (first : Meets before tx after)
    (second : ∀ answer, Meets (after answer) (next answer) final) : Meets before (tx >>= next) final := by
  intro host store host' answer store' holds run
  rw [bind_apply] at run
  split at run
  · cases run
  · rename_i middle value between ran
    exact second value middle between host' answer store' (first host store middle value between holds ran) run

/-- The property before a transaction may be stronger, and the one after it weaker. -/
theorem Meets.consequence (main : Meets before' tx after') (strong : ∀ store, before store → before' store)
    (weak : ∀ answer store, after' answer store → after answer store) : Meets before tx after := by
  intro host store host' answer store' holds run
  exact weak answer store' (main host store host' answer store' (strong store holds) run)

/-- A fact that does not depend on the store is an assumption. -/
theorem Meets.assuming {fact : Prop} (main : fact → Meets before tx after) :
    Meets (fun store => fact ∧ before store) tx after := by
  intro host store host' answer store' holds run
  exact main holds.1 host store host' answer store' holds.2 run

/-- A choice that was made before may be named. -/
theorem Meets.choosing {C : Type} {choice : C → Store → Prop} (main : ∀ chosen, Meets (choice chosen) tx after) :
    Meets (fun store => ∃ chosen, choice chosen store) tx after := by
  intro host store host' answer store' holds run
  obtain ⟨chosen, given⟩ := holds
  exact main chosen host store host' answer store' given run

theorem Meets.pure {value : A} (holds : ∀ store, before store → after value store) :
    Meets before (pure value : Tx Host Store Error A) after := by
  intro host store host' answer store' given run
  cases run
  exact holds store given

theorem Meets.fail {failure : Error} : Meets before (Tx.fail failure : Tx Host Store Error A) after := by
  intro host store host' answer store' given run
  cases run

theorem Meets.query {read : Store → A} (holds : ∀ store, before store → after (read store) store) :
    Meets before (Tx.query read : Tx Host Store Error A) after := by
  intro host store host' answer store' given run
  cases run
  exact holds store given

theorem Meets.check {read : Store → Except Error A}
    (holds : ∀ store answer, before store → read store = .ok answer → after answer store) :
    Meets before (Tx.check read : Tx Host Store Error A) after := by
  intro host store host' answer store' given run
  unfold Tx.check at run
  split at run
  · cases run
  · rename_i found
    cases run
    exact holds store answer given found

theorem Meets.write {change : Store → A × Store}
    (holds : ∀ store, before store → after (change store).1 (change store).2) :
    Meets before (Tx.write change : Tx Host Store Error A) after := by
  intro host store host' answer store' given run
  have same : change store = (answer, store') := Except.ok.inj (Prod.mk.inj run).2
  have kept := holds store given
  rwa [same] at kept

/-- A property that the body brings about or that was there before holds after a commit or a rollback. -/
theorem Meets.commit {final : Store → Prop} (main : Meets before tx fun _ => final)
    (weak : ∀ store, before store → final store) (host : Host) {store : Store} (holds : before store) :
    final (tx.commit host store).1.2 := by
  unfold Tx.commit
  split
  · exact weak store holds
  · rename_i host' answer store' run
    exact main host store host' answer store' holds run

/-- A committed transaction ends with what its body brings about. -/
theorem Meets.committed (main : Meets before tx after) {host : Host} {store : Store} (holds : before store) {answer : A}
    (answered : (tx.commit host store).2 = .ok answer) : after answer (tx.commit host store).1.2 := by
  unfold Tx.commit at answered ⊢
  split at answered
  · cases answered
  · rename_i host' value store' run
    have same : value = answer := Except.ok.inj answered
    subst same
    exact main host store host' value store' holds run

/-- A loop whose rounds each append one row to a table appends a row for every element. -/
theorem forEach_appends {Row : Type} {body : B → Tx Host Store Error Unit} (read : Store → List Row) (fits : B → Row → Prop)
    (frame : Store → Store → Prop) (stays : ∀ store, frame store store)
    (joins : ∀ first second third, frame first second → frame second third → frame first third)
    (round : ∀ element host store host' store', body element host store = (host', .ok ((), store')) →
      ∃ row, read store' = read store ++ [row] ∧ fits element row ∧ frame store store')
    {list : List B} {host host' : Host} {store store' : Store}
    (run : forEach body list host store = (host', .ok ((), store'))) :
    ∃ rows, read store' = read store ++ rows ∧ List.Forall₂ fits list rows ∧ frame store store' := by
  induction list generalizing host store with
  | nil =>
      cases run
      exact ⟨[], by simp, .nil, stays _⟩
  | cons element rest ih =>
      rw [forEach, bind_apply] at run
      split at run
      · cases run
      · rename_i middle answer between ran
        obtain ⟨row, appended, fit, kept⟩ := round element host store middle between ran
        obtain ⟨rows, more, all, later⟩ := ih run
        exact ⟨row :: rows, by rw [more, appended]; simp, .cons fit all, joins _ _ _ kept later⟩

/-- From every store with a property, a transaction ends with an answer and leaves a store with another property. -/
def Ends (before : Store → Prop) (tx : Tx Host Store Error A) (after : A → Store → Prop) : Prop :=
  ∀ host store, before store →
    ∃ host' answer store', tx host store = (host', .ok (answer, store')) ∧ after answer store'

/-- A transaction always ends with an answer. -/
class Always (tx : Tx Host Store Error A) : Prop where
  always : Ends (fun _ => True) tx fun _ _ => True

section Ends

theorem Ends.bind {next : A → Tx Host Store Error B} {final : B → Store → Prop} (first : Ends before tx after)
    (second : ∀ answer, Ends (after answer) (next answer) final) : Ends before (tx >>= next) final := by
  intro host store holds
  obtain ⟨host', answer, store', run, between⟩ := first host store holds
  obtain ⟨host'', answer', store'', rest, done⟩ := second answer host' store' between
  refine ⟨host'', answer', store'', ?_, done⟩
  rw [bind_apply, run]
  exact rest

/-- What a transaction meets holds at its end, if it ends. -/
theorem Meets.ends (main : Meets before tx after) (ends : Ends before tx fun _ _ => True) : Ends before tx after := by
  intro host store holds
  obtain ⟨host', answer, store', run, _⟩ := ends host store holds
  exact ⟨host', answer, store', run, main host store host' answer store' holds run⟩

theorem Always.ends [Always tx] : Ends before tx fun _ _ => True :=
  fun host store _ => Always.always host store trivial

/-- A transaction that always ends does what it meets. -/
theorem Meets.always [Always tx] (main : Meets before tx after) : Ends before tx after :=
  main.ends Always.ends

theorem Ends.assuming {fact : Prop} (main : fact → Ends before tx after) :
    Ends (fun store => fact ∧ before store) tx after :=
  fun host store holds => main holds.1 host store holds.2

theorem Ends.check {read : Store → Except Error A} (holds : ∀ store, before store → ∃ answer, read store = .ok answer) :
    Ends before (Tx.check read : Tx Host Store Error A) fun _ _ => True := by
  intro host store given
  obtain ⟨answer, found⟩ := holds store given
  refine ⟨host, answer, store, ?_, trivial⟩
  unfold Tx.check
  rw [found]

/-- A transaction that ends is committed. -/
theorem Ends.commit (main : Ends before tx after) (host : Host) {store : Store} (holds : before store) :
    ∃ answer, after answer (tx.commit host store).1.2 := by
  obtain ⟨host', answer, store', run, done⟩ := main host store holds
  unfold Tx.commit
  rw [run]
  exact ⟨answer, done⟩

instance {value : A} : Always (Pure.pure value : Tx Host Store Error A) where
  always host store _ := ⟨host, value, store, rfl, trivial⟩

instance {read : Store → A} : Always (Tx.query read : Tx Host Store Error A) where
  always host store _ := ⟨host, read store, store, rfl, trivial⟩

instance {change : Store → A × Store} : Always (Tx.write change : Tx Host Store Error A) where
  always host store _ := ⟨host, (change store).1, (change store).2, rfl, trivial⟩

instance {next : A → Tx Host Store Error B} [Always tx] [∀ answer, Always (next answer)] : Always (tx >>= next) where
  always := Ends.bind Always.always fun _ => Always.ends

instance {body : B → Tx Host Store Error Unit} [∀ element, Always (body element)] (list : List B) :
    Always (Tx.forEach body list) := by
  induction list with
  | nil =>
      unfold Tx.forEach
      infer_instance
  | cons first rest ih =>
      unfold Tx.forEach
      infer_instance

end Ends

/-- A transaction that ends with an answer relates the store before it to the store after it. The instances below
derive this for a transaction from its steps. -/
class Moves (relation : Store → Store → Prop) (tx : Tx Host Store Error A) : Prop where
  moves : ∀ host store host' answer store', tx host store = (host', .ok (answer, store')) → relation store store'

section Moves

variable {relation : Store → Store → Prop}

theorem Moves.write {change : Store → A × Store} (step : ∀ store, relation store (change store).2) :
    Moves relation (Tx.write change : Tx Host Store Error A) where
  moves := by
    intro host store host' answer store' run
    have same : change store = (answer, store') := Except.ok.inj (Prod.mk.inj run).2
    have moved := step store
    rwa [same] at moved

/-- A property that the relation carries along is kept. -/
theorem Moves.keeps [Moves relation tx] (carries : ∀ store store', relation store store' → invariant store → invariant store') :
    Keeps invariant tx := by
  intro host store host' answer store' holds run
  exact carries store store' (Moves.moves host store host' answer store' run) holds

/-- A property that two relations carry along together is kept. -/
theorem Moves.keepsBoth {other : Store → Store → Prop} [Moves relation tx] [Moves other tx]
    (carries : ∀ store store', relation store store' → other store store' → invariant store → invariant store') :
    Keeps invariant tx := by
  intro host store host' answer store' holds run
  have first : relation store store' := Moves.moves host store host' answer store' run
  have second : other store store' := Moves.moves host store host' answer store' run
  exact carries store store' first second holds

instance {failure : Error} : Moves relation (Tx.fail failure : Tx Host Store Error A) where
  moves := by
    intro host store host' answer store' run
    cases run

instance {condition : Prop} [Decidable condition] {first second : Tx Host Store Error A} [Moves relation first]
    [Moves relation second] : Moves relation (if condition then first else second) := by
  split
  · infer_instance
  · infer_instance

instance {undo : Host → Host} [Moves relation tx] : Moves relation (tx.onFailure undo) where
  moves := by
    intro host store host' answer store' run
    unfold Tx.onFailure at run
    split at run
    · cases run
    · exact Moves.moves host store host' answer store' run

variable [IsPreorder Store relation]

instance {value : A} : Moves relation (Pure.pure value : Tx Host Store Error A) where
  moves := by
    intro host store host' answer store' run
    cases run
    exact refl store

instance {read : Store → A} : Moves relation (Tx.query read : Tx Host Store Error A) where
  moves := by
    intro host store host' answer store' run
    cases run
    exact refl store

instance {read : Store → Except Error A} : Moves relation (Tx.check read : Tx Host Store Error A) where
  moves := by
    intro host store host' answer store' run
    unfold Tx.check at run
    split at run
    · cases run
    · cases run
      exact refl store

instance {action : Host → Host × Except Error A} : Moves relation (Tx.act action : Tx Host Store Error A) where
  moves := by
    intro host store host' answer store' run
    unfold Tx.act at run
    split at run
    · cases run
    · cases run
      exact refl store

/-- A committed or rolled back transaction relates the store before it to the store after it. -/
theorem Moves.commit [Moves relation tx] (host : Host) (store : Store) : relation store (tx.commit host store).1.2 := by
  unfold Tx.commit
  split
  · exact refl store
  · rename_i host' answer store' run
    exact Moves.moves host store host' answer store' run

theorem Moves.bind {next : A → Tx Host Store Error B} (first : Moves relation tx)
    (second : ∀ answer, Moves relation (next answer)) : Moves relation (tx >>= next) where
  moves := by
    intro host store host' answer store' run
    rw [bind_apply] at run
    split at run
    · cases run
    · rename_i middle value between ran
      have before : relation store between := first.moves host store middle value between ran
      have after : relation between store' := (second value).moves middle between host' answer store' run
      exact Trans.trans before after

instance {next : A → Tx Host Store Error B} [Moves relation tx] [∀ answer, Moves relation (next answer)] :
    Moves relation (tx >>= next) :=
  Moves.bind inferInstance inferInstance

instance {condition : Bool} {tx : Tx Host Store Error Unit} [Moves relation tx] : Moves relation (tx.when condition) := by
  unfold Tx.when
  infer_instance

instance {body : B → Tx Host Store Error Unit} [∀ element, Moves relation (body element)] (list : List B) :
    Moves relation (Tx.forEach body list) := by
  induction list with
  | nil =>
      unfold Tx.forEach
      infer_instance
  | cons first rest ih =>
      unfold Tx.forEach
      infer_instance

end Moves

end Tx

namespace Except

variable {E F A B : Type}

/-- A sequence of two parts succeeds only if both do. -/
theorem bind_ok {first : Except E A} {next : A → Except E B} {answer : B} (done : first >>= next = .ok answer) :
    ∃ found, first = .ok found ∧ next found = .ok answer := by
  cases first with
  | error failure => cases done
  | ok found => exact ⟨found, rfl, done⟩

/-- A success is not touched by a new text for the error. -/
theorem mapError_ok {attempt : Except E A} {text : E → F} {answer : A} (done : attempt.mapError text = .ok answer) :
    attempt = .ok answer := by
  cases attempt with
  | error failure => cases done
  | ok found => exact congrArg Except.ok (Except.ok.inj done)

/-- A result that is not lost is an answer. -/
theorem ok_of_toOption {attempt : Except E A} {answer : A} (kept : attempt.toOption = some answer) :
    attempt = .ok answer := by
  cases attempt with
  | error failure => cases kept
  | ok value =>
      cases kept
      rfl

end Except
