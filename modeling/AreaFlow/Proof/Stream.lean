import AreaFlow.Construction.Project.EventStream

namespace AreaFlow.Project
open Go

section Rounds

variable {stream : EventStream} {event : EventRow}

/-- The committed events in the scope of a stream. -/
def EventStream.scope (stream : EventStream) : List EventRow := stream.committed.rows.filter stream.filter.matches

/-- The client has received growing identifiers up to the cursor, and a client without a cursor has received nothing. -/
structure Ordered (stream : EventStream) : Prop where
  growing : Cursor.Growing (·.id) stream.received
  behind : ∀ event ∈ stream.received, event.id ≤ stream.filter.afterID
  started : stream.filter.afterID ≤ 0 → stream.received = []
  positive : ∀ event ∈ stream.scope, 0 < event.id

theorem scope_distinct : (stream.scope.map (·.id)).Nodup :=
  (List.Sublist.map _ List.filter_sublist).nodup stream.committed.distinct

/-- One round delivers growing identifiers after the cursor. -/
theorem listEventStream_growing (ordered : Ordered stream) :
    Cursor.Growing (·.id) (listEventStream stream.filter stream.committed.rows) ∧
      ∀ event ∈ listEventStream stream.filter stream.committed.rows, event ∈ stream.scope ∧
        stream.filter.afterID < event.id := by
  unfold listEventStream
  split
  · exact ⟨Cursor.batch_growing scope_distinct, fun event member => Cursor.mem_batch member⟩
  · rename_i unset
    refine ⟨Cursor.latest_growing scope_distinct, fun event member => ?_⟩
    have inScope : event ∈ stream.scope := Cursor.mem_latest member
    exact ⟨inScope, lt_of_le_of_lt (not_lt.mp unset) (ordered.positive event inScope)⟩

theorem Ordered.poll (ordered : Ordered stream) : Ordered stream.poll := by
  obtain ⟨growing, ahead⟩ := listEventStream_growing ordered
  obtain ⟨low, high⟩ := Cursor.le_advance growing fun event member => (ahead event member).2
  refine ⟨?_, ?_, ?_, ordered.positive⟩
  · refine List.pairwise_append.mpr ⟨ordered.growing, growing, fun first old second new => ?_⟩
    exact lt_of_le_of_lt (ordered.behind first old) (ahead second new).2
  · intro event member
    rcases List.mem_append.mp member with old | new
    · exact le_trans (ordered.behind event old) low
    · exact high event new
  · intro unset
    have none : listEventStream stream.filter stream.committed.rows = [] := by
      rw [List.eq_nil_iff_forall_not_mem]
      intro event member
      have positive := ordered.positive event (ahead event member).1
      have bound := high event member
      exact absurd (lt_of_lt_of_le positive bound) (not_lt.mpr unset)
    have start : stream.received = [] := ordered.started (le_trans low unset)
    show stream.received ++ listEventStream stream.filter stream.committed.rows = []
    rw [start, none, List.append_nil]

/-- A commit is timely if the cursor has not passed its event. A round is timely if there is a cursor, or if its limit is
enough for all events in the scope. -/
def Timely (stream : EventStream) : StreamMove → Prop
  | .commit event => stream.filter.matches event = true → 0 < event.id ∧ stream.filter.afterID < event.id
  | .poll => 0 < stream.filter.afterID ∨ stream.scope.length ≤ stream.filter.rows

theorem commit_filter : (stream.commit event).filter = stream.filter := by
  unfold EventStream.commit
  split <;> rfl

theorem commit_received : (stream.commit event).received = stream.received := by
  unfold EventStream.commit
  split <;> rfl

theorem mem_commit {other : EventRow} (member : other ∈ (stream.commit event).committed.rows) :
    other ∈ stream.committed.rows ∨ other = event := by
  unfold EventStream.commit at member
  split at member
  · exact Or.inl member
  · simpa using member

theorem commit_kept {other : EventRow} (member : other ∈ stream.committed.rows) :
    other ∈ (stream.commit event).committed.rows := by
  unfold EventStream.commit
  split
  · exact member
  · exact List.mem_append_left _ member

theorem Ordered.commit (ordered : Ordered stream) (timely : Timely stream (.commit event)) :
    Ordered (stream.commit event) where
  growing := by
    rw [commit_received]
    exact ordered.growing
  behind := by
    rw [commit_received, commit_filter]
    exact ordered.behind
  started := by
    rw [commit_received, commit_filter]
    exact ordered.started
  positive := by
    intro other member
    obtain ⟨stored, fits⟩ := List.mem_filter.mp member
    rw [commit_filter] at fits
    rcases mem_commit stored with old | rfl
    · exact ordered.positive other (List.mem_filter.mpr ⟨old, fits⟩)
    · exact (timely fits).1

/-- An event in the scope is received, or the cursor has not passed it. -/
def Expected (event : EventRow) (stream : EventStream) : Prop :=
  event ∈ stream.scope ∧ (event ∈ stream.received ∨ stream.filter.afterID < event.id)

theorem Expected.commit {other : EventRow} (expected : Expected event stream) : Expected event (stream.commit other) := by
  obtain ⟨inScope, position⟩ := expected
  obtain ⟨stored, fits⟩ := List.mem_filter.mp inScope
  refine ⟨List.mem_filter.mpr ⟨commit_kept stored, ?_⟩, ?_⟩
  · rwa [commit_filter]
  · rwa [commit_received, commit_filter]

/-- A round delivers an expected event or brings the cursor nearer to it. -/
theorem Expected.poll (ordered : Ordered stream) (timely : Timely stream .poll) (expected : Expected event stream) :
    event ∈ stream.poll.received ∨
      stream.filter.afterID < stream.poll.filter.afterID ∧ stream.poll.filter.afterID < event.id := by
  obtain ⟨inScope, received | after⟩ := expected
  · exact Or.inl (List.mem_append_left _ received)
  by_cases delivered : event ∈ listEventStream stream.filter stream.committed.rows
  · exact Or.inl (List.mem_append_right _ delivered)
  right
  have listed : listEventStream stream.filter stream.committed.rows =
      Cursor.batch (·.id) stream.filter.rows stream.filter.afterID stream.scope := by
    unfold listEventStream
    by_cases set : 0 < stream.filter.afterID
    · rw [if_pos set]
      rfl
    · rw [listEventStream, if_neg set] at delivered
      exact absurd (Cursor.mem_latest_of_few (timely.resolve_left set) inScope) delivered
  obtain ⟨growing, ahead⟩ := listEventStream_growing ordered
  rw [listed] at delivered
  obtain ⟨full, below⟩ := Cursor.batch_full scope_distinct inScope after delivered
  rw [← listed] at full below
  have some : 0 < stream.filter.rows := by
    unfold EventStreamFilter.rows
    split
    · decide
    · omega
  obtain ⟨first, member⟩ := List.exists_mem_of_length_pos (full ▸ some)
  obtain ⟨-, high⟩ := Cursor.le_advance growing fun event member => (ahead event member).2
  exact ⟨lt_of_lt_of_le (ahead first member).2 (high first member), Cursor.advance_lt after below⟩

end Rounds

section Runs

variable {stream : EventStream} {event : EventRow} {moves : List StreamMove}

/-- What was received stays received. -/
theorem received_kept (member : event ∈ stream.received) : event ∈ (Run.final EventStream.step stream moves).received := by
  induction moves generalizing stream with
  | nil => exact member
  | cons move rest ih =>
      cases move with
      | commit other => exact ih (show event ∈ (stream.commit other).received from commit_received.symm ▸ member)
      | poll => exact ih (List.mem_append_left _ member)

theorem Ordered.step {move : StreamMove} (ordered : Ordered stream) (timely : Timely stream move) :
    Ordered (stream.step move).1 := by
  cases move with
  | commit event => exact ordered.commit timely
  | poll => exact ordered.poll

/-- A timely run stays ordered. -/
theorem Ordered.run (ordered : Ordered stream) (timely : Run.Along EventStream.step Timely stream moves) :
    Ordered (Run.final EventStream.step stream moves) :=
  timely.invariant (fun _ _ kept allowed => kept.step allowed) ordered

/-- An expected event is received after enough rounds. -/
theorem Expected.received (ordered : Ordered stream) (expected : Expected event stream)
    (timely : Run.Along EventStream.step Timely stream moves)
    (enough : Cursor.gap stream.filter.afterID event.id ≤ moves.count .poll) :
    event ∈ (Run.final EventStream.step stream moves).received := by
  induction moves generalizing stream with
  | nil =>
      apply expected.2.resolve_right
      intro after
      exact absurd (Cursor.gap_pos after) (by simpa using enough)
  | cons move rest ih =>
      cases move with
      | commit other =>
          apply ih (ordered.commit timely.1) (expected.commit) timely.2
          show Cursor.gap (stream.commit other).filter.afterID event.id ≤ rest.count .poll
          rw [commit_filter]
          simpa using enough
      | poll =>
          rcases expected.poll ordered timely.1 with received | ⟨nearer, after⟩
          · have kept : event ∈ (Run.final EventStream.step stream.poll rest).received := received_kept received
            exact kept
          · apply ih ordered.poll ⟨expected.1, Or.inr after⟩ timely.2
            rw [List.count_cons_self] at enough
            show Cursor.gap stream.poll.filter.afterID event.id ≤ rest.count .poll
            have shorter := Cursor.gap_nearer nearer after
            omega

theorem Ordered.initial {filter : EventStreamFilter} {committed : Table EventRow (·.id)}
    (positive : ∀ event ∈ committed.rows, 0 < event.id) : Ordered (openEventStream filter committed) :=
  Ordered.poll
    { growing := List.Pairwise.nil
      behind := fun _ member => nomatch member
      started := fun _ => rfl
      positive := fun event member => positive event (List.mem_filter.mp member).1 }

/-- The scope of a stream does not change. -/
theorem matches_run : (Run.final EventStream.step stream moves).filter.matches event = stream.filter.matches event := by
  induction moves generalizing stream with
  | nil => rfl
  | cons move rest ih =>
      cases move with
      | commit other => exact ih.trans (by rw [EventStream.step, commit_filter])
      | poll => exact ih

theorem Expected.step {move : StreamMove} (ordered : Ordered stream) (expected : Expected event stream)
    (timely : Timely stream move) : Expected event (stream.step move).1 := by
  cases move with
  | commit other => exact expected.commit
  | poll => exact ⟨expected.1, (expected.poll ordered timely).imp_right fun nearer => nearer.2⟩

/-- An expected event stays expected. -/
theorem Expected.run (ordered : Ordered stream) (expected : Expected event stream)
    (timely : Run.Along EventStream.step Timely stream moves) :
    Expected event (Run.final EventStream.step stream moves) := by
  induction moves generalizing stream with
  | nil => exact expected
  | cons move rest ih => exact ih (ordered.step timely.1) (expected.step ordered timely.1) timely.2

/-- An event that is committed in time is expected. -/
theorem expected_of_commit (fresh : event.id ∉ stream.committed.rows.map (·.id))
    (fits : stream.filter.matches event = true) (timely : Timely stream (.commit event)) :
    Expected event (stream.commit event) := by
  refine ⟨List.mem_filter.mpr ⟨?_, ?_⟩, Or.inr ?_⟩
  · unfold EventStream.commit
    rw [dif_neg fresh]
    exact List.mem_append_right _ List.mem_cons_self
  · rwa [commit_filter]
  · rw [commit_filter]
    exact (timely fits).2

/-- In every timely run of a stream the client receives growing identifiers, and it receives every event in the scope that is
committed after the first round exactly once, as soon as enough rounds have followed. -/
theorem eventStream_receives {filter : EventStreamFilter} {committed : Table EventRow (·.id)}
    (positive : ∀ event ∈ committed.rows, 0 < event.id)
    (timely : Run.Along EventStream.step Timely (openEventStream filter committed) moves) :
    Cursor.Growing (·.id) (Run.final EventStream.step (openEventStream filter committed) moves).received ∧
      ∀ before event rest more, moves = before ++ .commit event :: rest → filter.matches event = true →
        event.id ∉ (Run.final EventStream.step (openEventStream filter committed) before).committed.rows.map (·.id) →
        Run.Along EventStream.step Timely (Run.final EventStream.step (openEventStream filter committed) moves) more →
        Cursor.gap (Run.final EventStream.step (openEventStream filter committed) moves).filter.afterID event.id ≤
          more.count .poll →
        (Run.final EventStream.step (openEventStream filter committed) (moves ++ more)).received.count event = 1 := by
  have initial : Ordered (openEventStream filter committed) := .initial positive
  have ordered := initial.run timely
  refine ⟨ordered.growing, ?_⟩
  rintro before event rest more rfl fits fresh later enough
  obtain ⟨first, atCommit, second⟩ := Run.Along.append.mp timely
  have reached := initial.run first
  have same : (Run.final EventStream.step (openEventStream filter committed) before).filter.matches event = true :=
    matches_run.trans fits
  have expected := (expected_of_commit fresh same atCommit).run (reached.commit atCommit) second
  have split : Run.final EventStream.step (openEventStream filter committed) (before ++ .commit event :: rest) =
      Run.final EventStream.step ((Run.final EventStream.step (openEventStream filter committed) before).commit event) rest :=
    Run.final_append _ _ _
  have received : event ∈ (Run.final EventStream.step
      (Run.final EventStream.step (openEventStream filter committed) (before ++ .commit event :: rest)) more).received := by
    rw [split] at ordered later enough ⊢
    exact expected.received ordered later enough
  have nodup : (Run.final EventStream.step
      (Run.final EventStream.step (openEventStream filter committed) (before ++ .commit event :: rest)) more).received.Nodup :=
    (ordered.run later).growing.imp fun lower same => absurd (congrArg (·.id) same) (ne_of_lt lower)
  rw [Run.final_append]
  exact List.count_eq_one_of_mem nodup received

end Runs

section Gaps

/-- This is an event of no project. -/
def plainEvent (id : ID) : EventRow :=
  { id := id, projectID := none, runID := none, versionID := none, eventType := [], severity := [], message := []
    metadata := [] }

/-- Two events are committed in the order of their identifiers, and both are received. -/
theorem inOrder_received :
    Run.Along EventStream.step Timely (openEventStream {} {}) [.commit (plainEvent 1), .commit (plainEvent 2)] ∧
      (Run.final EventStream.step (openEventStream {} {})
        ([.commit (plainEvent 1), .commit (plainEvent 2)] ++ [.poll, .poll])).received.count (plainEvent 2) = 1 := by
  have timely : Run.Along EventStream.step Timely (openEventStream {} {})
      [.commit (plainEvent 1), .commit (plainEvent 2)] := ⟨fun _ => by decide, fun _ => by decide, trivial⟩
  exact ⟨timely, (eventStream_receives (by decide) timely).2 [.commit (plainEvent 1)] (plainEvent 2) [] [.poll, .poll] rfl
    rfl (by decide) ⟨Or.inr (by decide), Or.inl (by decide), trivial⟩ (by decide)⟩

/-- A stream without a cursor asks for one event at a time. -/
def singleStream : EventStream := openEventStream { limit := 1 } {}

/-- An event that is committed after one with a greater identifier was delivered is never received, and neither is the first
of two events that are committed between two rounds of a stream without a cursor. -/
theorem event_lost :
    (∀ rounds, plainEvent 1 ∉ (Run.final EventStream.step (openEventStream {} {})
      ([.commit (plainEvent 2), .poll, .commit (plainEvent 1)] ++ List.replicate rounds .poll)).received) ∧
      ∀ rounds, plainEvent 1 ∉ (Run.final EventStream.step singleStream
        ([.commit (plainEvent 1), .commit (plainEvent 2), .poll] ++ List.replicate rounds .poll)).received := by
  have idle : ∀ (stream : EventStream) (rounds : Nat), stream.poll = stream →
      Run.final EventStream.step stream (List.replicate rounds .poll) = stream := by
    intro stream rounds still
    induction rounds with
    | zero => rfl
    | succ rounds ih =>
        rw [List.replicate_succ]
        show Run.final EventStream.step stream.poll (List.replicate rounds .poll) = stream
        rw [still, ih]
  constructor
  · intro rounds
    rw [Run.final_append, idle _ rounds (by decide)]
    decide
  · intro rounds
    rw [Run.final_append, idle _ rounds (by decide)]
    decide

end Gaps

end AreaFlow.Project
