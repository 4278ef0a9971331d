import AreaFlow.Library.Pools
import AreaFlow.Library.Tables
import AreaFlow.Construction.Auth.SessionSteps

namespace AreaFlow.Auth
open Go Program

/-- This is the stored row of a session. -/
def sessionAt (db : Identity) (sessionID : ID) : Option SessionRow := Table.rowAt (·.id) db.sessions sessionID

/-- Session numbers are unique, and no session outlives its absolute deadline. -/
structure SessionsSound (store : SessionStore) : Prop where
  keyed : (store.db.sessions.map (·.id)).Nodup
  bounded : ∀ row ∈ store.db.sessions, row.idleExpiresAt ≤ row.absoluteExpiresAt

/-- This is what an access may do to the row of a session. -/
structure SessionEvolves (access : SessionAccess) (row after : SessionRow) : Prop where
  status : row.status ≠ .active → after.status ≠ .active
  absolute : after.absoluteExpiresAt = row.absoluteExpiresAt
  idle : access ≠ (.extend row.id, false) → after.idleExpiresAt = row.idleExpiresAt

section Access

variable {codec : Codec}

theorem SessionEvolves.refl (access : SessionAccess) (row : SessionRow) : SessionEvolves access row row :=
  ⟨id, rfl, fun _ => rfl⟩

/-- Each session row is changed in its place, and at most one row is added. -/
def SessionRows (access : SessionAccess) (before after : List SessionRow) : Prop :=
  ∃ change new, after = before.map change ++ new ∧
    (∀ row, (change row).id = row.id ∧ SessionEvolves access row (change row) ∧
      (row.idleExpiresAt ≤ row.absoluteExpiresAt → (change row).idleExpiresAt ≤ (change row).absoluteExpiresAt)) ∧
    (new = [] ∨ ∃ row, new = [row] ∧ row.id ∉ before.map (·.id) ∧ row.idleExpiresAt ≤ row.absoluteExpiresAt)

theorem performSession_rows (access : SessionAccess) (store : SessionStore) :
    SessionRows access store.db.sessions (performSession codec access store).db.sessions := by
  have same : SessionRows access store.db.sessions store.db.sessions :=
    ⟨id, [], by simp, fun row => ⟨rfl, SessionEvolves.refl access row, id⟩, Or.inl rfl⟩
  obtain ⟨statement, failed⟩ := access
  cases failed with
  | true => exact same
  | false =>
      cases statement with
      | extend sessionID =>
          refine ⟨_, [], (List.append_nil _).symm, fun row => ?_, Or.inl rfl⟩
          split
          · rename_i chosen
            exact ⟨rfl, ⟨id, rfl, fun other => absurd (by rw [chosen]) other⟩, fun _ => min_le_left _ _⟩
          · exact ⟨rfl, SessionEvolves.refl _ row, id⟩
      | revoke sessionID actor reason =>
          simp only [performSession, Bool.false_eq_true, if_false, SessionStatement.effect]
          cases revoked : revokeSession store.db sessionID actor reason with
          | error message => exact same
          | ok outcome =>
              obtain ⟨_, _, rfl⟩ := map_ok_iff.mp revoked
              refine ⟨_, [], (List.append_nil _).symm, fun row => ?_, Or.inl rfl⟩
              split
              · exact ⟨rfl, ⟨fun _ => nofun, rfl, fun _ => rfl⟩, id⟩
              · exact ⟨rfl, SessionEvolves.refl _ row, id⟩
      | insert createdAt parts options =>
          simp only [performSession, Bool.false_eq_true, if_false, SessionStatement.effect]
          cases check : checkSession store.db parts options with
          | error message => exact same
          | ok checked =>
              refine ⟨id, _, by rw [List.map_id], fun row => ⟨rfl, SessionEvolves.refl _ row, id⟩, Or.inr ⟨_, rfl, ?_, ?_⟩⟩
              · exact freshID_not_mem _
              · have ordered : options.idleTTL ≤ options.absoluteTTL := by
                  by_contra longer
                  simp [checkSession, Nat.not_le.mp longer] at check
                exact Nat.add_le_add_left ordered _
      | _ => exact same

/-- The clock does not go back. -/
theorem performSession_now (access : SessionAccess) (store : SessionStore) :
    store.now ≤ (performSession codec access store).now := by
  obtain ⟨statement, failed⟩ := access
  cases failed with
  | true => exact le_rfl
  | false =>
      cases statement with
      | revoke sessionID actor reason =>
          simp only [performSession, Bool.false_eq_true, if_false, SessionStatement.effect]
          split <;> exact le_rfl
      | insert createdAt parts options =>
          simp only [performSession, Bool.false_eq_true, if_false, SessionStatement.effect]
          split <;> exact le_rfl
      | advance duration => exact Nat.le_add_right _ _
      | _ => exact le_rfl

theorem SessionsSound.perform {store : SessionStore} (sound : SessionsSound store) (access : SessionAccess) :
    SessionsSound (performSession codec access store) := by
  obtain ⟨change, new, rows, changes, adds⟩ := performSession_rows access store
  have keyed : ((store.db.sessions.map change).map (·.id)).Nodup :=
    Table.nodup_map (fun row => (changes row).1) sound.keyed
  have bounded : ∀ row ∈ store.db.sessions.map change, row.idleExpiresAt ≤ row.absoluteExpiresAt := by
    intro row member
    obtain ⟨old, stored, rfl⟩ := List.mem_map.mp member
    exact (changes old).2.2 (sound.bounded old stored)
  rcases adds with rfl | ⟨row, rfl, fresh, ordered⟩
  · constructor <;> rw [rows, List.append_nil]
    · exact keyed
    · exact bounded
  · constructor <;> rw [rows]
    · refine Table.nodup_append_fresh keyed ?_
      rwa [List.map_map, show (·.id) ∘ change = (·.id) from funext fun row => (changes row).1]
    · intro other member
      rcases List.mem_append.mp member with old | last
      · exact bounded other old
      · rw [List.mem_singleton.mp last]
        exact ordered

/-- A stored session evolves under an access. -/
theorem sessionAt_perform {store : SessionStore} {sessionID : ID} {row : SessionRow}
    (stored : sessionAt store.db sessionID = some row) (access : SessionAccess) :
    ∃ after, sessionAt (performSession codec access store).db sessionID = some after ∧
      SessionEvolves access row after := by
  obtain ⟨change, new, rows, changes, -⟩ := performSession_rows access store
  refine ⟨change row, ?_, (changes row).2.1⟩
  rw [sessionAt, rows]
  apply Table.rowAt_append
  rw [Table.rowAt_map fun row => (changes row).1]
  exact congrArg (Option.map change) stored

end Access

abbrev SessionPool : Type := Pool SessionAccess SessionStore SessionAnswer

section Calls

variable (codec : Codec)

/-- Every call does what its statements say. -/
theorem startedSessionCall_lawful (started : StartedSessionCall) :
    Lawful (performSession codec) (started.code codec) [] := by
  obtain ⟨call, faults⟩ := started
  cases call with
  | authenticate rawSession =>
      unfold StartedSessionCall.code authenticateSteps
      dsimp only
      cases opaqueKey (bytes "afs") rawSession with
      | none => exact trivial
      | some key =>
          refine fun found => ⟨rfl, ?_⟩
          dsimp only [Program.andThen]
          split
          · unfold judgeSession
            split
            · exact trivial
            · refine fun found => ⟨rfl, ?_⟩
              dsimp only [Program.andThen]
              split
              · exact trivial
              · refine fun found => ⟨rfl, ?_⟩
                dsimp only [Program.andThen]
                split
                · exact trivial
                · split
                  · exact trivial
                  · refine fun found => ⟨rfl, ?_⟩
                    dsimp only [Program.andThen]
                    split
                    · exact trivial
                    · exact fun found => ⟨rfl, trivial⟩
          · exact trivial
  | revoke sessionID actor reason =>
      refine fun found => ⟨rfl, ?_⟩
      dsimp only [Program.andThen]
      split <;> exact trivial
  | create parts options =>
      refine fun found => ⟨rfl, fun found => ⟨rfl, ?_⟩⟩
      dsimp only [Program.andThen]
      split
      · exact trivial
      · exact trivial
      · refine fun found => ⟨rfl, ?_⟩
        dsimp only [Program.andThen]
        split <;> exact trivial
  | advance duration => exact fun found => ⟨rfl, trivial⟩

/-- A session row cannot be accepted from a time on. -/
def Spent (row : SessionRow) (since : Time) : Prop :=
  row.status ≠ .active ∨ row.absoluteExpiresAt < since ∨ row.idleExpiresAt < since

instance (row : SessionRow) (since : Time) : Decidable (Spent row since) :=
  inferInstanceAs (Decidable (_ ∨ _ ∨ _))

/-- It is at least that late, and the stored session has a property. -/
structure SessionHolds (property : SessionRow → Prop) (sessionID : ID) (since : Time) (store : SessionStore) : Prop where
  sound : SessionsSound store
  late : since ≤ store.now
  stored : ∃ row, sessionAt store.db sessionID = some row ∧ property row

/-- The stored session is spent since a time. -/
abbrev SessionClosed (sessionID : ID) (since : Time) (store : SessionStore) : Prop :=
  SessionHolds (Spent · since) sessionID since store

/-- An answer does not accept a session. -/
def NotAccepting (sessionID : ID) (answer : SessionAnswer) : Prop :=
  ∀ principal, answer = .accepted principal → principal.sessionID ≠ sessionID

variable {codec} {sessionID : ID} {since : Time}

/-- A loaded row of a closed session is spent. -/
theorem spent_of_load {store : SessionStore} (closed : SessionClosed sessionID since store)
    {key : GoString} {row : SessionRow} {user : UserRecord} (loaded : loadSession store.db key = some (row, user))
    (same : row.id = sessionID) : Spent row since := by
  obtain ⟨stored, found, spent⟩ := closed.stored
  obtain ⟨first, located, joined⟩ := Option.bind_eq_some_iff.mp loaded
  obtain ⟨_, _, pair⟩ := Option.map_eq_some_iff.mp joined
  obtain ⟨rfl, -⟩ := Prod.mk.inj pair
  have own := Table.rowAt_of_mem closed.sound.keyed (List.mem_of_find?_eq_some located)
  rw [same] at own
  rwa [← Option.some.inj (found.symm.trans own)]

/-- A row that is spent, or that is another session's, does not lead to an acceptance of the session. -/
theorem judgeSession_within (faults : SessionStatement → Bool) (rawSession : GoString) (row : SessionRow)
    (user : UserRecord) (spent : row.id = sessionID → Spent row since) :
    Within (SessionClosed sessionID since) (NotAccepting sessionID) (judgeSession codec faults rawSession row user) := by
  have refused : NotAccepting sessionID invalidSession := fun _ impossible => nomatch impossible
  unfold judgeSession
  split
  · exact refused
  · rename_i active
    intro found idle
    dsimp only [Program.andThen]
    split
    · exact refused
    · rename_i awake
      intro found absolute
      dsimp only [Program.andThen]
      split
      · exact refused
      · rename_i current
        split
        · exact refused
        · have other : row.id ≠ sessionID := by
            intro same
            rcases spent same with status | passed | slept
            · exact active status
            · exact current (lt_of_lt_of_le passed absolute.late)
            · exact awake (lt_of_lt_of_le slept idle.late)
          intro found _
          dsimp only [Program.andThen]
          split
          · exact fun _ impossible => nomatch impossible
          · rintro found - principal accepted
            cases accepted
            exact other

/-- A call that only meets a closed session does not accept it. -/
theorem startedSessionCall_within (started : StartedSessionCall) :
    Within (SessionClosed sessionID since) (NotAccepting sessionID) (started.code codec) := by
  obtain ⟨call, faults⟩ := started
  cases call with
  | authenticate rawSession =>
      unfold StartedSessionCall.code authenticateSteps
      dsimp only
      cases opaqueKey (bytes "afs") rawSession with
      | none => exact fun _ impossible => nomatch impossible
      | some key =>
          intro found closed
          dsimp only [Program.andThen]
          split
          · rename_i row user loaded
            apply judgeSession_within
            split at loaded
            · cases loaded
            · exact spent_of_load closed (Option.some.inj loaded)
          · exact fun _ impossible => nomatch impossible
  | revoke id actor reason =>
      intro found _
      dsimp only [Program.andThen]
      split <;> exact fun _ impossible => nomatch impossible
  | create parts options =>
      intro found _ found _
      dsimp only [Program.andThen]
      split
      · exact fun _ impossible => nomatch impossible
      · exact fun _ impossible => nomatch impossible
      · intro found _
        dsimp only [Program.andThen]
        split <;> exact fun _ impossible => nomatch impossible
  | advance duration => exact fun found _ _ impossible => nomatch impossible

end Calls

section Runs

variable (codec : Codec) {pool before : SessionPool} {move : PoolMove StartedSessionCall} {sessionID : ID}
  {since : Time}

/-- This is a step of the calls. -/
abbrev sessionStep (pool : SessionPool) (move : PoolMove StartedSessionCall) : SessionPool × Unit :=
  pool.step (StartedSessionCall.code codec) move

/-- This is the session that an access rejects for its idle deadline. -/
def idleRejection (entry : SessionAccess × SessionStore × SessionStore) : Option ID :=
  match entry.1.1 with
  | .idleClock sessionID idleExpiresAt => if idleExpiresAt < entry.2.1.now then some sessionID else none
  | _ => none

/-- Some call has rejected a session for its idle deadline. -/
def IdleRejected (pool : SessionPool) (sessionID : ID) : Prop :=
  ∃ entry ∈ pool.log, idleRejection entry = some sessionID

instance (pool : SessionPool) (sessionID : ID) : Decidable (IdleRejected pool sessionID) :=
  inferInstanceAs (Decidable (∃ entry ∈ pool.log, _))

/-- A session that was rejected for its idle deadline is not extended, and a session is rejected for the deadline that was
loaded only if the stored session is spent as well. -/
def TimelyAccess (pool : SessionPool) : SessionAccess → Prop
  | (.extend sessionID, failed) => failed = false → ¬ IdleRejected pool sessionID
  | (.idleClock sessionID idleExpiresAt, _) => idleExpiresAt < pool.cell.now →
      ∃ row ∈ sessionAt pool.cell.db sessionID, Spent row pool.cell.now
  | _ => True

instance (pool : SessionPool) : (access : SessionAccess) → Decidable (TimelyAccess pool access)
  | (.extend sessionID, failed) => inferInstanceAs (Decidable (failed = false → ¬ IdleRejected pool sessionID))
  | (.idleClock sessionID _, _) => inferInstanceAs (Decidable (_ → ∃ row ∈ sessionAt pool.cell.db sessionID, _))
  | (.load _, _) | (.absoluteClock _ _, _) | (.roles _, _) | (.revoke _ _ _, _) | (.clock, _) | (.insert _ _ _, _)
  | (.advance _, _) => instDecidableTrue

/-- The next access of a process is timely. -/
def ExtensionTimely (pool : SessionPool) (move : PoolMove StartedSessionCall) : Prop :=
  ∀ access ∈ pool.label move, TimelyAccess pool access

instance (pool : SessionPool) (move : PoolMove StartedSessionCall) : Decidable (ExtensionTimely pool move) :=
  inferInstanceAs (Decidable (∀ access ∈ pool.label move, _))

/-- A session has been revoked, or it has passed its absolute deadline. -/
def SessionEnded (store : SessionStore) (sessionID : ID) : Prop :=
  ∃ row, sessionAt store.db sessionID = some row ∧ (row.status ≠ .active ∨ row.absoluteExpiresAt < store.now)

/-- No call that starts between two states has accepted a session in the second state. -/
def NeverAccepted (before after : SessionPool) (sessionID : ID) : Prop :=
  ∀ index, before.processes.length ≤ index → ∀ process ∈ after.processes[index]?, ∀ principal,
    process.program = .done (.accepted principal) → principal.sessionID ≠ sessionID

/-- The sessions of a pool are sound, and its processes are lawful. -/
structure SessionPoolSound (pool : SessionPool) : Prop where
  sound : SessionsSound pool.cell
  lawful : ∀ process ∈ pool.processes, Lawful (performSession codec) process.program process.record

variable {codec}

theorem SessionPoolSound.step (sound : SessionPoolSound codec pool) (move : PoolMove StartedSessionCall) :
    SessionPoolSound codec (sessionStep codec pool move).1 := by
  refine ⟨?_, Pool.obeys_step (startedSessionCall_lawful codec) pool move sound.lawful⟩
  rcases pool.step_effect move sound.lawful with ⟨label, -, cell, -⟩ | ⟨cell, -⟩
  · rw [cell]
    exact sound.sound.perform label
  · rw [cell]
    exact sound.sound

/-- Each move makes an access to the store, or it leaves the store and the log. -/
theorem sessionStep_cases (sound : SessionPoolSound codec pool) (move : PoolMove StartedSessionCall) :
    (∃ access, pool.label move = some access ∧
      (sessionStep codec pool move).1.cell = performSession codec access pool.cell ∧
      (sessionStep codec pool move).1.log = (access, pool.cell, performSession codec access pool.cell) :: pool.log) ∨
    ((sessionStep codec pool move).1.cell = pool.cell ∧ (sessionStep codec pool move).1.log = pool.log) :=
  pool.step_effect move sound.lawful

/-- A property of a stored session stays, if the accesses of a move keep it. -/
theorem SessionHolds.step {property : SessionRow → Prop} (sound : SessionPoolSound codec pool)
    (holds : SessionHolds property sessionID since pool.cell)
    (stays : ∀ access row after, pool.label move = some access → row.id = sessionID → SessionEvolves access row after →
      property row → property after) :
    SessionHolds property sessionID since (sessionStep codec pool move).1.cell := by
  obtain ⟨-, late, row, stored, fits⟩ := holds
  refine ⟨(sound.step move).sound, ?_, ?_⟩
  · rcases sessionStep_cases sound move with ⟨access, -, cell, -⟩ | ⟨cell, -⟩
    · rw [cell]
      exact late.trans (performSession_now access pool.cell)
    · rw [cell]
      exact late
  · rcases sessionStep_cases sound move with ⟨access, label, cell, -⟩ | ⟨cell, -⟩
    · rw [cell]
      obtain ⟨after, found, evolves⟩ := sessionAt_perform stored access
      exact ⟨after, found, stays access row after label (Table.rowAt_key stored) evolves fits⟩
    · rw [cell]
      exact ⟨row, stored, fits⟩

/-- A row stays spent under every access but an extension of its session. -/
theorem Spent.evolves {access : SessionAccess} {row after : SessionRow} (spent : Spent row since)
    (evolves : SessionEvolves access row after) (other : access ≠ (.extend row.id, false)) : Spent after since := by
  rcases spent with status | absolute | idle
  · exact Or.inl (evolves.status status)
  · exact Or.inr (Or.inl (evolves.absolute ▸ absolute))
  · exact Or.inr (Or.inr (evolves.idle other ▸ idle))

theorem Spent.later {row : SessionRow} {late : Time} (spent : Spent row since) (passed : since ≤ late) :
    Spent row late := by
  rcases spent with status | absolute | idle
  · exact Or.inl status
  · exact Or.inr (Or.inl (lt_of_lt_of_le absolute passed))
  · exact Or.inr (Or.inr (lt_of_lt_of_le idle passed))

/-- A condition of the stored session that closes it keeps later calls from accepting it. -/
theorem neverAccepted_of_closed {later : List (PoolMove StartedSessionCall)}
    (closed : Run.Along (sessionStep codec) (fun pool _ => SessionClosed sessionID since pool.cell) before later) :
    NeverAccepted before (Run.final (sessionStep codec) before later) sessionID := by
  intro index late process held principal answered
  have within := Pool.within_run startedSessionCall_within before later closed index late process held
  rw [answered] at within
  exact within principal rfl

/-- An ended session is closed for good. -/
theorem ended_along (sound : SessionPoolSound codec before) (ended : SessionEnded before.cell sessionID)
    (later : List (PoolMove StartedSessionCall)) :
    Run.Along (sessionStep codec) (fun pool _ => SessionClosed sessionID before.cell.now pool.cell) before later := by
  let Past (pool : SessionPool) : Prop := SessionPoolSound codec pool ∧ SessionHolds (fun row =>
    row.status ≠ .active ∨ row.absoluteExpiresAt < before.cell.now) sessionID before.cell.now pool.cell
  have keeps (pool : SessionPool) (move : PoolMove StartedSessionCall) (past : Past pool) (_ : True) :
      Past (sessionStep codec pool move).1 := by
    obtain ⟨sound, holds⟩ := past
    refine ⟨sound.step move, holds.step sound ?_⟩
    rintro access row after - - evolves (status | absolute)
    · exact Or.inl (evolves.status status)
    · exact Or.inr (evolves.absolute ▸ absolute)
  obtain ⟨row, stored, past⟩ := ended
  have along := Run.Along.holds keeps ⟨sound, sound.sound, le_rfl, row, stored, past⟩
    (Run.Along.always (fun _ _ => trivial) before later)
  apply along.mono
  rintro pool move ⟨-, sound, late, row, stored, status | absolute⟩
  · exact ⟨sound, late, row, stored, Or.inl status⟩
  · exact ⟨sound, late, row, stored, Or.inr (Or.inl absolute)⟩

/-- A session that was rejected for its idle deadline is spent, in a pool and since a time. -/
structure RejectionsClosed (codec : Codec) (pool : SessionPool) : Prop where
  sound : SessionPoolSound codec pool
  closed : ∀ sessionID, IdleRejected pool sessionID → SessionClosed sessionID pool.cell.now pool.cell

/-- A move that may not extend the session keeps it closed. -/
theorem closed_step (sound : SessionPoolSound codec pool) (rejected : IdleRejected pool sessionID)
    (timely : ExtensionTimely pool move) (closed : SessionClosed sessionID since pool.cell) :
    SessionClosed sessionID since (sessionStep codec pool move).1.cell := by
  apply closed.step sound
  intro access row after label same evolves spent
  apply spent.evolves evolves
  rintro rfl
  exact timely _ label rfl (same ▸ rejected)

/-- A rejection stays in the log. -/
theorem IdleRejected.step (sound : SessionPoolSound codec pool) (rejected : IdleRejected pool sessionID)
    (move : PoolMove StartedSessionCall) :
    IdleRejected (sessionStep codec pool move).1 sessionID := by
  obtain ⟨entry, logged, rejects⟩ := rejected
  refine ⟨entry, ?_, rejects⟩
  rcases sessionStep_cases sound move with ⟨access, -, -, log⟩ | ⟨-, log⟩
  · rw [log]
    exact List.mem_cons_of_mem _ logged
  · rw [log]
    exact logged

/-- A look at the clock leaves the store. -/
theorem performSession_idleClock (sessionID : ID) (idleExpiresAt : Time) (failed : Bool) (store : SessionStore) :
    performSession codec (.idleClock sessionID idleExpiresAt, failed) store = store := by
  cases failed <;> rfl

/-- A timely move closes the sessions that it rejects and keeps closed those that were rejected before. -/
theorem RejectionsClosed.step (rejections : RejectionsClosed codec pool) (timely : ExtensionTimely pool move) :
    RejectionsClosed codec (sessionStep codec pool move).1 := by
  have sound := rejections.sound.step move
  refine ⟨sound, ?_⟩
  -- A session that was rejected before is still spent at the later time.
  have older : ∀ sessionID, IdleRejected pool sessionID → SessionClosed sessionID
      (sessionStep codec pool move).1.cell.now (sessionStep codec pool move).1.cell := by
    intro sessionID before
    obtain ⟨-, late, row, stored, spent⟩ :=
      closed_step rejections.sound before timely (rejections.closed sessionID before)
    exact ⟨sound.sound, le_rfl, row, stored, spent.later late⟩
  rintro sessionID ⟨entry, logged, rejects⟩
  rcases sessionStep_cases rejections.sound move with ⟨access, label, cell, log⟩ | ⟨cell, log⟩
  · rw [log] at logged
    rcases List.mem_cons.mp logged with rfl | earlier
    · obtain ⟨statement, failed⟩ := access
      cases statement with
      | idleClock loaded idleExpiresAt =>
          simp only [idleRejection] at rejects
          split at rejects
          · rename_i passed
            obtain rfl := Option.some.inj rejects
            obtain ⟨row, stored, spent⟩ := timely _ label passed
            rw [cell, performSession_idleClock]
            exact ⟨rejections.sound.sound, le_rfl, row, stored, spent⟩
          · cases rejects
      | _ => cases rejects
    · exact older sessionID ⟨entry, earlier, rejects⟩
  · rw [log] at logged
    exact older sessionID ⟨entry, logged, rejects⟩

/-- A session that was rejected for its idle deadline is closed in every timely run after it. -/
theorem rejected_along (rejections : RejectionsClosed codec before) (rejected : IdleRejected before sessionID)
    {later : List (PoolMove StartedSessionCall)} (timely : Run.Along (sessionStep codec) ExtensionTimely before later) :
    Run.Along (sessionStep codec) (fun pool _ => SessionClosed sessionID before.cell.now pool.cell) before later := by
  let Rejected (pool : SessionPool) : Prop :=
    SessionPoolSound codec pool ∧ IdleRejected pool sessionID ∧ SessionClosed sessionID before.cell.now pool.cell
  have keeps (pool : SessionPool) (move : PoolMove StartedSessionCall) (holds : Rejected pool)
      (timely : ExtensionTimely pool move) : Rejected (sessionStep codec pool move).1 := by
    obtain ⟨sound, rejected, closed⟩ := holds
    exact ⟨sound.step move, rejected.step sound move, closed_step sound rejected timely closed⟩
  have along := Run.Along.holds keeps ⟨rejections.sound, rejected, rejections.closed sessionID rejected⟩ timely
  exact along.mono fun pool move holds => holds.2.2

/-- Sessions keep their idle deadline inside the absolute one in every run. A session that was revoked, or that has passed
its absolute deadline, is not accepted by any call that starts later. The same holds of a session that was rejected for its
idle deadline, in every run whose extensions are timely. -/
theorem sessions_end (store : SessionStore) (sound : SessionsSound store)
    (moves later : List (PoolMove StartedSessionCall)) :
    (∀ row ∈ (Run.final (sessionStep codec) { cell := store } moves).cell.db.sessions,
      row.idleExpiresAt ≤ row.absoluteExpiresAt) ∧
    (∀ sessionID, SessionEnded (Run.final (sessionStep codec) { cell := store } moves).cell sessionID →
      NeverAccepted (Run.final (sessionStep codec) { cell := store } moves)
        (Run.final (sessionStep codec) { cell := store } (moves ++ later)) sessionID) ∧
    (Run.Along (sessionStep codec) ExtensionTimely { cell := store } (moves ++ later) →
      ∀ sessionID, IdleRejected (Run.final (sessionStep codec) { cell := store } moves) sessionID →
        NeverAccepted (Run.final (sessionStep codec) { cell := store } moves)
          (Run.final (sessionStep codec) { cell := store } (moves ++ later)) sessionID) := by
  have initial : SessionPoolSound codec { cell := store } := ⟨sound, fun _ member => nomatch member⟩
  have kept : SessionPoolSound codec (Run.final (sessionStep codec) { cell := store } moves) :=
    Run.final_invariant (fun _ move sound => sound.step move) initial moves
  rw [Run.final_append]
  refine ⟨kept.sound.bounded, fun sessionID ended => ?_, fun timely sessionID rejected => ?_⟩
  · exact neverAccepted_of_closed (ended_along kept ended later)
  · obtain ⟨first, second⟩ := Run.Along.append.mp timely
    have rejections : RejectionsClosed codec (Run.final (sessionStep codec) { cell := store } moves) := by
      refine Run.Along.invariant (fun _ _ closed timely => closed.step timely) ⟨initial, ?_⟩ first
      rintro _ ⟨_, impossible, -⟩
      cases impossible
    exact neverAccepted_of_closed (rejected_along rejections rejected second)

/-- This is the session that a process has accepted. -/
def acceptedSession (process : Process SessionAccess SessionStore SessionAnswer) : Option ID :=
  match process.program with
  | .done (.accepted principal) => some principal.sessionID
  | _ => none

theorem not_neverAccepted {after : SessionPool} (index : Nat) (late : before.processes.length ≤ index)
    (accepted : after.processes[index]?.bind acceptedSession = some sessionID) :
    ¬ NeverAccepted before after sessionID := by
  intro never
  obtain ⟨process, held, answered⟩ := Option.bind_eq_some_iff.mp accepted
  unfold acceptedSession at answered
  split at answered
  · rename_i principal done
    exact never index late process held principal done (Option.some.inj answered)
  · cases answered

end Runs

section Delay

/-- This is a raw session. -/
def idleSession : GoString := bytes "afs_" ++ List.replicate 24 48 ++ bytes "_" ++ List.replicate 43 65

/-- A user has a session that may be idle for one second. -/
def idleStore : SessionStore where
  db :=
    { users := [{ id := 1, actorID := none, email := none, displayName := bytes "u", externalKey := none }]
      sessions := [{ id := 5, userID := 1, actorID := none, sessionKey := List.replicate 24 48, sessionHash := Json.digest idleSession,
                     csrfHash := [], issuer := bytes "i", idleTTLSeconds := 1, idleExpiresAt := 1000000000,
                     absoluteExpiresAt := 9000000000, status := .active }] }
  now := 0

theorem idleStore_sound : SessionsSound idleStore := ⟨by decide, by decide⟩

/-- A first call has checked the session and has not extended it yet. A second call comes after the idle deadline. -/
def rejectedRun : List (PoolMove StartedSessionCall) :=
  [.start { call := .authenticate idleSession }] ++ List.replicate 4 (.advance 0) ++
    [.start { call := .advance 2000000000 }, .advance 1, .start { call := .authenticate idleSession }, .advance 2,
      .advance 2]

/-- A third call makes its five accesses. -/
def thirdCall : List (PoolMove StartedSessionCall) :=
  .start { call := .authenticate idleSession } :: List.replicate 5 (.advance 3)

/-- The first call extends a session that was rejected for its idle deadline, and a later call accepts it. -/
theorem rejectedSession_accepted :
    SessionsSound idleStore ∧
    IdleRejected (Run.final (sessionStep sampleCodec) { cell := idleStore } rejectedRun) 5 ∧
    ¬ NeverAccepted (Run.final (sessionStep sampleCodec) { cell := idleStore } rejectedRun)
      (Run.final (sessionStep sampleCodec) { cell := idleStore } (rejectedRun ++ .advance 0 :: thirdCall)) 5 := by
  exact ⟨idleStore_sound, by decide +kernel, not_neverAccepted 3 (by decide +kernel) (by decide +kernel)⟩

/-- Without the late extension the session stays rejected. -/
theorem rejectedSession_stays :
    IdleRejected (Run.final (sessionStep sampleCodec) { cell := idleStore } rejectedRun) 5 ∧
    NeverAccepted (Run.final (sessionStep sampleCodec) { cell := idleStore } rejectedRun)
      (Run.final (sessionStep sampleCodec) { cell := idleStore } (rejectedRun ++ thirdCall)) 5 := by
  have rejected : IdleRejected (Run.final (sessionStep sampleCodec) { cell := idleStore } rejectedRun) 5 := by
    decide +kernel
  exact ⟨rejected, (sessions_end idleStore idleStore_sound rejectedRun thirdCall).2.2 (by decide +kernel) 5 rejected⟩

end Delay

end AreaFlow.Auth
