import AreaFlow.Proof.Names
import AreaFlow.Proof.Rbac
import AreaFlow.Proof.Sessions

namespace AreaFlow.Auth
open Go

/-- These are the calls of a person who logs in and uses a session. -/
inductive LoginCall where
  | upsert (identity : OIDCIdentity)
  | create (now : Time) (parts : SessionParts) (options : CreateSessionOptions)
  | authenticate (now : Time) (rawSession : GoString)
  deriving DecidableEq

/-- A call leaves the tables, and it may yield a principal. -/
def loginStep (codec : Codec) (db : Identity) : LoginCall → Identity × Option Principal
  | .upsert identity =>
      match upsertOIDCIdentity codec db identity with
      | .ok (known, _) => (known, none)
      | .error _ => (db, none)
  | .create now parts options =>
      match createSession codec db now parts options with
      | .ok (stored, created) => (stored, some created.principal)
      | .error _ => (db, none)
  | .authenticate now rawSession =>
      match authenticateSession codec db now rawSession with
      | some (principal, touched) => (touched, some principal)
      | none => (db, none)

/-- This is the stored row of a user. -/
def userAt (db : Identity) (userID : ID) : Option UserRow := Table.rowAt (·.id) db.users userID

/-- This is the stored identity row of a subject. -/
def identityAt (db : Identity) (issuer subject : GoString) : Option IdentityRow :=
  Table.rowAt (fun row => (row.issuer, row.subject)) db.identities (issuer, subject)

/-- A user is switched off, or all of its identity rows are. -/
def Deactivated (db : Identity) (userID : ID) : Prop :=
  ∃ user ∈ userAt db userID, user.status ≠ bytes "active" ∨
    ∀ row ∈ db.identities, row.userID = userID → row.status ≠ .active

instance (db : Identity) (userID : ID) : Decidable (Deactivated db userID) :=
  inferInstanceAs (Decidable (∃ user ∈ userAt db userID, _ ∨ ∀ row ∈ db.identities, _))

/-- The status columns of a user that are not active stay so. -/
structure StatusKept (userID : ID) (before after : Identity) : Prop where
  user : ∀ row ∈ userAt before userID, row.status ≠ bytes "active" →
    ∀ row' ∈ userAt after userID, row'.status ≠ bytes "active"
  identities : ∀ issuer subject, ∀ row ∈ identityAt before issuer subject, row.userID = userID → row.status ≠ .active →
    ∀ row' ∈ identityAt after issuer subject, row'.status ≠ .active

/-- A call yields no power for a user, and it does not switch the user on. -/
def LockedOut (codec : Codec) (userID : ID) (db : Identity) (call : LoginCall) : Prop :=
  (∀ principal ∈ (loginStep codec db call).2, principal.userID = userID →
    principal.projects = [] ∧ principal.capabilities = []) ∧
  StatusKept userID db (loginStep codec db call).1

/-- This is the session that a raw session names, if it has a user and accepts its raw form. -/
def acceptedRow (codec : Codec) (db : Identity) (now : Time) (rawSession : GoString) : Option SessionRow :=
  (opaqueKey (bytes "afs") rawSession).bind fun key =>
    (db.sessions.find? fun row => row.sessionKey == key).filter fun row =>
      (sessionUser db row).isSome && acceptsSession codec now rawSession row

/-- An accepted login switches on the identity row of its subject, and without an active row the user of its actor. -/
def SwitchesOn (codec : Codec) (userID : ID) (db : Identity) (identity : OIDCIdentity) : Prop :=
  (∃ row ∈ identityAt db identity.issuer identity.subject, row.userID = userID ∧ row.status ≠ .active) ∨
  (activeUser db identity = none ∧ ∃ user ∈ userAt db userID, user.status ≠ bytes "active" ∧
    ∃ actor ∈ db.actors.find? fun row => row.externalKey == some (oidcExternalKey codec identity),
      user.actorID = some actor.id)

/-- A call leaves a user locked out: no session of a user with a live role is made or accepted, and no login switches the
user on. -/
def KeepsOut (codec : Codec) (userID : ID) (db : Identity) : LoginCall → Prop
  | .upsert identity => checkIdentity codec db identity.normalized = .ok () →
      ¬ SwitchesOn codec userID db identity.normalized
  | .create now parts options => options.user.id = userID → checkSession db parts options = .ok () →
      userBindings db now userID = []
  | .authenticate now rawSession => ∀ row ∈ acceptedRow codec db now rawSession, row.userID = userID →
      userBindings db now userID = []

/-- Every user has a stored actor, if it has one. -/
def ActorsStored (db : Identity) : Prop :=
  ∀ user ∈ db.users, ∀ actorID, user.actorID = some actorID → actorID ∈ db.actors.map (·.id)

section Powers

variable {db : Identity} {now : Time} {user : UserRecord}

theorem role_capabilities_ne_nil (role : Role) : role.capabilities ≠ [] := by
  cases role <;> exact List.cons_ne_nil _ _

/-- A principal without projects and capabilities is one without live bindings. -/
theorem principal_powerless_iff :
    (principalForUser db now user).projects = [] ∧ (principalForUser db now user).capabilities = [] ↔
      userBindings db now user.id = [] := by
  constructor
  · rintro ⟨-, powerless⟩
    rw [List.eq_nil_iff_forall_not_mem]
    intro b held
    obtain ⟨capability, allowed⟩ := List.exists_mem_of_ne_nil _ (role_capabilities_ne_nil b.role)
    have owned := mem_principal_capabilities.mpr ⟨b, held, allowed⟩
    rw [powerless] at owned
    cases owned
  · intro unbound
    constructor
    · rw [List.eq_nil_iff_forall_not_mem]
      intro projectKey member
      rw [mem_principal_projects, unbound] at member
      simp at member
    · rw [List.eq_nil_iff_forall_not_mem]
      intro capability member
      rw [mem_principal_capabilities, unbound] at member
      simp at member

end Powers

section Status

variable {codec : Codec} {userID : ID} {db : Identity}

theorem StatusKept.of_eq {after : Identity} (users : after.users = db.users) (identities : after.identities = db.identities) :
    StatusKept userID db after := by
  constructor
  · intro row stored off row' stored'
    rw [userAt, users] at stored'
    rwa [← Option.some.inj (stored.symm.trans stored')]
  · intro issuer subject row stored _ off row' stored'
    rw [identityAt, identities] at stored'
    rwa [← Option.some.inj (stored.symm.trans stored')]

theorem identityAt_key {issuer subject : GoString} {row : IdentityRow} (stored : row ∈ identityAt db issuer subject) :
    row.issuer = issuer ∧ row.subject = subject := by
  have key := List.find?_some stored
  simpa using key

/-- An upsert of a user rewrites the row of its actor and keeps every other row. -/
theorem rowAt_upsertUser {users : List UserRow} {row : UserRow} (stored : Table.rowAt (·.id) users userID = some row)
    (actorID : ID) (email : Option GoString) (displayName externalKey : GoString) :
    Table.rowAt (·.id) (upsertUser users actorID email displayName externalKey).1 userID =
      some (if row.actorID = some actorID then
        { row with email := email, displayName := displayName, status := bytes "active" } else row) := by
  unfold upsertUser
  split
  · rw [Table.rowAt_map (by intro row; split <;> rfl), stored, Option.map_some]
  · rename_i absent
    have other : row.actorID ≠ some actorID := by
      simpa using List.find?_eq_none.mp absent row (Table.rowAt_mem stored)
    rw [if_neg other]
    exact Table.rowAt_append stored _

/-- An upsert of an identity switches on the row of its subject and keeps every other row. -/
theorem identityAt_upsertIdentity {identities : List IdentityRow} {issuer subject : GoString} {row : IdentityRow}
    (stored : Table.rowAt (fun row => (row.issuer, row.subject)) identities (issuer, subject) = some row)
    (user : ID) (identity : OIDCIdentity) :
    Table.rowAt (fun row => (row.issuer, row.subject)) (upsertIdentity identities user identity) (issuer, subject) =
      some (if row.issuer = identity.issuer ∧ row.subject = identity.subject then
        { row with emailSnapshot := nullIfEmpty identity.email, status := .active } else row) := by
  unfold upsertIdentity
  split
  · rw [Table.rowAt_map (by intro row; split <;> rfl), stored, Option.map_some]
  · rename_i absent
    have other : ¬ (row.issuer = identity.issuer ∧ row.subject = identity.subject) := by
      intro same
      apply absent
      rw [List.any_eq_true]
      exact ⟨row, Table.rowAt_mem stored, by simp [same]⟩
    rw [if_neg other]
    exact Table.rowAt_append stored _

/-- The actor of a stored login is the stored actor of its key, for a user whose actor is stored. -/
theorem loginActor_iff (stored : ActorsStored db) {user : UserRow} (member : user ∈ db.users) (displayName key : GoString) :
    user.actorID = some (upsertActor db.actors .oidcUser displayName key).2 ↔
      ∃ actor ∈ db.actors.find? fun row => row.externalKey == some key, user.actorID = some actor.id := by
  rcases upsertActor_cases db.actors .oidcUser displayName key with ⟨existing, found, shape⟩ | ⟨absent, shape⟩
  · rw [shape, found]
    constructor
    · exact fun same => ⟨existing, rfl, same⟩
    · rintro ⟨actor, same, attached⟩
      cases same
      exact attached
  · rw [shape]
    constructor
    · exact fun same => absurd (stored user member _ same) (freshID_not_mem _)
    · rintro ⟨actor, found, -⟩
      have keyed : actor.externalKey = some key := by simpa using List.find?_some found
      exact absurd keyed (absent actor (List.mem_of_find?_eq_some found))

/-- A login without an active identity row rewrites the user of its actor. -/
theorem userAt_loginUser {user : UserRow} {identity : OIDCIdentity} (found : user ∈ userAt db userID)
    (inactive : activeUser db identity = none) :
    userAt (loginUser codec db identity).1 userID =
      some (if user.actorID = some (upsertActor db.actors .oidcUser identity.displayName (oidcExternalKey codec identity)).2
        then { user with
          email := nullIfEmpty identity.email, displayName := identity.displayName, status := bytes "active" }
        else user) := by
  simp only [userAt, loginUser, inactive, storedLogin]
  exact rowAt_upsertUser found _ _ _ _

/-- A stored login keeps the status columns of a user exactly if it does not switch the user on. -/
theorem statusKept_upsert_iff (stored : ActorsStored db) (identity : OIDCIdentity) :
    StatusKept userID db { (loginUser codec db identity).1 with
        identities := upsertIdentity (loginUser codec db identity).1.identities (loginUser codec db identity).2.id identity } ↔
      ¬ SwitchesOn codec userID db identity := by
  have identities : (loginUser codec db identity).1.identities = db.identities := by
    unfold loginUser
    split <;> rfl
  rw [identities]
  constructor
  · rintro kept (⟨row, found, mine, off⟩ | ⟨inactive, user, found, off, actor, keyed, attached⟩)
    · refine kept.identities _ _ row found mine off _ (identityAt_upsertIdentity found _ identity) ?_
      rw [if_pos (identityAt_key found)]
    · have same := (loginActor_iff stored (Table.rowAt_mem found) identity.displayName _).mpr ⟨actor, keyed, attached⟩
      refine kept.user user found off _ (userAt_loginUser found inactive) ?_
      rw [if_pos same]
  · intro keeps
    constructor
    · intro row found off row' found'
      cases inactive : activeUser db identity with
      | some user =>
          simp only [userAt, loginUser, inactive] at found'
          rwa [← Option.some.inj (found.symm.trans found')]
      | none =>
          rw [← Option.some.inj ((userAt_loginUser found inactive).symm.trans found')]
          split
          · rename_i same
            exact absurd (Or.inr ⟨inactive, row, found, off,
              (loginActor_iff stored (Table.rowAt_mem found) identity.displayName _).mp same⟩) keeps
          · exact off
    · intro issuer subject row found mine off row' found'
      rw [← Option.some.inj ((identityAt_upsertIdentity found _ identity).symm.trans found')]
      split
      · rename_i own
        obtain ⟨rfl, rfl⟩ := identityAt_key found
        rw [own.1, own.2] at found
        exact absurd (Or.inl ⟨row, found, mine, off⟩) keeps
      · exact off

end Status

section Step

variable {codec : Codec} {userID : ID} {db : Identity}

/-- An authentication answers for the user of the accepted session. -/
theorem authenticateSession_eq (db : Identity) (now : Time) (rawSession : GoString) :
    authenticateSession codec db now rawSession =
      (acceptedRow codec db now rawSession).bind fun row => (sessionUser db row).map fun user =>
        ({ principalForUser db now user with sessionID := row.id, csrfHash := row.csrfHash },
          touchSession db now row.id) := by
  unfold authenticateSession acceptedRow
  cases opaqueKey (bytes "afs") rawSession with
  | none => rfl
  | some key =>
      simp only [Option.bind_some]
      cases db.sessions.find? fun row => row.sessionKey == key with
      | none => rfl
      | some row =>
          rw [Option.filter_some]
          cases owner : sessionUser db row with
          | none => simp [owner]
          | some user => cases accepted : acceptsSession codec now rawSession row <;> simp [owner, accepted]

theorem sessionUser_id {row : SessionRow} {user : UserRecord} (joined : sessionUser db row = some user) :
    user.id = row.userID := by
  obtain ⟨stored, found, rfl⟩ := Option.map_eq_some_iff.mp joined
  simpa using List.find?_some found

theorem loginStep_upsert_error {identity : OIDCIdentity} {message : GoString}
    (check : checkIdentity codec db identity.normalized = .error message) :
    loginStep codec db (.upsert identity) = (db, none) := by
  simp only [loginStep, upsertOIDCIdentity, check, Except.map]

theorem loginStep_upsert_ok {identity : OIDCIdentity} (check : checkIdentity codec db identity.normalized = .ok ()) :
    loginStep codec db (.upsert identity) =
      ({ (loginUser codec db identity.normalized).1 with
          identities := upsertIdentity (loginUser codec db identity.normalized).1.identities
            (loginUser codec db identity.normalized).2.id identity.normalized }, none) := by
  simp only [loginStep, upsertOIDCIdentity, check, Except.map]

theorem loginStep_create_error {now : Time} {parts : SessionParts} {options : CreateSessionOptions} {message : GoString}
    (check : checkSession db parts options = .error message) :
    loginStep codec db (.create now parts options) = (db, none) := by
  simp only [loginStep, createSession, check, Except.map]

/-- A created session has the principal of its user, and only the sessions change. -/
theorem loginStep_create_ok (codec : Codec) (now : Time) {parts : SessionParts} {options : CreateSessionOptions}
    (check : checkSession db parts options = .ok ()) :
    ∃ sessions sessionID csrfHash, loginStep codec db (.create now parts options) =
      ({ db with sessions := sessions },
        some { principalForUser db now options.user with sessionID := sessionID, csrfHash := csrfHash }) := by
  simp only [loginStep, createSession, check, Except.map]
  exact ⟨_, _, _, rfl⟩

theorem loginStep_authenticate_none {now : Time} {rawSession : GoString}
    (refused : acceptedRow codec db now rawSession = none) :
    loginStep codec db (.authenticate now rawSession) = (db, none) := by
  simp only [loginStep, authenticateSession_eq, refused, Option.bind_none]

/-- An accepted session has the principal of its user, and only the sessions change. -/
theorem loginStep_authenticate_some {now : Time} {rawSession : GoString} {row : SessionRow}
    (accepted : acceptedRow codec db now rawSession = some row) :
    ∃ user sessionID csrfHash, user.id = row.userID ∧ loginStep codec db (.authenticate now rawSession) =
      (touchSession db now row.id,
        some { principalForUser db now user with sessionID := sessionID, csrfHash := csrfHash }) := by
  have joined : (sessionUser db row).isSome := by
    obtain ⟨key, -, filtered⟩ := Option.bind_eq_some_iff.mp accepted
    have fits := (Option.filter_eq_some_iff.mp filtered).2
    simp only [Bool.and_eq_true] at fits
    exact fits.1
  obtain ⟨user, owner⟩ := Option.isSome_iff_exists.mp joined
  refine ⟨user, row.id, row.csrfHash, sessionUser_id owner, ?_⟩
  simp only [loginStep, authenticateSession_eq, accepted, Option.bind_some, owner, Option.map_some]

/-- A call that yields the principal of a user keeps another one locked out, and the same one only without bindings. -/
theorem lockedOut_principal_iff {call : LoginCall} {after : Identity} {now : Time} {user : UserRecord} {sessionID : ID}
    {csrfHash : GoString} (step : loginStep codec db call =
      (after, some { principalForUser db now user with sessionID := sessionID, csrfHash := csrfHash }))
    (users : after.users = db.users) (identities : after.identities = db.identities) :
    LockedOut codec userID db call ↔ (user.id = userID → userBindings db now userID = []) := by
  rw [LockedOut, step, and_iff_left (StatusKept.of_eq users identities)]
  constructor
  · rintro powerless rfl
    have own := powerless _ rfl rfl
    exact principal_powerless_iff.mp own
  · intro unbound principal yielded mine
    cases yielded
    exact principal_powerless_iff.mpr ((show user.id = userID from mine) ▸ unbound mine)

/-- A call without a principal keeps a user locked out exactly if it keeps the status columns. -/
theorem lockedOut_silent_iff {call : LoginCall} {after : Identity} (step : loginStep codec db call = (after, none)) :
    LockedOut codec userID db call ↔ StatusKept userID db after := by
  rw [LockedOut, step]
  exact and_iff_right fun _ impossible => nomatch impossible

/-- A call keeps a user locked out exactly under the condition on the tables before it. -/
theorem lockedOut_iff (stored : ActorsStored db) (call : LoginCall) :
    LockedOut codec userID db call ↔ KeepsOut codec userID db call := by
  cases call with
  | upsert identity =>
      cases check : checkIdentity codec db identity.normalized with
      | error message =>
          rw [lockedOut_silent_iff (loginStep_upsert_error check), KeepsOut, check]
          exact iff_of_true (StatusKept.of_eq rfl rfl) nofun
      | ok checked =>
          rw [lockedOut_silent_iff (loginStep_upsert_ok check), statusKept_upsert_iff stored, KeepsOut, check]
          exact ⟨fun keeps _ => keeps, fun keeps => keeps rfl⟩
  | create now parts options =>
      cases check : checkSession db parts options with
      | error message =>
          rw [lockedOut_silent_iff (loginStep_create_error check), KeepsOut, check]
          exact iff_of_true (StatusKept.of_eq rfl rfl) nofun
      | ok checked =>
          obtain ⟨sessions, sessionID, csrfHash, step⟩ := loginStep_create_ok codec now check
          rw [lockedOut_principal_iff step rfl rfl, KeepsOut, check]
          exact ⟨fun unbound mine _ => unbound mine, fun unbound mine => unbound mine rfl⟩
  | authenticate now rawSession =>
      cases accepted : acceptedRow codec db now rawSession with
      | none =>
          rw [lockedOut_silent_iff (loginStep_authenticate_none accepted), KeepsOut, accepted]
          exact iff_of_true (StatusKept.of_eq rfl rfl) nofun
      | some row =>
          obtain ⟨user, sessionID, csrfHash, owner, step⟩ := loginStep_authenticate_some accepted
          rw [lockedOut_principal_iff step rfl rfl, KeepsOut, accepted, owner]
          simp

/-- A newly stored login keeps the actors of the users stored. -/
theorem ActorsStored.storedLogin (stored : ActorsStored db) (codec : Codec) (identity : OIDCIdentity) :
    ActorsStored (storedLogin codec db identity).1 := by
  intro user member actorID attached
  have actors : ∀ id, id ∈ db.actors.map (·.id) ∨
        id = (upsertActor db.actors .oidcUser identity.displayName (oidcExternalKey codec identity)).2 →
      id ∈ (upsertActor db.actors .oidcUser identity.displayName (oidcExternalKey codec identity)).1.map (·.id) := by
    intro id
    rcases upsertActor_cases db.actors .oidcUser identity.displayName (oidcExternalKey codec identity) with
      ⟨existing, found, shape⟩ | ⟨-, shape⟩
    · rw [shape, List.map_map, show (·.id) ∘ renamedActor _ _ = (·.id) from funext (renamedActor_id _ _)]
      rintro (old | rfl)
      · exact old
      · exact List.mem_map_of_mem (List.mem_of_find?_eq_some found)
    · rw [shape, List.map_append, List.mem_append]
      rintro (old | rfl)
      · exact Or.inl old
      · exact Or.inr (List.mem_singleton_self _)
  apply actors
  rcases upsertUser_actor member with fresh | ⟨old, present, same⟩
  · exact Or.inr (Option.some.inj (attached.symm.trans fresh))
  · exact Or.inl (stored old present actorID (same.symm.trans attached))

theorem ActorsStored.step (stored : ActorsStored db) (call : LoginCall) : ActorsStored (loginStep codec db call).1 := by
  cases call with
  | upsert identity =>
      cases check : checkIdentity codec db identity.normalized with
      | error message => rwa [loginStep_upsert_error check]
      | ok checked =>
          rw [loginStep_upsert_ok check]
          cases inactive : activeUser db identity.normalized with
          | some user =>
              simp only [loginUser, inactive]
              exact stored
          | none =>
              simp only [loginUser, inactive]
              exact stored.storedLogin codec identity.normalized
  | create now parts options =>
      cases check : checkSession db parts options with
      | error message => rwa [loginStep_create_error check]
      | ok checked =>
          obtain ⟨sessions, sessionID, csrfHash, step⟩ := loginStep_create_ok codec now check
          rw [step]
          exact stored
  | authenticate now rawSession =>
      cases accepted : acceptedRow codec db now rawSession with
      | none => rwa [loginStep_authenticate_none accepted]
      | some row =>
          obtain ⟨user, sessionID, csrfHash, owner, step⟩ := loginStep_authenticate_some accepted
          rw [step]
          exact stored

/-- A sequence of calls keeps a user locked out exactly if no login of the sequence switches the user on, and no session of
the user is made or accepted while the user has a live role. -/
theorem lockedOut_run_iff (stored : ActorsStored db) (calls : List LoginCall) :
    Run.Along (loginStep codec) (LockedOut codec userID) db calls ↔
      Run.Along (loginStep codec) (KeepsOut codec userID) db calls := by
  exact Run.Along.congr_under (fun _ call stored => lockedOut_iff stored call)
    (Run.Along.holds (fun _ call stored _ => stored.step call) stored (Run.Along.always (fun _ _ => trivial) db calls))

end Step

section Disabled

/-- This is the raw session of a disabled user. -/
def disabledSession : GoString := bytes "afs_" ++ List.replicate 24 48 ++ bytes "_" ++ List.replicate 43 65

/-- This is the login of a disabled user. -/
def disabledLogin : OIDCIdentity := { issuer := bytes "i", subject := bytes "s", email := [], displayName := bytes "u" }

/-- A user and its identity are switched off. A session and the given bindings are left. -/
def disabledTables (bindings : List BindingRow) : Identity where
  actors := [{ id := 1, kind := .oidcUser, displayName := bytes "u",
               externalKey := some (oidcExternalKey sampleCodec disabledLogin) }]
  users := [{ id := 1, actorID := some 1, email := none, displayName := bytes "u", externalKey := none,
              status := bytes "disabled" }]
  identities := [{ userID := 1, issuer := bytes "i", subject := bytes "s", emailSnapshot := none, status := .disabled }]
  bindings := bindings
  sessions := [{ id := 5, userID := 1, actorID := none, sessionKey := List.replicate 24 48,
                 sessionHash := Json.digest disabledSession, csrfHash := [], issuer := bytes "i", idleTTLSeconds := 1,
                 idleExpiresAt := 9, absoluteExpiresAt := 9, status := .active }]

/-- This is the platform role of the disabled user. -/
def disabledAdmin : BindingRow where
  id := 1
  projectID := none
  holder := .user 1
  role := .platformAdmin
  status := .active
  reason := bytes "r"
  assignedByActorID := 1
  expiresAt := none
  globalOnly := by decide

/-- The session of a disabled user still yields all powers, and a login of the user switches both status columns on. -/
theorem disabledUser_returns :
    Deactivated (disabledTables [disabledAdmin]) 1 ∧
    ¬ Run.Along (loginStep sampleCodec) (LockedOut sampleCodec 1) (disabledTables [disabledAdmin])
      [.authenticate 0 disabledSession] ∧
    ¬ Run.Along (loginStep sampleCodec) (LockedOut sampleCodec 1) (disabledTables [disabledAdmin])
      [.upsert disabledLogin] := by
  refine ⟨by decide +kernel, ?_, ?_⟩
  · rintro ⟨⟨powerless, -⟩, -⟩
    have yields : ∃ principal ∈ (loginStep sampleCodec (disabledTables [disabledAdmin]) (.authenticate 0 disabledSession)).2,
        principal.userID = 1 ∧ principal.projects = [bytes "*"] := by decide +kernel
    obtain ⟨principal, yielded, mine, projects⟩ := yields
    rw [(powerless principal yielded mine).1] at projects
    cases projects
  · rintro ⟨⟨-, kept⟩, -⟩
    have before : ∃ row ∈ userAt (disabledTables [disabledAdmin]) 1, row.status ≠ bytes "active" := by decide +kernel
    have after : ∃ row ∈ userAt (loginStep sampleCodec (disabledTables [disabledAdmin]) (.upsert disabledLogin)).1 1,
        row.status = bytes "active" := by decide +kernel
    obtain ⟨row, stored, off⟩ := before
    obtain ⟨row', stored', switched⟩ := after
    exact kept.user row stored off row' stored' switched

/-- A disabled user without a role stays locked out with a session. -/
theorem disabledUser_lockedOut :
    Deactivated (disabledTables []) 1 ∧
    Run.Along (loginStep sampleCodec) (LockedOut sampleCodec 1) (disabledTables []) [.authenticate 0 disabledSession] := by
  refine ⟨by decide +kernel, (lockedOut_run_iff ?_ _).mpr ⟨?_, trivial⟩⟩
  · intro user member actorID attached
    obtain rfl : user = _ := List.mem_singleton.mp member
    obtain rfl := Option.some.inj attached
    exact List.mem_singleton_self _
  · intro row _ _
    rfl

end Disabled

end AreaFlow.Auth
