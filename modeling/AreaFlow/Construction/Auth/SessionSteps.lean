import AreaFlow.Library.Programs
import AreaFlow.Construction.Auth.Login

namespace AreaFlow.Auth
open Go

/-- These are the tables, and the time that the clocks show. -/
structure SessionStore where
  db : Identity
  now : Time
  deriving DecidableEq

/-- These are the statements of the session calls, and their looks at the clock. -/
inductive SessionStatement where
  | load (key : GoString)
  | idleClock (sessionID : ID) (idleExpiresAt : Time)
  | absoluteClock (sessionID : ID) (absoluteExpiresAt : Time)
  | roles (userID : ID)
  | extend (sessionID : ID)
  | revoke (sessionID : ID) (actor reason : GoString)
  | clock
  | insert (createdAt : Time) (parts : SessionParts) (options : CreateSessionOptions)
  | advance (duration : Nat)
  deriving DecidableEq

/-- An access is a statement, and whether it fails. -/
abbrev SessionAccess : Type := SessionStatement × Bool

/-- These are the answers of the calls. A failed statement has no message here. -/
inductive SessionAnswer where
  | accepted (principal : Principal)
  | refused (message : GoString)
  | failed
  | created (session : CreatedSession)
  | revoked
  | advanced
  deriving DecidableEq

def invalidSession : SessionAnswer := .refused (bytes "invalid web session")

section Steps

variable (codec : Codec)

/-- This is what a statement leaves, if it does not fail. -/
def SessionStatement.effect : SessionStatement → SessionStore → SessionStore
  | .extend sessionID, store => { store with db := touchSession store.db store.now sessionID }
  | .revoke sessionID actor reason, store =>
      match revokeSession store.db sessionID actor reason with
      | .ok revoked => { store with db := revoked.1 }
      | .error _ => store
  | .insert createdAt parts options, store =>
      match checkSession store.db parts options with
      | .ok _ =>
          { store with db := { store.db with
              sessions := store.db.sessions ++ [newSessionRow codec store.db createdAt parts options] } }
      | .error _ => store
  | .advance duration, store => { store with now := store.now + duration }
  | _, store => store

def performSession (access : SessionAccess) (store : SessionStore) : SessionStore :=
  if access.2 then store else access.1.effect codec store

variable (faults : SessionStatement → Bool)

/-- This program makes one statement. -/
def sendSession {A : Type} (statement : SessionStatement) (answer : SessionStore → A) :
    Program SessionAccess SessionStore (Option A) :=
  Program.change (statement, faults statement) (performSession codec (statement, faults statement)) fun found =>
    if faults statement then none else some (answer found)

/-- This is the join of a session with its user. -/
def loadSession (db : Identity) (key : GoString) : Option (SessionRow × UserRecord) :=
  (db.sessions.find? fun row => row.sessionKey == key).bind fun row => (sessionUser db row).map fun user => (row, user)

/-- A session is accepted and extended. An extension that fails is ignored. -/
def acceptSession (row : SessionRow) (user : UserRecord) : Program SessionAccess SessionStore SessionAnswer := do
  let principal ← sendSession codec faults (.roles user.id) fun found => principalForUser found.db found.now user
  match principal with
  | none => pure .failed
  | some principal => do
      let _ ← sendSession codec faults (.extend row.id) fun _ => ()
      pure (.accepted { principal with sessionID := row.id, csrfHash := row.csrfHash })

/-- The loaded row is compared with the clock, which goes on after the load. -/
def judgeSession (rawSession : GoString) (row : SessionRow) (user : UserRecord) :
    Program SessionAccess SessionStore SessionAnswer :=
  if row.status ≠ .active then pure invalidSession
  else do
    let idleTime ← Program.read (.idleClock row.id row.idleExpiresAt, false) (·.now)
    if row.idleExpiresAt < idleTime then pure invalidSession
    else do
      let absoluteTime ← Program.read (.absoluteClock row.id row.absoluteExpiresAt, false) (·.now)
      if row.absoluteExpiresAt < absoluteTime then pure invalidSession
      else if row.sessionHash ≠ codec.sha256Hex rawSession then pure invalidSession
      else acceptSession codec faults row user

/-- These are the steps of the authentication of a raw session. -/
def authenticateSteps (rawSession : GoString) : Program SessionAccess SessionStore SessionAnswer :=
  match opaqueKey (bytes "afs") rawSession with
  | none => pure invalidSession
  | some key => do
      let loaded ← sendSession codec faults (.load key) fun found => loadSession found.db key
      match loaded with
      | some (some (row, user)) => judgeSession codec faults rawSession row user
      | _ => pure invalidSession

/-- These are the steps of the revocation of a session, which is one transaction. -/
def revokeSteps (sessionID : ID) (actor reason : GoString) : Program SessionAccess SessionStore SessionAnswer := do
  let outcome ← sendSession codec faults (.revoke sessionID actor reason) fun found =>
    (revokeSession found.db sessionID actor reason).map fun _ => ()
  match outcome with
  | none => pure .failed
  | some (.error message) => pure (.refused message)
  | some (.ok _) => pure .revoked

/-- This is the session that a creation returns. -/
def createdSession (parts : SessionParts) (row : SessionRow) (principal : Principal) : CreatedSession where
  rawSession := bytes "afs_" ++ parts.key ++ bytes "_" ++ parts.secret
  rawCSRF := parts.csrf
  principal := { principal with sessionID := row.id, csrfHash := row.csrfHash }
  expiresAt := row.absoluteExpiresAt

/-- These are the steps of the creation of a session. -/
def createSteps (parts : SessionParts) (options : CreateSessionOptions) :
    Program SessionAccess SessionStore SessionAnswer := do
  let createdAt ← Program.read (.clock, false) (·.now)
  let inserted ← sendSession codec faults (.insert createdAt parts options) fun found =>
    (checkSession found.db parts options).map fun _ => newSessionRow codec found.db createdAt parts options
  match inserted with
  | none => pure .failed
  | some (.error message) => pure (.refused message)
  | some (.ok row) => do
      let principal ← sendSession codec faults (.roles options.user.id) fun found =>
        principalForUser found.db found.now options.user
      match principal with
      | none => pure .failed
      | some principal => pure (.created (createdSession parts row principal))

/-- This is the clock. -/
def advanceSteps (duration : Nat) : Program SessionAccess SessionStore SessionAnswer :=
  Program.change (.advance duration, false) (performSession codec (.advance duration, false)) fun _ => .advanced

end Steps

/-- These are the calls on sessions, and the advance of the clock. -/
inductive SessionCall where
  | authenticate (rawSession : GoString)
  | revoke (sessionID : ID) (actor reason : GoString)
  | create (parts : SessionParts) (options : CreateSessionOptions)
  | advance (duration : Nat)
  deriving DecidableEq

/-- A call is started with the statements that fail. -/
structure StartedSessionCall where
  call : SessionCall
  faults : SessionStatement → Bool := fun _ => false

def StartedSessionCall.code (codec : Codec) (started : StartedSessionCall) :
    Program SessionAccess SessionStore SessionAnswer :=
  match started.call with
  | .authenticate rawSession => authenticateSteps codec started.faults rawSession
  | .revoke sessionID actor reason => revokeSteps codec started.faults sessionID actor reason
  | .create parts options => createSteps codec started.faults parts options
  | .advance duration => advanceSteps codec duration

end AreaFlow.Auth
