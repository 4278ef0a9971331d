import AreaFlow.Construction.Auth.Session

namespace AreaFlow.Auth
open Go

/-- This record holds what a verified login says about a person. -/
structure OIDCIdentity where
  issuer : GoString
  subject : GoString
  email : GoString
  displayName : GoString
  deriving DecidableEq

/-- A login is trimmed, and its name falls back to the address and then to the subject. -/
def OIDCIdentity.normalized (identity : OIDCIdentity) : OIDCIdentity where
  issuer := trimSpace identity.issuer
  subject := trimSpace identity.subject
  email := trimSpace identity.email
  displayName :=
    if trimSpace identity.displayName ≠ [] then trimSpace identity.displayName
    else if trimSpace identity.email ≠ [] then trimSpace identity.email
    else trimSpace identity.subject

/-- An empty text is stored as an absent value. -/
def nullIfEmpty (text : GoString) : Option GoString := if text = [] then none else some text

section Hash

variable (codec : Codec)

/-- This is the external key of the actor of a login. -/
def oidcExternalKey (identity : OIDCIdentity) : GoString :=
  bytes "oidc:" ++ codec.sha256Hex (identity.issuer ++ 0 :: identity.subject)

/-- This is the user of an active identity row. -/
def activeUser (db : Identity) (identity : OIDCIdentity) : Option UserRow :=
  (db.identities.find? fun row =>
    row.issuer == identity.issuer && row.subject == identity.subject && row.status == .active).bind fun row =>
      db.users.find? fun user => user.id == row.userID

/-- This is the upsert of a user by its actor. -/
def upsertUser (users : List UserRow) (actorID : ID) (email : Option GoString) (displayName externalKey : GoString) :
    List UserRow × ID :=
  match users.find? fun row => row.actorID == some actorID with
  | some existing =>
      (users.map fun row =>
        if row.actorID = some actorID then
          { row with email := email, displayName := displayName, status := bytes "active" }
        else row, existing.id)
  | none =>
      let id := freshID (users.map (·.id))
      (users ++ [{ id := id, actorID := some actorID, email := email, displayName := displayName,
                   externalKey := some externalKey, status := bytes "active" }], id)

/-- This is the upsert of an identity row by its issuer and subject. -/
def upsertIdentity (identities : List IdentityRow) (userID : ID) (identity : OIDCIdentity) : List IdentityRow :=
  if identities.any fun row => row.issuer == identity.issuer && row.subject == identity.subject then
    identities.map fun row =>
      if row.issuer = identity.issuer ∧ row.subject = identity.subject then
        { row with emailSnapshot := nullIfEmpty identity.email, status := .active }
      else row
  else
    identities ++ [{ userID := userID, issuer := identity.issuer, subject := identity.subject,
                     emailSnapshot := nullIfEmpty identity.email, status := .active }]

/-- These are the actor and the user of a login, as they are stored when no active identity row has them. -/
def storedLogin (db : Identity) (identity : OIDCIdentity) : Identity × UserRecord :=
  let key := oidcExternalKey codec identity
  let actor := upsertActor db.actors .oidcUser identity.displayName key
  let user := upsertUser db.users actor.2 (nullIfEmpty identity.email) identity.displayName key
  ({ db with actors := actor.1, users := user.1 },
    { id := user.2, actorID := actor.2, actor := identity.displayName, email := identity.email,
      displayName := identity.displayName })

/-- An address belongs to at most one user, compared in lower case. -/
def emailTaken (db : Identity) (identity : OIDCIdentity) : Bool :=
  let actorID := (upsertActor db.actors .oidcUser identity.displayName (oidcExternalKey codec identity)).2
  db.users.any fun user =>
    user.actorID != some actorID && identity.email != [] &&
      user.email.map codec.lowerText == some (codec.lowerText identity.email)

/-- These are the checks of a login. -/
def checkIdentity (db : Identity) (identity : OIDCIdentity) : Except GoString Unit :=
  if identity.issuer = [] ∨ identity.subject = [] then .error (bytes "OIDC issuer and subject are required")
  else if activeUser db identity = none ∧ emailTaken codec db identity = true then
    .error (bytes "upsert OIDC user")
  else .ok ()

/-- This is the user of a login, from the active identity row or newly stored. -/
def loginUser (db : Identity) (identity : OIDCIdentity) : Identity × UserRecord :=
  match activeUser db identity with
  | some user =>
      (db, { id := user.id, actorID := user.actorID.getD 0, actor := (db.actorName user.actorID).getD [],
             email := user.email.getD [], displayName := user.displayName })
  | none => storedLogin codec db identity

/-- This function stores the identity of a login and returns its user. -/
def upsertOIDCIdentity (db : Identity) (identity : OIDCIdentity) : Outcome UserRecord :=
  (checkIdentity codec db identity.normalized).map fun _ =>
    let login := loginUser codec db identity.normalized
    ({ login.1 with identities := upsertIdentity login.1.identities login.2.id identity.normalized }, login.2)

end Hash

/-- This function gives the platform role to a user whose subject is on the start list. -/
def ensureBootstrapPlatformAdmin (db : Identity) (now : Time) (user : UserRecord) (subject : GoString)
    (allowedSubjects : List GoString) : Outcome Unit :=
  if !(normalize allowedSubjects).contains (trimSpace subject) then .ok (db, ())
  else if (principalForUser db now user).roles.contains Role.platformAdmin.name then .ok (db, ())
  else
    (grantRole db
      { projectKey := [], userID := user.id, teamID := 0, role := Role.platformAdmin.name, actor := user.actor,
        reason := bytes "OIDC bootstrap subject allowlist", expiresAt := none }).map fun granted => (granted.1, ())

/-- These are the random parts of a new session. -/
structure SessionParts where
  key : GoString
  secret : GoString
  csrf : GoString
  deriving DecidableEq

structure CreateSessionOptions where
  user : UserRecord
  issuer : GoString
  idleTTL : Nat
  absoluteTTL : Nat
  deriving DecidableEq

structure CreatedSession where
  rawSession : GoString
  rawCSRF : GoString
  principal : Principal
  expiresAt : Time
  deriving DecidableEq

section Hash

variable (codec : Codec)

/-- A session refers to stored rows, has a new key and stays idle for at least one second. -/
def insertableSession (db : Identity) (parts : SessionParts) (options : CreateSessionOptions) : Bool :=
  (db.users.any fun user => user.id == options.user.id) &&
    (options.user.actorID == 0 || db.actors.any fun actor => actor.id == options.user.actorID) &&
    decide (0 < options.idleTTL / 1000000000) && !(db.sessions.any fun row => row.sessionKey == parts.key)

/-- These are the checks of a session creation and of its insert. -/
def checkSession (db : Identity) (parts : SessionParts) (options : CreateSessionOptions) : Except GoString Unit :=
  if options.user.id = 0 ∨ options.issuer = [] ∨ options.idleTTL = 0 ∨ options.absoluteTTL = 0 ∨
      options.absoluteTTL < options.idleTTL then
    .error (bytes "valid user, issuer and session TTLs are required")
  else if insertableSession db parts options then .ok ()
  else .error (bytes "create web session")

/-- This is the stored row of a new session. -/
def newSessionRow (db : Identity) (now : Time) (parts : SessionParts) (options : CreateSessionOptions) :
    SessionRow where
  id := freshID (db.sessions.map (·.id))
  userID := options.user.id
  actorID := if options.user.actorID = 0 then none else some options.user.actorID
  sessionKey := parts.key
  sessionHash := codec.sha256Hex (bytes "afs_" ++ parts.key ++ bytes "_" ++ parts.secret)
  csrfHash := codec.sha256Hex parts.csrf
  issuer := options.issuer
  idleTTLSeconds := options.idleTTL / 1000000000
  idleExpiresAt := now + options.idleTTL
  absoluteExpiresAt := now + options.absoluteTTL
  status := .active

/-- This function stores a session for a user. -/
def createSession (db : Identity) (now : Time) (parts : SessionParts) (options : CreateSessionOptions) :
    Outcome CreatedSession :=
  (checkSession db parts options).map fun _ =>
    let row := newSessionRow codec db now parts options
    let db' := { db with sessions := db.sessions ++ [row] }
    (db',
      { rawSession := bytes "afs_" ++ parts.key ++ bytes "_" ++ parts.secret, rawCSRF := parts.csrf,
        principal := { principalForUser db' now options.user with sessionID := row.id, csrfHash := row.csrfHash },
        expiresAt := row.absoluteExpiresAt })

end Hash

/-- These are the checks of a session revocation; the raw actor and reason are kept when they pass. -/
def checkRevokeSession (db : Identity) (sessionID : ID) (actor reason : GoString) : Except GoString Unit :=
  if sessionID = 0 ∨ trimSpace actor = [] ∨ trimSpace reason = [] then
    .error (bytes "session, actor and reason are required")
  else if db.sessions.any fun row => row.id == sessionID && row.status == .active then .ok ()
  else .error (bytes "invalid web session")

/-- This function revokes an active session. -/
def revokeSession (db : Identity) (sessionID : ID) (actor reason : GoString) : Outcome Unit :=
  (checkRevokeSession db sessionID actor reason).map fun _ =>
    let owned := ensureActor db actor
    ({ owned.1 with
      sessions := owned.1.sessions.map fun row =>
        if row.id = sessionID ∧ row.status = .active then { row with status := .revoked } else row
      audits := appendAudit owned.1.audits {
        projectID := none, actorID := some owned.2, action := bytes "auth.session.revoke",
        capability := bytes "auth.session.revoke", resourceType := bytes "web_session",
        resource := sprintID sessionID, decision := bytes "allowed", reason := reason, metadata := [] } }, ())

end AreaFlow.Auth
