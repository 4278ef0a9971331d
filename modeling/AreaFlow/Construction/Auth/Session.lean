import AreaFlow.Construction.Auth.Token

namespace AreaFlow.Auth
open Go

section Hash

variable (codec : Codec)

/-- A stored session accepts its raw form while it is active and inside both deadlines. -/
def acceptsSession (now : Time) (rawSession : GoString) (row : SessionRow) : Bool :=
  row.status == .active && decide (now ≤ row.idleExpiresAt) && decide (now ≤ row.absoluteExpiresAt) &&
    row.sessionHash == codec.sha256Hex rawSession

/-- This is the user of a session as the join returns it. -/
def sessionUser (db : Identity) (row : SessionRow) : Option UserRecord :=
  (db.users.find? fun user => user.id == row.userID).map fun user =>
    { id := user.id, actorID := user.actorID.getD 0,
      actor := (db.actorName user.actorID).getD user.displayName,
      email := user.email.getD [], displayName := user.displayName }

/-- The use of a session extends its idle deadline up to the absolute one. -/
def touchSession (db : Identity) (now : Time) (sessionID : ID) : Identity :=
  { db with sessions := db.sessions.map fun row =>
      if row.id = sessionID then
        { row with idleExpiresAt := min row.absoluteExpiresAt (now + row.idleTTLSeconds * 1000000000) }
      else row }

/-- This function loads the principal of a raw session and extends the session. -/
def authenticateSession (db : Identity) (now : Time) (rawSession : GoString) : Option (Principal × Identity) :=
  (opaqueKey (bytes "afs") rawSession).bind fun key =>
    (db.sessions.find? fun row => row.sessionKey == key).bind fun row =>
      (sessionUser db row).bind fun user =>
        if acceptsSession codec now rawSession row then
          some ({ principalForUser db now user with sessionID := row.id, csrfHash := row.csrfHash },
            touchSession db now row.id)
        else none

/-- This function compares the hash of a presented value with that of the session. -/
def validateCSRF (principal : Principal) (rawCSRF : GoString) : Bool :=
  principal.sessionID != 0 && principal.csrfHash != [] && rawCSRF != [] && principal.csrfHash == codec.sha256Hex rawCSRF

end Hash

end AreaFlow.Auth
