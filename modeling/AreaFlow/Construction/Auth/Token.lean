import AreaFlow.Library.Json
import AreaFlow.Library.NetURL
import AreaFlow.Construction.Auth.Rbac

namespace AreaFlow.Auth
open Go

/-- This byte separates the parts of a raw credential. -/
def underscore : UInt8 := 95

/-- These bytes are the alphabet of the raw URL encoding. -/
def isBase64URL (b : UInt8) : Bool :=
  (97 ≤ b && b ≤ 122) || (65 ≤ b && b ≤ 90) || (48 ≤ b && b ≤ 57) || b == 45 || b == 95

/-- This function is the length of a decoded secret; line breaks are skipped. -/
def rawURLDecodedLen (s : GoString) : Option Nat :=
  let digits := s.filter fun b => b != 10 && b != 13
  if digits.all isBase64URL && digits.length % 4 != 1 then some (digits.length * 6 / 8) else none

/-- This function splits a raw credential into its kind, key and secret. -/
def opaqueParts (raw : GoString) : Option (GoString × GoString × GoString) :=
  match split underscore raw with
  | kind :: key :: first :: rest => some (kind, key, [underscore].intercalate (first :: rest))
  | _ => none

/-- This function checks the form of a raw credential of a kind and returns its key. -/
def opaqueKey (kind raw : GoString) : Option GoString :=
  match opaqueParts raw with
  | none => none
  | some (first, key, secret) =>
      if first = kind ∧ key.length = 24 ∧ 40 ≤ secret.length ∧ (key.all fun b => (unhex b).isSome) = true ∧
          (rawURLDecodedLen secret).isSome = true then some key
      else none

/-- A token key is an opaque key whose secret has exactly 32 bytes. -/
def tokenKeyFromRaw (raw : GoString) : Option GoString :=
  match opaqueKey (bytes "af") raw, opaqueParts raw with
  | some key, some (_, _, secret) => if rawURLDecodedLen secret = some 32 then some key else none
  | _, _ => none

structure CreateTokenOptions where
  actor : GoString
  reason : GoString
  projects : List GoString
  capabilities : List GoString
  expiresAt : Option Time
  createdBy : GoString
  rotatedFrom : ID
  deriving DecidableEq

/-- These are the random parts of a new token. -/
structure TokenParts where
  key : GoString
  secret : GoString
  deriving DecidableEq

structure CreatedToken where
  token : GoString
  row : TokenRow
  deriving DecidableEq

/-- A service token lives at most ninety days. -/
def maxTokenTTL : Nat := 90 * 24 * 3600 * 1000000000

/-- These are the external encodings: the hexadecimal SHA-256 digest, the encoded scope that is stored, the
text form in which the store returns it, encoded metadata, the lower case of the database and the case tables. -/
structure Codec where
  sha256Hex : GoString → GoString
  scopeJSON : List GoString → List GoString → GoString
  scopeText : List GoString → List GoString → GoString
  marshal : Metadata → GoString
  lowerText : GoString → GoString
  cases : CaseTables

/-- This is the JSON form of a value in runs on fixed inputs. -/
def sampleValue : MetaValue → GoString
  | .text value => Json.quote value
  | .number value => bytes (toString value)
  | .numbers values => bytes (toString values)
  | .flag value => bytes (toString value)
  | .texts values => Json.array values
  | .time value => value.elim (bytes "null") fun time => Json.quote (bytes (toString time))
  | .json encoded => encoded

def sampleScope (projects capabilities : List GoString) : GoString :=
  Json.object [(bytes "projects", Json.array projects), (bytes "capabilities", Json.array capabilities)]

/-- This codec stands for the encodings in runs on fixed inputs. -/
def sampleCodec : Codec where
  sha256Hex := Json.digest
  scopeJSON := sampleScope
  scopeText := sampleScope
  marshal metadata := Json.object (metadata.map fun entry => (entry.1, sampleValue entry.2))
  lowerText := lowerASCII
  cases := asciiCase

section Hash

variable (codec : Codec)

/-- These are the checks of a token creation in their order; the result is the expiry. -/
def checkToken (tokenMaxTTL : Nat) (db : Identity) (now : Time) (parts : TokenParts) (options : CreateTokenOptions) :
    Except GoString Time :=
  if trimSpace options.actor = [] ∨ trimSpace options.reason = [] then .error (bytes "actor and reason are required")
  else if normalize options.projects = [] ∨ normalize options.capabilities = [] then
    .error (bytes "at least one project and capability are required")
  else
    match options.expiresAt with
    | none => .error (bytes "service token expiration is required")
    | some expiresAt =>
        if tokenMaxTTL = 0 ∨ maxTokenTTL < tokenMaxTTL then
          .error (bytes "service token max TTL must be between 1ns and 2160h")
        else if expiresAt ≤ now ∨ now + tokenMaxTTL < expiresAt then
          .error (bytes "service token expiration must be in the future and no more than")
        else if (db.tokens.any fun row => row.tokenKey == parts.key) ||
            (options.rotatedFrom != 0 && !db.tokens.any fun row => row.id == options.rotatedFrom) then
          .error (bytes "insert API token")
        else .ok expiresAt

/-- These are the actor of a token and the actor that creates it, which is the same without a creator. -/
def tokenActors (db : Identity) (options : CreateTokenOptions) : Identity × ID × ID :=
  let owned := ensureActor db (trimSpace options.actor)
  if trimSpace options.createdBy = [] then (owned.1, owned.2, owned.2)
  else
    let created := ensureActor owned.1 (trimSpace options.createdBy)
    (created.1, owned.2, created.2)

/-- This is the stored row of a new token, with the normalized scope of the request. -/
def newTokenRow (db : Identity) (now : Time) (parts : TokenParts) (options : CreateTokenOptions) (expiresAt : Time) :
    TokenRow where
  id := freshID (db.tokens.map (·.id))
  actorID := some (tokenActors db options).2.1
  tokenKey := parts.key
  tokenHash := codec.sha256Hex (bytes "af_" ++ parts.key ++ bytes "_" ++ parts.secret)
  projects := normalize options.projects
  capabilities := normalize options.capabilities
  status := .active
  expiresAt := some expiresAt
  createdByActorID := some (tokenActors db options).2.2
  rotatedFromTokenID := if options.rotatedFrom = 0 then none else some options.rotatedFrom
  reason := trimSpace options.reason
  createdAt := now
  revokedAt := none

/-- This is the audit row of a new token. -/
def newTokenAudit (row : TokenRow) (rotatedFrom : ID) : AuditRow where
  projectID := none
  actorID := row.createdByActorID
  action := bytes "auth.token.create"
  capability := bytes "auth.token.manage"
  resourceType := bytes "api_token"
  resource := row.tokenKey
  decision := bytes "allowed"
  reason := row.reason
  metadata :=
    [(bytes "token_key", .text row.tokenKey),
      (bytes "scope_hash", .text (codec.sha256Hex (codec.scopeJSON row.projects row.capabilities))),
      (bytes "projects", .texts row.projects), (bytes "capabilities", .texts row.capabilities),
      (bytes "expires_at", .time row.expiresAt), (bytes "rotated_from_token_id", .number rotatedFrom)]

/-- This function creates a service token; nothing compares its scope with that of the creator. -/
def createToken (tokenMaxTTL : Nat) (db : Identity) (now : Time) (parts : TokenParts) (options : CreateTokenOptions) :
    Outcome CreatedToken :=
  (checkToken tokenMaxTTL db now parts options).map fun expiresAt =>
    let row := newTokenRow codec db now parts options expiresAt
    let db' := (tokenActors db options).1
    ({ db' with
      tokens := db'.tokens ++ [row]
      audits := appendAudit db'.audits (newTokenAudit codec row options.rotatedFrom) },
      { token := bytes "af_" ++ parts.key ++ bytes "_" ++ parts.secret, row := row })

/-- A stored token accepts its raw form while it is active and unexpired. -/
def acceptsToken (now : Time) (rawToken : GoString) (row : TokenRow) : Bool :=
  row.tokenHash == codec.sha256Hex rawToken && row.status == .active &&
    (match row.expiresAt with | none => true | some deadline => decide (now < deadline))

/-- This function loads the principal of a raw token. -/
def authenticate (db : Identity) (now : Time) (rawToken : GoString) : Option Principal :=
  (tokenKeyFromRaw rawToken).bind fun key =>
    (db.tokens.find? fun row => row.tokenKey == key).bind fun row =>
      if acceptsToken codec now rawToken row = true ∧ normalize row.projects ≠ [] ∧
          normalize row.capabilities ≠ [] then
        some { tokenID := row.id, tokenKey := row.tokenKey, actorID := row.actorID.getD 0,
               actor := (db.actorName row.actorID).getD (bytes "token-user"), authMode := .token,
               projects := normalize row.projects, capabilities := normalize row.capabilities,
               scopeHash := codec.sha256Hex (codec.scopeText row.projects row.capabilities) }
      else none

end Hash

/-- This is one entry of the token list. -/
structure TokenRecord where
  id : ID
  tokenKey : GoString
  actor : GoString
  projects : List GoString
  capabilities : List GoString
  status : RowStatus
  expiresAt : Option Time
  createdAt : Time
  revokedAt : Option Time
  deriving DecidableEq

/-- This function lists all tokens, newest first. -/
def listTokens (db : Identity) : List TokenRecord :=
  (db.tokens.map fun row =>
    { id := row.id, tokenKey := row.tokenKey, actor := (db.actorName row.actorID).getD (bytes "token-user"),
      projects := normalize row.projects, capabilities := normalize row.capabilities, status := row.status,
      expiresAt := row.expiresAt, createdAt := row.createdAt, revokedAt := row.revokedAt }).reverse

/-- This is the row of an active token after its revocation. -/
def revokedToken (now : Time) (tokenKey : GoString) (row : TokenRow) : TokenRow :=
  if row.tokenKey = tokenKey ∧ row.status = .active then { row with status := .revoked, revokedAt := some now } else row

/-- These are the checks of a token revocation. -/
def checkRevokeToken (db : Identity) (tokenKey actor reason : GoString) : Except GoString Unit :=
  if tokenKey = [] ∨ actor = [] ∨ reason = [] then .error (bytes "token key, actor and reason are required")
  else if (db.tokens.filter fun row => row.tokenKey == tokenKey && row.status == .active).length ≠ 1 then
    .error (bytes "active API token not found: " ++ tokenKey)
  else .ok ()

/-- This function revokes an active token by its global key. -/
def revokeToken (db : Identity) (now : Time) (tokenKey actor reason : GoString) : Outcome Unit :=
  (checkRevokeToken db (trimSpace tokenKey) (trimSpace actor) (trimSpace reason)).map fun _ =>
    let owned := ensureActor db (trimSpace actor)
    ({ owned.1 with
      tokens := owned.1.tokens.map (revokedToken now (trimSpace tokenKey))
      audits := appendAudit owned.1.audits {
        projectID := none, actorID := some owned.2, action := bytes "auth.token.revoke",
        capability := bytes "auth.token.manage", resourceType := bytes "api_token", resource := trimSpace tokenKey,
        decision := bytes "allowed", reason := trimSpace reason, metadata := [] } }, ())

end AreaFlow.Auth
