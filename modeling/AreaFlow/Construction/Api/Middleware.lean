import AreaFlow.Construction.Auth.Session
import AreaFlow.Construction.Api.Routes

namespace AreaFlow.Api
open Go Auth

/-- This is the body of a service token request. -/
structure TokenRequest where
  actor : GoString
  reason : GoString
  projects : List GoString
  capabilities : List GoString
  expiresAt : GoString
  rotatedFrom : ID
  deriving DecidableEq

/-- This is the body of a role binding request. -/
structure RoleBindingRequest where
  userID : ID
  teamID : ID
  role : GoString
  reason : GoString
  expiresAt : GoString
  deriving DecidableEq

/-- Authentication is off, by token, or by login with tokens. -/
inductive AuthConfig where
  | disabled
  | token
  | oidc
  deriving DecidableEq

/-- This record holds the configuration of a server and the external decoders that its handlers use. -/
structure Server where
  authConfig : AuthConfig
  authenticator : Bool := true
  sessionAuthenticator : Bool := true
  tokenMaxTTL : Nat
  codec : Codec
  parseTime : GoString → Option Time
  decodeTokenRequest : GoString → Option TokenRequest
  decodeRoleBindingRequest : GoString → Option RoleBindingRequest

/-- One step of the splitter ends a word at white space and extends it otherwise. -/
def fieldsFrom : Nat → GoString → GoString → List GoString
  | 0, word, _ => if word = [] then [] else [word]
  | _ + 1, word, [] => if word = [] then [] else [word]
  | fuel + 1, word, b :: rest =>
      match stripOne spaceRunes (b :: rest) with
      | some after => (if word = [] then [] else [word]) ++ fieldsFrom fuel [] after
      | none => fieldsFrom fuel (word ++ [b]) rest

/-- This function is `strings.Fields`. -/
def fields (s : GoString) : List GoString := fieldsFrom s.length [] s

/-- This function reads the token of an authorization header. The compared word has no letter with another case partner. -/
def bearerToken (header : GoString) : Option GoString :=
  match fields (trimSpace header) with
  | [scheme, token] => if lowerASCII scheme = bytes "bearer" ∧ token ≠ [] then some token else none
  | _ => none

/-- A request passes without a principal, passes with one, or is refused with a status and a message. -/
inductive Admission where
  | unguarded
  | admitted (principal : Principal)
  | refused (status : Nat) (message : GoString)
  deriving DecidableEq

/-- This is the caller of a server without authentication. -/
def localPrincipal : Principal :=
  { actor := bytes "local-user", projects := [bytes "*"], capabilities := [bytes "*"] }

/-- A session may change something only with the value of its second cookie in a header. -/
def csrfPassed (server : Server) (principal : Principal) (r : Request) : Bool :=
  let header := trimSpace r.csrfHeader
  match r.csrfCookie with
  | none => false
  | some cookie => header != [] && header == cookie && validateCSRF server.codec principal header

/-- This is the first half of the middleware: who sends the request. -/
def identify (server : Server) (db : Identity) (now : Time) (r : Request) : Admission × Identity :=
  match bearerToken r.authorization with
  | some rawToken =>
      if !server.authenticator then (.refused 503 (bytes "token authentication is unavailable"), db)
      else
        match authenticate server.codec db now rawToken with
        | none => (.refused 401 (bytes "invalid bearer token"), db)
        | some principal => (.admitted principal, db)
  | none =>
      if server.authConfig = .oidc then
        if !server.sessionAuthenticator then (.refused 503 (bytes "session authentication is unavailable"), db)
        else
          match r.sessionCookie with
          | none => (.refused 401 (bytes "web session is required"), db)
          | some cookie =>
              match authenticateSession server.codec db now cookie with
              | none => (.refused 401 (bytes "invalid web session"), db)
              | some (principal, db') =>
                  if r.method ≠ .get ∧ r.method ≠ .head ∧ r.method ≠ .options ∧
                      csrfPassed server principal r = false then
                    (.refused 403 (bytes "CSRF validation failed"), db')
                  else (.admitted principal, db')
      else (.refused 401 (bytes "bearer token is required"), db)

/-- This is the second half of the middleware: may the principal send this request. -/
def authorize (principal : Principal) (r : Request) : Admission :=
  if !principal.allowsCapability (requestCapability r) then .refused 403 (bytes "capability is not allowed")
  else if requestProjectKey r ≠ [] ∧ principal.allowsProject (requestProjectKey r) = false then
    .refused 404 (bytes "project not found")
  else if requestProjectKey r = [] ∧ r.url.path ≠ bytes "/api/projects" ∧ r.url.path ≠ bytes "/api/auth/me" ∧
      r.url.path ≠ bytes "/api/auth/logout" ∧ principal.allowsProject (bytes "*") = false then
    .refused 403 (bytes "global resource access is not allowed")
  else .admitted principal

/-- This function is the authentication middleware on a request that the version alias has rewritten. -/
def authMiddleware (server : Server) (db : Identity) (now : Time) (r : Request) : Admission × Identity :=
  if isPublicAuthPath r.url.path then (.unguarded, db)
  else if server.authConfig = .disabled then (.admitted localPrincipal, db)
  else
    match identify server db now r with
    | (.admitted principal, db') => (authorize principal r, db')
    | (other, db') => (other, db')

end AreaFlow.Api
