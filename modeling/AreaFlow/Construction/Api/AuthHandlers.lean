import AreaFlow.Library.Strconv
import AreaFlow.Construction.Auth.Login
import AreaFlow.Construction.Api.Middleware

namespace AreaFlow.Api
open Go Auth

/-- These are the answers of the handlers for tokens and role bindings. -/
inductive AuthResponse where
  | error (status : Nat) (message : GoString)
  | tokens (records : List TokenRecord)
  | createdToken (created : CreatedToken)
  | bindings (projectKey : GoString) (rows : List BindingRow)
  | createdBinding (row : BindingRow)
  | noContent
  deriving DecidableEq

/-- These are the options of a token creation: the creator is the principal, the rest comes from the body. -/
def tokenOptions (principal : Principal) (request : TokenRequest) (expiresAt : Time) : CreateTokenOptions :=
  { actor := request.actor, createdBy := principal.actor, reason := request.reason,
    projects := request.projects, capabilities := request.capabilities,
    expiresAt := some expiresAt, rotatedFrom := request.rotatedFrom }

/-- This function answers a request on the tokens; the principal comes from the middleware. -/
def tokensHandler (server : Server) (principal : Principal) (db : Identity) (now : Time) (parts : TokenParts)
    (r : Request) : Identity × AuthResponse :=
  if !server.sessionAuthenticator then (db, .error 503 (bytes "token service is unavailable"))
  else
    match r.method with
    | .get => (db, .tokens (listTokens db))
    | .post =>
        match server.decodeTokenRequest r.body with
        | none => (db, .error 400 (bytes "invalid service token request"))
        | some request =>
            match server.parseTime request.expiresAt with
            | none => (db, .error 400 (bytes "expires_at must be RFC3339"))
            | some expiresAt =>
                match createToken server.codec server.tokenMaxTTL db now parts
                  (tokenOptions principal request expiresAt) with
                | .error message => (db, .error 400 message)
                | .ok (db', created) => (db', .createdToken created)
    | .delete =>
        match revokeToken db now (trimSpace (r.url.queryGet (bytes "token_key"))) principal.actor
          (trimSpace (r.url.queryGet (bytes "reason"))) with
        | .error message => (db, .error 400 message)
        | .ok (db', _) => (db', .noContent)
    | _ => (db, .error 405 (bytes "method not allowed"))

/-- An empty expiry means none; any other text must be a time. -/
def optionalExpiry (server : Server) (text : GoString) : Option (Option Time) :=
  if text = [] then some none else (server.parseTime text).map some

/-- These are the options of a role grant: project and actor come from the router and the principal. -/
def grantOptions (principal : Principal) (projectKey : GoString) (request : RoleBindingRequest)
    (expiresAt : Option Time) : GrantRoleOptions :=
  { projectKey := projectKey, userID := request.userID, teamID := request.teamID, role := request.role,
    actor := principal.actor, reason := request.reason, expiresAt := expiresAt }

/-- This function answers a request on the role bindings of the project that the router found. -/
def roleBindingsHandler (server : Server) (principal : Principal) (db : Identity) (projectKey : GoString)
    (r : Request) : Identity × AuthResponse :=
  if !server.sessionAuthenticator then (db, .error 503 (bytes "role binding service is unavailable"))
  else
    match r.method with
    | .get => (db, .bindings projectKey (listRoleBindings db projectKey))
    | .post =>
        match server.decodeRoleBindingRequest r.body with
        | none => (db, .error 400 (bytes "invalid role binding request"))
        | some request =>
            match optionalExpiry server request.expiresAt with
            | none => (db, .error 400 (bytes "expires_at must be RFC3339"))
            | some expiresAt =>
                match grantRole db (grantOptions principal projectKey request expiresAt) with
                | .error message => (db, .error 400 message)
                | .ok (db', row) => (db', .createdBinding row)
    | .delete =>
        match parseInt64 (trimSpace (r.url.queryGet (bytes "binding_id"))) with
        | none => (db, .error 400 (bytes "binding_id must be a positive integer"))
        | some bindingID =>
            if bindingID ≤ 0 then (db, .error 400 (bytes "binding_id must be a positive integer"))
            else
              match revokeRole db bindingID principal.actor (r.url.queryGet (bytes "reason")) with
              | .error message => (db, .error 400 message)
              | .ok (db', _) => (db', .noContent)
    | _ => (db, .error 405 (bytes "method not allowed"))

/-- One request carries the time at which it is served, the random parts that it may use and the next
number of the process. -/
structure Input where
  now : Time
  parts : TokenParts
  sequence : Nat := 0
  request : Request

/-- A request on the tokens passes the alias and the middleware before it reaches the handler. -/
def serveTokens (server : Server) (db : Identity) (input : Input) :
    Identity × Option (Principal × AuthResponse) :=
  let r := apiVersionAlias input.request
  match mux.dispatch (r.method == .connect) r.url with
  | .route .tokens =>
      match authMiddleware server db input.now r with
      | (.admitted principal, db') =>
          let answer := tokensHandler server principal db' input.now input.parts r
          (answer.1, some (principal, answer.2))
      | (_, db') => (db', none)
  | _ => (db, none)

/-- A request on the role bindings passes the alias and the middleware before it reaches the handler. -/
def serveRoleBindings (server : Server) (db : Identity) (input : Input) :
    Identity × Option (Principal × AuthResponse) :=
  let r := apiVersionAlias input.request
  match routeProject r with
  | some (.roleBindings projectKey) =>
      match authMiddleware server db input.now r with
      | (.admitted principal, db') =>
          let answer := roleBindingsHandler server principal db' projectKey r
          (answer.1, some (principal, answer.2))
      | (_, db') => (db', none)
  | _ => (db, none)

end AreaFlow.Api
