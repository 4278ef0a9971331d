import AreaFlow.Library.ServeMux
import AreaFlow.Library.TrimSpace

namespace AreaFlow.Api
open Go

inductive Method where
  | get
  | head
  | post
  | put
  | patch
  | delete
  | connect
  | options
  | trace
  | other (name : GoString)
  deriving DecidableEq

/-- This record holds what the handlers read of a request; the body stays raw until a handler decodes it. -/
structure Request where
  method : Method
  url : URL
  authorization : GoString := []
  sessionCookie : Option GoString := none
  csrfCookie : Option GoString := none
  csrfHeader : GoString := []
  idempotencyHeader : GoString := []
  body : GoString := []

/-- This function copies a request with a rooted path and drops the raw path. -/
def cloneRequestWithPath (r : Request) (path : GoString) (rooted : path = [] ∨ path.head? = some slash) : Request :=
  { r with url := { r.url with path := path, rawPath := [], rooted := rooted, rawRooted := Or.inl rfl } }

/-- This middleware maps the versioned paths to the unversioned ones. -/
def apiVersionAlias (r : Request) : Request :=
  if r.url.path = bytes "/api/v1" then cloneRequestWithPath r (bytes "/api") (by decide)
  else if hasPrefix r.url.path (bytes "/api/v1/") then
    cloneRequestWithPath r (bytes "/api/" ++ trimPrefix r.url.path (bytes "/api/v1/")) (Or.inr rfl)
  else r

/-- These paths need no authentication. -/
def isPublicAuthPath (path : GoString) : Bool :=
  [bytes "/api/health", bytes "/api/ready", bytes "/api/auth/status", bytes "/api/auth/oidc/login",
    bytes "/api/auth/oidc/callback"].contains path

/-- This function chooses the capability that a request needs. -/
def requestCapability (r : Request) : GoString :=
  if hasSuffix r.url.path (bytes "/role-bindings") then bytes "auth.role.manage"
  else if r.url.path = bytes "/api/auth/tokens" then bytes "auth.token.manage"
  else if r.url.path = bytes "/api/auth/logout" then bytes "read"
  else if r.method = .get ∨ r.method = .head then bytes "read"
  else if r.method = .post ∧ hasSuffix r.url.path (bytes "/approvals") = true then bytes "workflow.approval.record"
  else if r.method = .post ∧ hasPrefix r.url.path (bytes "/api/runs/") = true then bytes "run.control"
  else bytes "admin"

/-- This function chooses the project that a request is checked against. -/
def requestProjectKey (r : Request) : GoString :=
  if hasPrefix r.url.path (bytes "/api/projects/") = true ∧ trimPrefix r.url.path (bytes "/api/projects/") ≠ [] then
    cutBefore slash (trimPrefix r.url.path (bytes "/api/projects/"))
  else trimSpace (r.url.queryGet (bytes "project_key"))

end AreaFlow.Api
