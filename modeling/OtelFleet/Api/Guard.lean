import OtelFleet.Api.Pipelines
import OtelFleet.Store.Users
import OtelFleet.Tenants.Tokens

open Authz (Role)
open Store (UUID User)

-- The middleware in front of the handlers.
namespace Api

inductive Method where
  | get
  | post
  | put
  | patch
  | delete
deriving DecidableEq

def isMutating : Method → Bool
  | .get => false
  | _ => true

-- A request as far as the guard looks at it: whose session it belongs to, and whether its token
-- against forgery is the one of the session.
structure Incoming where
  method : Method
  path : String
  authorization : String := ""
  session : Option UUID := none
  validCSRF : Bool := false

def publicPaths : List String :=
  ["/api/v1/auth/providers", "/api/v1/auth/dev-login"]

def logoutPath : String :=
  "/api/v1/auth/logout"

def adminPathPrefixes : List String := [
  "/api/v1/users",
  "/api/v1/settings/auth-providers",
  "/api/v1/settings/api-tokens",
  "/api/v1/settings/billing",
  "/api/v1/billing",
  "/api/v1/audit"]

def isAdminOnlyPath (path : String) : Bool :=
  adminPathPrefixes.any fun p => path = p || Strings.hasPrefix path (p ++ "/")

structure APITokenAuth where
  role : Role
  createdBy : Option UUID
  tokenHash : List UInt8
  expiresAt : Option Int

structure GuardStore where
  getUser : UUID → Except Store.UserError User
  listUserCustomerIDs : UUID → Except Store.UserError (List UUID)
  activeAPITokensByPrefix : String → Except Store.UserError (List APITokenAuth)

def GuardStore.of (a : Store.Accounts) : GuardStore where
  getUser := a.getUser
  listUserCustomerIDs id := .ok (a.listUserCustomerIDs id)
  activeAPITokensByPrefix _ := .ok []

def unauthorized (message : String) : Response :=
  .error 401 "unauthorized" message

def forbiddenBy (message : String) : Response :=
  .error 403 "forbidden" message

section Tokens

def looksLikeAPIToken (authorization : String) : Bool :=
  (Strings.cutPrefix authorization "Bearer ").any fun raw => (Tenants.parseAPITokenPrefix raw).isSome

def authenticateAPIToken [Runtime] (store : GuardStore) (now : Int) (authorization : String) :
    Option (Role × Option UUID) := do
  let raw ← Strings.cutPrefix authorization "Bearer "
  if raw = "" then none
  let start ← Tenants.parseAPITokenPrefix raw
  let toks ← (store.activeAPITokensByPrefix start).toOption
  let tok ← toks.find? (·.tokenHash = Tenants.hashAPIKey raw)
  if tok.expiresAt.any (· ≤ now) then none else some (tok.role, tok.createdBy)

end Tokens

def checkRole (r : Incoming) (role : Role) : Except Response Unit :=
  if isAdminOnlyPath r.path && !role.atLeast .admin then .error (forbiddenBy "requires admin role")
  else .ok ()

def checkMutation (r : Incoming) (role : Role) : Except Response Unit :=
  if isMutating r.method && r.path ≠ logoutPath && !role.canMutate then
    .error (forbiddenBy "requires operator or admin role")
  else .ok ()

-- Admins are never limited to customers, nor are users without any grant.
def principalOf (store : GuardStore) (user : User) : Except Response Principal :=
  if user.role.atLeast .admin then
    .ok { userID := some user.id, allCustomers := true, allowedCustomers := [] }
  else
    match store.listUserCustomerIDs user.id with
    | .error _ => .error internalError
    | .ok grants =>
      .ok { userID := some user.id, allCustomers := grants = [], allowedCustomers := grants }

-- A session is checked before the role, and a mutation by it has to prove that it is no forgery.
def guardSession (store : GuardStore) (r : Incoming) : Except Response Principal :=
  match r.session with
  | none => .error (unauthorized "authentication required")
  | some userID =>
    match store.getUser userID with
    | .error .notFound => .error (unauthorized "unknown user")
    | .error _ => .error internalError
    | .ok user =>
      if user.disabledAt.isSome then .error (unauthorized "account disabled")
      else do
        checkRole r user.role
        if isMutating r.method && !r.validCSRF then .error (forbiddenBy "missing or invalid CSRF token")
        checkMutation r user.role
        principalOf store user

variable [Runtime]

def guardToken (store : GuardStore) (now : Int) (r : Incoming) : Except Response Principal :=
  match authenticateAPIToken store now r.authorization with
  | none => .error (unauthorized "invalid API token")
  | some (role, createdBy) => do
    checkRole r role
    checkMutation r role
    .ok { userID := createdBy, allCustomers := true, allowedCustomers := [] }

def guard (store : GuardStore) (now : Int) (r : Incoming) : Except Response (Option Principal) :=
  if r.path ∈ publicPaths then .ok none
  else if looksLikeAPIToken r.authorization then (guardToken store now r).map some
  else (guardSession store r).map some

end Api
