import OtelFleet.Authz
import OtelFleet.Store.Tables

open Authz (Role)

-- The tables around users, and the transactions on them.
namespace Store

structure User where
  id : UUID
  email : String
  displayName : Option String := none
  role : Role
  externalID : Option String := none
  disabledAt : Option Int := none
  lastLoginAt : Option Int := none
deriving DecidableEq

structure Identity where
  userID : UUID
  provider : String
  subject : String
deriving DecidableEq

structure Grant where
  userID : UUID
  customerID : UUID
deriving DecidableEq

structure Accounts where
  customers : List UUID
  users : List User
  identities : List Identity := []
  grants : List Grant := []
deriving DecidableEq

inductive UserError where
  | notFound
  | emailExists
  | conflict
  | lastAdmin
  | failed (message : String)
deriving DecidableEq

structure UserWithIdentities extends User where
  identities : List String
  customerIDs : List UUID
deriving DecidableEq

structure UserUpdate where
  role : Option Role := none
  disabled : Option Bool := none

namespace User

def isEnabledAdmin (u : User) : Bool :=
  u.role = .admin && u.disabledAt.isNone

def setDisabled (u : User) (now : Int) (disabled : Bool) : User :=
  { u with disabledAt := if disabled then some (u.disabledAt.getD now) else none }

def update (u : User) (now : Int) (upd : UserUpdate) : User :=
  let u := upd.role.elim u fun role => { u with role := role }
  upd.disabled.elim u (u.setDisabled now)

end User

namespace Accounts

section Queries

variable (a : Accounts)

def user? (id : UUID) : Option User :=
  a.users.find? (·.id = id)

def getUser (id : UUID) : Except UserError User :=
  (a.user? id).elim (.error .notFound) .ok

-- The customers that a user is limited to. A user without any is not limited.
def listUserCustomerIDs (userID : UUID) : List UUID :=
  (a.grants.filter (·.userID = userID)).map (·.customerID)

def withIdentities (u : User) : UserWithIdentities where
  toUser := u
  identities := ((a.identities.filter (·.userID = u.id)).map (·.provider)).insertionSort (· ≤ ·)
  customerIDs := a.listUserCustomerIDs u.id

def getUserWithIdentities (id : UUID) : Except UserError UserWithIdentities :=
  (a.getUser id).map a.withIdentities

def hasEnabledAdmin : Bool :=
  a.users.any (·.isEnabledAdmin)

end Queries

section Transactions

variable (a : Accounts)

def insertUser (u : User) : Except UserError Accounts :=
  if ∃ v ∈ a.users, v.email = u.email then .error .emailExists
  else if u.externalID.isSome ∧ ∃ v ∈ a.users, v.externalID = u.externalID then .error .conflict
  else if (a.user? u.id).isSome then .error (.failed "insert user")
  else .ok { a with users := a.users ++ [u] }

-- A user without any identity, which the first login through a provider links by the address.
def createInvitedUser (id : UUID) (email : String) (role : Role) : Except UserError Accounts :=
  a.insertUser { id := id, email := email, role := role }

def createSCIMUser (id : UUID) (email : String) (role : Role) (displayName externalID : Option String) :
    Except UserError Accounts :=
  a.insertUser { id := id, email := email, role := role, displayName := displayName, externalID := externalID }

def modifyUser (id : UUID) (f : User → User) : Accounts :=
  { a with users := a.users.map fun u => if u.id = id then f u else u }

def updateSCIMUser (id : UUID) (displayName externalID : Option String) : Except UserError Accounts :=
  if (a.user? id).isNone then .error .notFound
  else if externalID.isSome ∧ ∃ v ∈ a.users, v.id ≠ id ∧ v.externalID = externalID then
    .error (.failed "update scim user")
  else .ok (a.modifyUser id fun u => { u with displayName := displayName, externalID := externalID })

def insertGrants (userID : UUID) : List UUID → Accounts → Except UserError Accounts
  | [], a => .ok a
  | cid :: cids, a =>
    if cid ∉ a.customers then .error .notFound
    else
      let grant := { userID := userID, customerID := cid }
      insertGrants userID cids (if grant ∈ a.grants then a else { a with grants := a.grants ++ [grant] })

def setUserCustomerGrants (userID : UUID) (customerIDs : List UUID) : Except UserError Accounts :=
  if (a.user? userID).isNone then .error .notFound
  else insertGrants userID customerIDs { a with grants := a.grants.filter (·.userID ≠ userID) }

def ensureEnabledAdminRemains : Except UserError Accounts :=
  if a.hasEnabledAdmin then .ok a else .error .lastAdmin

def updateUserAdmin (now : Int) (id : UUID) (upd : UserUpdate) : Except UserError Accounts :=
  if (a.user? id).isNone then .error .notFound
  else (a.modifyUser id (·.update now upd)).ensureEnabledAdminRemains

def removeUser (id : UUID) : Accounts :=
  { a with
    users := a.users.filter (·.id ≠ id)
    identities := a.identities.filter (·.userID ≠ id)
    grants := a.grants.filter (·.userID ≠ id) }

def userByIdentity (provider subject : String) : Option User :=
  (a.identities.find? fun i => i.provider = provider ∧ i.subject = subject).bind fun i => a.user? i.userID

def linkIdentity (newID : UUID) (provider subject email : String) (displayName : Option String) (roleIfNew : Role) :
    Except UserError (UUID × Accounts) :=
  let link (a : Accounts) (id : UUID) : Except UserError (UUID × Accounts) :=
    if ∃ i ∈ a.identities, i.provider = provider ∧ i.subject = subject then .error (.failed "insert identity")
    else .ok (id,
      { a with identities := a.identities ++ [{ userID := id, provider := provider, subject := subject }] })
  match a.users.find? (·.email = email) with
  | some u => link a u.id
  | none =>
    match a.insertUser { id := newID, email := email, displayName := displayName, role := roleIfNew } with
    | .error e => .error e
    | .ok a => link a newID

-- Resolves a verified identity to a user, and stamps the login. Admins of the environment become
-- admins, and everyone else keeps the role.
def upsertUserByIdentity (now : Int) (newID : UUID) (provider subject email : String)
    (displayName : Option String) (roleIfNew : Role) : Except UserError (User × Accounts) :=
  let stamp (r : UUID × Accounts) : Except UserError (User × Accounts) :=
    let a := r.2.modifyUser r.1 fun u =>
      { u with role := if roleIfNew = .admin then .admin else u.role, lastLoginAt := some now }
    (a.getUser r.1).map (·, a)
  match a.userByIdentity provider subject with
  | some u => stamp (u.id, a)
  | none =>
    match a.linkIdentity newID provider subject email displayName roleIfNew with
    | .error e => .error e
    | .ok r => stamp r

end Transactions

end Accounts
end Store
