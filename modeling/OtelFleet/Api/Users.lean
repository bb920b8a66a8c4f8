import OtelFleet.Api.Guard
import OtelFleet.Lib.Faults

open Authz (Role)
open Store (UUID Accounts UserError UserUpdate UserWithIdentities)
open Faults (ask change)
open Strings (Casing)

-- The handlers of user administration, over a store that may fail.
namespace Api.Users

abbrev Calls := Faults.Calls Accounts UserError

structure UserAccount where
  id : UUID
  email : String
  displayName : Option String
  role : Role
  disabled : Bool
  invited : Bool
  identities : List String
  customerIDs : List UUID

def toUserAccount (u : UserWithIdentities) : UserAccount where
  id := u.id
  email := u.email
  displayName := u.displayName
  role := u.role
  disabled := u.disabledAt.isSome
  invited := u.identities = []
  identities := u.identities
  customerIDs := u.customerIDs

structure InviteBody where
  email : String
  role : String
  customerIDs : Option (List UUID) := none

structure UpdateBody where
  role : Option String := none
  disabled : Option Bool := none
  customerIDs : Option (List UUID) := none

inductive Reply where
  | account (status : Nat) (u : UserAccount)
  | error (r : Response)

def Reply.isSuccess : Reply → Bool
  | account _ _ => true
  | error _ => false

def setUserGrants (userID : UUID) (customerIDs : List UUID) : Calls (Except Response Unit) := do
  match ← change (·.setUserCustomerGrants userID customerIDs) with
  | .error .notFound => return .error (badRequest "unknown user or customer in customerIds")
  | .error _ => return .error internalError
  | .ok _ => return .ok ()

section Invite

def InviteBody.check [Casing] (body : InviteBody) : Except Response (String × Role) :=
  let email := Strings.toLower (Strings.trimSpace body.email)
  if email = "" ∨ '@' ∉ email.toList then .error (badRequest "invalid email")
  else
    match Role.ofName body.role with
    | none => .error (badRequest ("unknown role " ++ Strconv.quote Casing.isPrint body.role))
    | some role => .ok (email, role)

def InviteBody.grants (body : InviteBody) (role : Role) : List UUID :=
  if role = .admin then [] else body.customerIDs.getD []

def invitedAccount (id : UUID) (email : String) (role : Role) (customerIDs : List UUID) : UserAccount :=
  toUserAccount { id := id, email := email, role := role, identities := [], customerIDs := customerIDs }

def inviteUser [Casing] (newID : UUID) (body : InviteBody) : Calls Reply :=
  match body.check with
  | .error r => return .error r
  | .ok (email, role) => do
    match ← change (·.createInvitedUser newID email role) with
    | .error .emailExists => return .error (conflict "a user with this email already exists")
    | .error _ => return .error internalError
    | .ok _ =>
      let grants := body.grants role
      if grants = [] then return .account 201 (invitedAccount newID email role [])
      else
        match ← setUserGrants newID grants with
        | .error r => return .error r
        | .ok _ => return .account 201 (invitedAccount newID email role grants)

end Invite

section Update

def UpdateBody.parseRole [Casing] (body : UpdateBody) : Except Response (Option Role) :=
  match body.role with
  | none => .ok none
  | some name =>
    match Role.ofName name with
    | none => .error (badRequest ("unknown role " ++ Strconv.quote Casing.isPrint name))
    | some role => .ok (some role)

def checkSelf (actor userID : UUID) (upd : UserUpdate) : Except Response Unit :=
  if userID ≠ actor then .ok ()
  else if upd.role.any (· ≠ .admin) then .error (conflict "you cannot change your own role")
  else if upd.disabled = some true then .error (conflict "you cannot disable yourself")
  else .ok ()

def UpdateBody.check [Casing] (body : UpdateBody) (actor userID : UUID) : Except Response UserUpdate := do
  let role ← body.parseRole
  let upd := { role := role, disabled := body.disabled }
  if role = none ∧ body.disabled = none ∧ body.customerIDs = none then
    .error (badRequest "nothing to update: provide role, disabled and/or customerIds")
  checkSelf actor userID upd
  return upd

-- Changes the role or disables the user, and reads it back.
def updateAndRead (now : Int) (userID : UUID) (upd : UserUpdate) (a : Accounts) :
    Except UserError (UserWithIdentities × Accounts) :=
  match a.updateUserAdmin now userID upd with
  | .error e => .error e
  | .ok a' => (a'.getUserWithIdentities userID).map (·, a')

def applyUpdate (now : Int) (userID : UUID) (upd : UserUpdate) : Calls Reply := do
  match ← Faults.call (updateAndRead now userID upd) with
  | .error .notFound => return .error (notFound "user not found")
  | .error .lastAdmin => return .error (conflict "this change would leave no enabled admin")
  | .error _ => return .error internalError
  | .ok u => return .account 200 (toUserAccount u)

def showUser (userID : UUID) : Calls Reply := do
  match ← ask (·.getUserWithIdentities userID) with
  | .error .notFound => return .error (notFound "user not found")
  | .error _ => return .error internalError
  | .ok u => return .account 200 (toUserAccount u)

def finishUpdate (now : Int) (userID : UUID) (upd : UserUpdate) : Calls Reply :=
  if upd.role.isSome ∨ upd.disabled.isSome then applyUpdate now userID upd else showUser userID

-- Grants are replaced first, by a transaction of their own.
def updateUser [Casing] (now : Int) (actor userID : UUID) (body : UpdateBody) : Calls Reply :=
  match body.check actor userID with
  | .error r => return .error r
  | .ok upd =>
    match body.customerIDs with
    | none => finishUpdate now userID upd
    | some customerIDs => do
      match ← setUserGrants userID customerIDs with
      | .error r => return .error r
      | .ok _ => finishUpdate now userID upd

end Update

inductive Request where
  | invite (newID : UUID) (body : InviteBody)
  | update (now : Int) (actor userID : UUID) (body : UpdateBody)

def respond [Casing] : Request → Calls Reply
  | .invite newID body => inviteUser newID body
  | .update now actor userID body => updateUser now actor userID body

end Api.Users
