import OtelFleet.Auth.History

open Authz (Role)
open Store (UUID Accounts UserError UserWithIdentities)
open Auth (SCIMEmail SCIMPayload nonEmpty)
open Faults (ask call)
open Strings (Casing equalFold trimSpace toLower trim)

namespace Store.Accounts

def listUsers (a : Accounts) : List UserWithIdentities :=
  a.users.map a.withIdentities

def getUserByEmail [Casing] (a : Accounts) (email : String) : Except UserError UserWithIdentities :=
  match a.users.find? fun u => equalFold u.email email with
  | none => .error .notFound
  | some u => .ok (a.withIdentities u)

end Store.Accounts

-- The users as a SCIM resource, over a store that may fail.
namespace Scim

abbrev Calls := Faults.Calls Accounts UserError

def defaultRole (name : String) : Role :=
  (Role.ofName name).getD .viewer

structure UserResource where
  id : UUID
  externalID : String
  userName : String
  formattedName : Option String
  displayName : String
  emails : List (String × Bool)
  active : Bool
deriving DecidableEq

def toResource (u : UserWithIdentities) : UserResource where
  id := u.id
  externalID := u.externalID.getD ""
  userName := u.email
  formattedName := u.displayName.filter (· ≠ "")
  displayName := u.displayName.getD ""
  emails := [(u.email, true)]
  active := u.disabledAt.isNone

structure ListResponse where
  totalResults : Int64
  startIndex : Int64
  itemsPerPage : Nat
  resources : List UserResource
deriving DecidableEq

inductive Reply where
  | resource (status : Nat) (res : UserResource)
  | list (body : ListResponse)
  | noContent
  | error (status : Nat) (detail : String)
  -- The handler has panicked.
  | panicked
deriving DecidableEq

def Reply.isError : Reply → Bool
  | error _ _ => true
  | _ => false

def userNotFound : Reply :=
  .error 404 "user not found"

def internalError : Reply :=
  .error 500 "internal error"

def load : Option UUID → Calls (Except Reply UserWithIdentities)
  | none => return .error userNotFound
  | some id => do
    match ← ask (·.getUserWithIdentities id) with
    | .error .notFound => return .error userNotFound
    | .error _ => return .error internalError
    | .ok u => return .ok u

def andRead (id : UUID) (f : Accounts → Except UserError Accounts) (a : Accounts) :
    Except UserError (UserWithIdentities × Accounts) :=
  match f a with
  | .error e => .error e
  | .ok a' => (a'.getUserWithIdentities id).map (·, a')

section Listing

-- The address in `userName eq "x"`, which is the only filter there is.
def parseUserNameFilter [Casing] (filter : String) : String :=
  let f := trimSpace filter
  if Strings.hasPrefix (toLower f) "username eq " then
    trim (trimSpace (.ofList (f.toList.drop "userName eq ".length))) '"'
  else ""

def atoiDefault (s : String) (dflt : Int64) : Int64 :=
  if s = "" then dflt else (Strconv.atoi s).getD dflt

-- The expression `l[lo:hi]`, which panics when the bounds are out of order or out of range.
def slice {α : Type} (l : List α) (lo hi : Int64) : Option (List α) :=
  if 0 ≤ lo.toInt ∧ lo.toInt ≤ hi.toInt ∧ hi.toInt ≤ l.length then
    some ((l.take hi.toInt.toNat).drop lo.toInt.toNat)
  else none

def startOf (startIndex : String) : Int64 :=
  let start := atoiDefault startIndex 1
  if start < 1 then 1 else start

def countOf (count : String) (total : Int64) : Int64 :=
  let count := atoiDefault count total
  if count < 0 then 0 else count

def lowOf (start total : Int64) : Int64 :=
  let lo := start - 1
  if total < lo then total else lo

def highOf (lo count total : Int64) : Int64 :=
  let hi := lo + count
  if total < hi then total else hi

def listPage (users : List UserWithIdentities) (startIndex count : String) : Reply :=
  let total : Int64 := .ofNat users.length
  let start := startOf startIndex
  let lo := lowOf start total
  match slice users lo (highOf lo (countOf count total) total) with
  | none => .panicked
  | some page => .list {
      totalResults := total
      startIndex := start
      itemsPerPage := page.length
      resources := page.map toResource }

def listUsers [Casing] (filter startIndex count : String) : Calls Reply := do
  let f := parseUserNameFilter filter
  if f ≠ "" then
    let found (resources : List UserResource) : Reply := .list {
      totalResults := .ofNat resources.length
      startIndex := 1
      itemsPerPage := resources.length
      resources := resources }
    match ← ask (·.getUserByEmail f) with
    | .ok u => return found [toResource u]
    | .error .notFound => return found []
    | .error _ => return internalError
  else
    match ← ask (fun a => .ok a.listUsers) with
    | .error _ => return internalError
    | .ok users => return listPage users startIndex count

end Listing

section Writes

structure UserPayload extends SCIMPayload where
  active : Option Bool := none

def createUser [Casing] (role : Role) (newID : UUID) : Option UserPayload → Calls Reply
  | none => return .error 400 "invalid SCIM payload"
  | some p =>
    match p.email? with
    | none => return .error 400 "userName (email) is required"
    | some email => do
      let create (a : Accounts) :=
        a.createSCIMUser newID email role (nonEmpty p.display) (nonEmpty p.externalID)
      match ← call (andRead newID create) with
      | .error .emailExists | .error .conflict =>
        return .error 409 "a user with this userName or externalId already exists"
      | .error _ => return internalError
      | .ok u => return .resource 201 (toResource u)

def getUser (id : Option UUID) : Calls Reply := do
  match ← load id with
  | .error r => return r
  | .ok u => return .resource 200 (toResource u)

def setActive (now : Int) (id : UUID) (active : Bool) : Calls (Except Reply UserWithIdentities) := do
  match ← call (andRead id (·.updateUserAdmin now id { disabled := some !active })) with
  | .error .notFound => return .error userNotFound
  | .error .lastAdmin => return .error (.error 409 "cannot deactivate the last enabled admin")
  | .error _ => return .error internalError
  | .ok u => return .ok u

def updateAttributes (id : UUID) (displayName externalID : Option String) :
    Calls (Except Reply UserWithIdentities) := do
  match ← call (andRead id (·.updateSCIMUser id displayName externalID)) with
  | .error _ => return .error internalError
  | .ok u => return .ok u

def finish (now : Int) (id : UUID) (updated : UserWithIdentities) : Option Bool → Calls Reply
  | none => return .resource 200 (toResource updated)
  | some active => do
    match ← setActive now id active with
    | .error r => return r
    | .ok u => return .resource 200 (toResource u)

def putUser (now : Int) (id : Option UUID) (body : Option UserPayload) : Calls Reply := do
  match ← load id with
  | .error r => return r
  | .ok u =>
    match body with
    | none => return .error 400 "invalid SCIM payload"
    | some p =>
      match ← updateAttributes u.id (nonEmpty p.display) (nonEmpty p.externalID) with
      | .error r => return r
      | .ok updated => finish now u.id updated p.active

def deleteUser (now : Int) (id : Option UUID) : Calls Reply := do
  match ← load id with
  | .error r => return r
  | .ok u =>
    match ← setActive now u.id false with
    | .error r => return r
    | .ok _ => return .noContent

end Writes

section Patch

structure PatchOp where
  op : String
  path : String := ""
  value : Option Json.Value := none

@[ext]
structure Patch where
  active : Option Bool := none
  display : Option String := none
deriving DecidableEq

def unmarshalBool : Option Json.Value → Option Bool
  | some (.bool b) => some b
  | some .null => some false
  | _ => none

def unmarshalString : Option Json.Value → Option String
  | some (.str s) => some s
  | some .null => some ""
  | _ => none

def parseBool (value : Option Json.Value) : Option Bool :=
  match unmarshalBool value with
  | some b => some b
  | none => (unmarshalString value).bind Strconv.parseBool

def unmarshalPointer {α : Type} (decode : Option Json.Value → Option α) : Json.Value → Option (Option α)
  | .null => some none
  | v => (decode (some v)).map some

-- Takes one field of an object, in the order of the text. A field of the wrong type fails it all.
def Patch.takeField [Casing] (p : Patch) (field : String × Json.Value) : Option Patch :=
  if equalFold field.1 "active" then
    (unmarshalPointer unmarshalBool field.2).map fun b => { p with active := b }
  else if equalFold field.1 "displayName" then
    (unmarshalPointer unmarshalString field.2).map fun s => { p with display := s }
  else some p

def unmarshalUser [Casing] : Option Json.Value → Option Patch
  | some (.obj fields) => fields.foldlM Patch.takeField {}
  | some .null => some {}
  | _ => none

def pathOf [Casing] (path : String) : String :=
  toLower (Strings.trimPrefix path "urn:ietf:params:scim:schemas:core:2.0:User:")

def isWrite [Casing] (op : String) : Bool :=
  equalFold op "replace" || equalFold op "add"

-- Operations that remove, and other paths, are ignored.
def Patch.apply [Casing] (p : Patch) (op : PatchOp) : Patch :=
  let path := pathOf op.path
  if ¬isWrite op.op then p
  else if path = "active" then (parseBool op.value).elim p fun b => { p with active := some b }
  else if path = "displayname" then (unmarshalString op.value).elim p fun s => { p with display := some s }
  else if path = "" then
    (unmarshalUser op.value).elim p fun obj =>
      { active := obj.active <|> p.active, display := obj.display <|> p.display }
  else p

def patchOf [Casing] (ops : List PatchOp) : Patch :=
  ops.foldl Patch.apply {}

def applyPatch (now : Int) (u : UserWithIdentities) (p : Patch) : Calls Reply :=
  match p.display with
  | none => finish now u.id u p.active
  | some display => do
    match ← updateAttributes u.id (some display) u.externalID with
    | .error r => return r
    | .ok updated => finish now u.id updated p.active

def patchUser [Casing] (now : Int) (id : Option UUID) (body : Option (List PatchOp)) : Calls Reply := do
  match ← load id with
  | .error r => return r
  | .ok u =>
    match body with
    | none => return .error 400 "invalid SCIM PatchOp"
    | some ops => applyPatch now u (patchOf ops)

end Patch

end Scim
