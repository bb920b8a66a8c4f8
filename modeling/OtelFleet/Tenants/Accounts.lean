import OtelFleet.Store.Keys
import OtelFleet.Tenants.Keys
import OtelFleet.Tenants.Customers
import OtelFleet.Tenants.Service

open Store (UUID)
open Store.Keys (Database NewCustomer NewAPIKey CustomerUpdate)

-- The service for customers and their keys.
namespace Tenants.Accounts

variable [Runtime]

inductive Error where
  | invalidName
  | invalidSlug
  | noFreeSlug (baseSlug : String)
  | store (e : Store.Keys.Error)

structure Draw where
  customerID : UUID
  keyID : UUID
  clientBytes : Vector UInt8 4
  keyBytes : KeyBytes

structure Issued where
  customerID : UUID
  keyID : UUID
  secret : String
deriving DecidableEq

def ofStore {α : Type} : Except Store.Keys.Error α → Except Error α
  | .ok x => .ok x
  | .error e => .error (.store e)

def Draw.newCustomer (d : Draw) (name slug : String) : NewCustomer where
  id := d.customerID
  slug := slug
  name := name
  clientID := newClientID d.clientBytes

def Draw.newKey (d : Draw) : NewAPIKey where
  id := d.keyID
  customerID := d.customerID
  name := "default"
  keyPrefix := (generateAPIKey d.keyBytes).keyPrefix
  keyHash := (generateAPIKey d.keyBytes).hash

def Draw.issued (d : Draw) : Issued where
  customerID := d.customerID
  keyID := d.keyID
  secret := (generateAPIKey d.keyBytes).secret

-- The attempts that are left. A derived slug gets a suffix when it is taken; a client ID that is taken
-- is drawn again.
def tryCreate (db : Database) (name baseSlug : String) (derived : Bool) (draws : Nat → Draw) :
    Nat → Nat → String → Except Error (Database × Issued)
  | 0, _, _ => .error (.noFreeSlug baseSlug)
  | left + 1, attempt, trySlug =>
    match db.createCustomer ((draws attempt).newCustomer name trySlug) (draws attempt).newKey with
    | .ok db' => .ok (db', (draws attempt).issued)
    | .error .slugExists =>
      if derived then
        tryCreate db name baseSlug derived draws left (attempt + 1) (baseSlug ++ "-" ++ Strconv.itoa (attempt + 1))
      else .error (.store .slugExists)
    | .error .conflict => tryCreate db name baseSlug derived draws left (attempt + 1) trySlug
    | .error e => .error (.store e)

def createCustomer (db : Database) (name : String) (slug : Option String) (draws : Nat → Draw) :
    Except Error (Database × Issued) :=
  let name := Strings.trimSpace name
  if name = "" ∨ 200 < name.utf8ByteSize then .error .invalidName
  else
    match slug with
    | none => tryCreate db name (deriveSlug name) true draws maxAttempts 1 (deriveSlug name)
    | some slug =>
      if validSlug slug then tryCreate db name slug false draws maxAttempts 1 slug else .error .invalidSlug

def createAPIKey (db : Database) (customerID : UUID) (name : String) (expiresAt : Option Int) (keyID : UUID)
    (bytes : KeyBytes) : Except Error (Database × Issued) :=
  let name := Strings.trimSpace name
  if name = "" ∨ 200 < name.utf8ByteSize then .error .invalidName
  else
    let key := generateAPIKey bytes
    (ofStore <| db.createAPIKey {
      id := keyID
      customerID := customerID
      name := name
      keyPrefix := key.keyPrefix
      keyHash := key.hash
      expiresAt := expiresAt }).map (·, { customerID := customerID, keyID := keyID, secret := key.secret })

def updateCustomer (db : Database) (id : UUID) (upd : CustomerUpdate) : Except Error Database :=
  match checkName upd.name with
  | .error _ => .error .invalidName
  | .ok name => ofStore (db.updateCustomer id { upd with name := name })

end Tenants.Accounts
