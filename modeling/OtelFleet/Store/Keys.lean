import OtelFleet.Store.Fleet

-- The tables of customers and of their keys, and the transactions on them.
namespace Store.Keys

structure Customer extends Store.Customer where
  rateLimitItemsPerSec : Option Nat

structure APIKey where
  id : UUID
  customerID : UUID
  name : String
  keyPrefix : String
  keyHash : Hash
  expiresAt : Option Int
  revokedAt : Option Int

structure Database where
  customers : List Customer
  keys : List APIKey

inductive Error where
  | notFound
  | slugExists
  | conflict
  | failed (message : String)
deriving DecidableEq

structure NewCustomer where
  id : UUID
  slug : String
  name : String
  clientID : String

structure NewAPIKey where
  id : UUID
  customerID : UUID
  name : String
  keyPrefix : String
  keyHash : Hash
  expiresAt : Option Int := none

structure CustomerUpdate extends Store.CustomerUpdate where
  rateLimitItemsPerSec : Option (Option Nat) := none

structure AuthKey where
  keyID : UUID
  customerID : UUID
  clientID : String
  keyHash : Hash
  customerStatus : CustomerStatus
  expiresAt : Option Int
  rateLimitItemsPerSec : Nat

def NewCustomer.row (c : NewCustomer) : Customer where
  id := c.id
  name := c.name
  slug := c.slug
  clientID := c.clientID
  status := .active
  rateLimitItemsPerSec := none

def NewAPIKey.row (k : NewAPIKey) : APIKey where
  id := k.id
  customerID := k.customerID
  name := k.name
  keyPrefix := k.keyPrefix
  keyHash := k.keyHash
  expiresAt := k.expiresAt
  revokedAt := none

def CustomerUpdate.apply (upd : CustomerUpdate) (c : Customer) : Customer :=
  { c with
    name := upd.name.getD c.name
    status := upd.status.getD c.status
    rateLimitItemsPerSec := upd.rateLimitItemsPerSec.getD c.rateLimitItemsPerSec }

def validRateLimit (n : Nat) : Prop :=
  0 < n ∧ n < 2 ^ 31

instance : DecidablePred validRateLimit :=
  fun _ => inferInstanceAs <| Decidable <| _ ∧ _

def APIKey.revoke (now : Int) (k : APIKey) : APIKey :=
  { k with revokedAt := k.revokedAt.or (some now) }

def APIKey.join (k : APIKey) (c : Customer) : AuthKey where
  keyID := k.id
  customerID := k.customerID
  clientID := c.clientID
  keyHash := k.keyHash
  customerStatus := c.status
  expiresAt := k.expiresAt
  rateLimitItemsPerSec := c.rateLimitItemsPerSec.getD 0

namespace Database

def customer? (db : Database) (id : UUID) : Option Customer :=
  db.customers.find? (·.id = id)

def getCustomer (db : Database) (id : UUID) : Except Error Customer :=
  ((db.customer? id).filter (·.status ≠ .deleted)).elim (.error .notFound) .ok

def insertAPIKey (db : Database) (k : NewAPIKey) : Except Error Database :=
  if (∃ key ∈ db.keys, key.id = k.id) ∨ (db.customer? k.customerID).isNone then .error (.failed "insert api key")
  else .ok { db with keys := db.keys ++ [k.row] }

def createCustomer (db : Database) (c : NewCustomer) (k : NewAPIKey) : Except Error Database :=
  if ∃ d ∈ db.customers, d.id = c.id then .error (.failed "insert customer")
  else if ∃ d ∈ db.customers, d.slug = c.slug then .error .slugExists
  else if ∃ d ∈ db.customers, d.clientID = c.clientID then .error .conflict
  else insertAPIKey { db with customers := db.customers ++ [c.row] } k

def createAPIKey (db : Database) (k : NewAPIKey) : Except Error Database := do
  let _ ← db.getCustomer k.customerID
  db.insertAPIKey k

def revokeAPIKey (db : Database) (now : Int) (customerID keyID : UUID) : Except Error Database :=
  if ∃ k ∈ db.keys, k.id = keyID ∧ k.customerID = customerID then
    .ok { db with keys := db.keys.map fun k =>
      if k.id = keyID ∧ k.customerID = customerID then k.revoke now else k }
  else .error .notFound

def updateCustomer (db : Database) (id : UUID) (upd : CustomerUpdate) : Except Error Database :=
  if ¬(db.customer? id).any (·.status ≠ .deleted) then .error .notFound
  else if ∃ limit ∈ upd.rateLimitItemsPerSec, ∃ n ∈ limit, ¬validRateLimit n then .error (.failed "update customer")
  else .ok { db with customers := db.customers.map fun c => if c.id = id then upd.apply c else c }

-- All keys of the customer are revoked along with it.
def softDeleteCustomer (db : Database) (now : Int) (id : UUID) : Except Error Database :=
  if (db.customer? id).any (·.status ≠ .deleted) then
    .ok {
      customers := db.customers.map fun c => if c.id = id then { c with status := .deleted } else c
      keys := db.keys.map fun k => if k.customerID = id then k.revoke now else k }
  else .error .notFound

def authKey (db : Database) (k : APIKey) : Option AuthKey :=
  (db.customer? k.customerID).map k.join

def activeKeysByPrefix (db : Database) (keyPrefix : String) : List AuthKey :=
  (db.keys.filter fun k => k.keyPrefix = keyPrefix ∧ k.revokedAt = none).filterMap db.authKey

end Database

end Store.Keys
