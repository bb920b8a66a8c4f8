import OtelFleet.Tenants.Accounts

open Store (UUID)
open Store.Keys (Database AuthKey CustomerUpdate)
open Tenants (parseKeyPrefix hashAPIKey KeyBytes)
open Tenants.Accounts (Draw Issued)

-- The service that the gateways ask about the keys that they are shown.
namespace Ingestauth

variable [Runtime]

structure ValidateAPIKeyResponse where
  valid : Bool := false
  customerID : Option UUID := none
  clientID : String := ""
  cacheTTLSeconds : Nat := 0
  rateLimitItemsPerSec : UInt32 := 0
deriving DecidableEq

def cacheTTLSeconds : Nat :=
  30

def expired (k : AuthKey) (now : Int) : Bool :=
  k.expiresAt.any (· ≤ now)

def granted (k : AuthKey) : ValidateAPIKeyResponse where
  valid := true
  customerID := some k.customerID
  clientID := k.clientID
  cacheTTLSeconds := cacheTTLSeconds
  rateLimitItemsPerSec := .ofNat k.rateLimitItemsPerSec

def validateAPIKey (db : Database) (now : Int) (apiKey : String) : ValidateAPIKeyResponse :=
  match parseKeyPrefix apiKey with
  | none => {}
  | some keyPrefix =>
    match (db.activeKeysByPrefix keyPrefix).find? (hashAPIKey apiKey = ·.keyHash) with
    | none => {}
    | some k => if expired k now ∨ k.customerStatus ≠ .active then {} else granted k

section History

structure System where
  db : Database
  now : Int

inductive Event where
  | createCustomer (name : String) (slug : Option String) (draws : Nat → Draw)
  | createAPIKey (customerID : UUID) (name : String) (expiresAt : Option Int) (keyID : UUID) (bytes : KeyBytes)
  | revokeAPIKey (customerID keyID : UUID)
  | updateCustomer (id : UUID) (upd : CustomerUpdate)
  | deleteCustomer (id : UUID)
  | wait (duration : Nat)

-- What the callers are told by the calls that succeed.
inductive Fact where
  | created (customerID : UUID)
  | issued (key : Issued) (expiresAt : Option Int)
  | revoked (customerID keyID : UUID)
  | updated (customerID : UUID) (upd : CustomerUpdate)
  | deleted (customerID : UUID)

def System.empty (now : Int) : System where
  db := { customers := [], keys := [] }
  now := now

def System.settle {ε : Type} (s : System) : Except ε (Database × List Fact) → System × List Fact
  | .ok (db, facts) => ({ s with db := db }, facts)
  | .error _ => (s, [])

def step (s : System) : Event → System × List Fact
  | .createCustomer name slug draws =>
    s.settle <| (Tenants.Accounts.createCustomer s.db name slug draws).map fun r =>
      (r.1, [.created r.2.customerID, .issued r.2 none])
  | .createAPIKey customerID name expiresAt keyID bytes =>
    s.settle <| (Tenants.Accounts.createAPIKey s.db customerID name expiresAt keyID bytes).map fun r =>
      (r.1, [.issued r.2 expiresAt])
  | .revokeAPIKey customerID keyID =>
    s.settle <| (s.db.revokeAPIKey s.now customerID keyID).map (·, [.revoked customerID keyID])
  | .updateCustomer id upd => s.settle <| (Tenants.Accounts.updateCustomer s.db id upd).map (·, [.updated id upd])
  | .deleteCustomer id => s.settle <| (s.db.softDeleteCustomer s.now id).map (·, [.deleted id])
  | .wait duration => ({ s with now := s.now + duration }, [])

-- The state after a history, and all that was told in its course.
def run : System → List Event → System × List Fact
  | s, [] => (s, [])
  | s, e :: es => ((run (step s e).1 es).1, (step s e).2 ++ (run (step s e).1 es).2)

end History

end Ingestauth
