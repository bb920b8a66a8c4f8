import OtelFleet.Lib.SliceMap
import Mathlib.Data.String.Basic

-- The processor that stamps the identity of the authenticated tenant onto resources.
namespace Tenantstamp

def attrTenantID : String :=
  "tenant.id"

def attrClientID : String :=
  "client.id"

def attrCustomerID : String :=
  "customer.id"

structure Identity where
  tenantID : String
  clientID : String
  customerID : String
deriving DecidableEq

abbrev AuthData := String → Option String

def attrString (auth : AuthData) (name : String) : String :=
  (auth name).getD ""

def identityFromContext (auth : Option AuthData) : Option Identity :=
  match auth with
  | none => none
  | some auth =>
    let id : Identity :=
      { tenantID := attrString auth attrTenantID
        clientID := attrString auth attrClientID
        customerID := attrString auth attrCustomerID }
    if id.tenantID = "" then none else some id

class Values (α : Type) where
  str : String → α

structure Resource (α β : Type) where
  attributes : List (String × α)
  telemetry : β

section Stamp

variable {α β : Type} [Values α]

def putStr (key value : String) (attrs : List (String × α)) : List (String × α) :=
  SliceMap.put key (Values.str value) attrs

def stamp (attrs : List (String × α)) (id : Identity) : List (String × α) :=
  let attrs := SliceMap.remove attrTenantID attrs
  let attrs := SliceMap.remove attrClientID attrs
  let attrs := SliceMap.remove attrCustomerID attrs
  let attrs := putStr attrTenantID id.tenantID attrs
  let attrs := if id.clientID ≠ "" then putStr attrClientID id.clientID attrs else attrs
  if id.customerID ≠ "" then putStr attrCustomerID id.customerID attrs else attrs

def process (auth : Option AuthData) (batch : List (Resource α β)) : Option (List (Resource α β)) :=
  (identityFromContext auth).map fun id =>
    batch.map fun r => { r with attributes := stamp r.attributes id }

variable {Spans Records Points : Type}

def processTraces : Option AuthData → List (Resource α Spans) → Option (List (Resource α Spans)) :=
  process

def processLogs : Option AuthData → List (Resource α Records) → Option (List (Resource α Records)) :=
  process

def processMetrics : Option AuthData → List (Resource α Points) → Option (List (Resource α Points)) :=
  process

end Stamp

end Tenantstamp
