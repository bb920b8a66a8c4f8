import OtelFleet.Lib.Sorting
import OtelFleet.Otelfleetctl.Graphs
import OtelFleet.Pipelines.Activation
import OtelFleet.Tenants.Accounts
import Mathlib.Logic.Function.Basic

open Store (UUID DB CustomerStatus TargetClass PipelineRow VersionRow)
open Sorting (sortBy)

-- The server, as far as the command line tool calls it.
namespace Otelfleetctl

structure Server where
  accounts : Store.Keys.Database
  -- The other columns of a customer.
  retentionDays : UUID → Option Int
  createdAt : UUID → Int
  users : List (UUID × String)
  pipelines : List PipelineRow
  versions : List VersionRow

structure Customer where
  id : UUID
  slug : String
  name : String
  clientID : String
  status : CustomerStatus
  rateLimitItemsPerSec : Option Int
  retentionDays : Option Int
deriving DecidableEq

structure Update where
  name : Option String := none
  rateLimitItemsPerSec : Option (Option Int) := none
  retentionDays : Option (Option Int) := none

structure Draw where
  customer : Nat → Tenants.Accounts.Draw
  now : Int
  fresh : Api.Fresh
  outside : Pipelines.Outside

inductive CallError where
  | unencodable (e : String)
  | refused (r : Api.Response)
  | unreadable

structure Client where
  service : Pipelines.Service
  user : Option UUID
  draws : Nat → Draw

def Client.principal (c : Client) : Option Api.Principal :=
  some { userID := c.user, allCustomers := true, allowedCustomers := [] }

namespace Server

def db (s : Server) : DB where
  users := s.users
  customers := s.accounts.customers.map (·.toCustomer)
  pipelines := s.pipelines
  versions := s.versions

def put (s : Server) (db : DB) : Server :=
  { s with pipelines := db.pipelines, versions := db.versions }

def toCustomer (s : Server) (c : Store.Keys.Customer) : Customer where
  id := c.id
  slug := c.slug
  name := c.name
  clientID := c.clientID
  status := c.status
  rateLimitItemsPerSec := c.rateLimitItemsPerSec.map (↑)
  retentionDays := s.retentionDays c.id

section Customers

variable [Runtime]

def listCustomers (s : Server) : List Customer :=
  (sortBy (fun c => toLex (s.createdAt c.id, c.id))
    (s.accounts.customers.filter (·.status ≠ .deleted))).map s.toCustomer

def invalidName : CallError :=
  .refused (Api.badRequest "name must be 1-200 characters")

def createCustomer (s : Server) (d : Draw) (name slug : String) : Except CallError Customer × Server :=
  match Tenants.Accounts.createCustomer s.accounts name (if slug = "" then none else some slug) d.customer with
  | .error .invalidName => (.error invalidName, s)
  | .error .invalidSlug =>
    (.error (.refused (Api.badRequest "slug must match ^[a-z0-9][a-z0-9-]\x7b1,62\x7d[a-z0-9]$")), s)
  | .error (.noFreeSlug _) | .error (.store .slugExists) => (.error (.refused (Api.conflict "slug already exists")), s)
  | .error (.store _) => (.error (.refused Api.internalError), s)
  | .ok (accounts, _) =>
    -- The row that was inserted comes last.
    match accounts.customers.getLast? with
    | none => (.error (.refused Api.internalError), s)
    | some c =>
      let s' := { s with
        accounts := accounts
        retentionDays := Function.update s.retentionDays c.id none
        createdAt := Function.update s.createdAt c.id d.now }
      (.ok (s'.toCustomer c), s')

def updateCustomer (s : Server) (id : UUID) (upd : Update) : Except CallError Unit × Server :=
  if ∃ value ∈ upd.rateLimitItemsPerSec, ∃ n ∈ value, n < 1 then
    (.error (.refused (Api.badRequest "rateLimitItemsPerSec must be >= 1 (or null for unlimited)")), s)
  else if ∃ value ∈ upd.retentionDays, ∃ n ∈ value, n < 1 ∨ 30 < n then
    (.error (.refused (Api.badRequest "retentionDays must be between 1 and 30 (or null for the global TTL)")), s)
  else
    match Tenants.Accounts.updateCustomer s.accounts id {
        name := upd.name
        rateLimitItemsPerSec := upd.rateLimitItemsPerSec.map (·.map Int.toNat) } with
    | .error .invalidName => (.error invalidName, s)
    | .error (.store .notFound) => (.error (.refused (Api.notFound "customer not found")), s)
    | .error _ => (.error (.refused Api.internalError), s)
    | .ok accounts =>
      (.ok (), { s with
        accounts := accounts
        retentionDays := upd.retentionDays.elim s.retentionDays (Function.update s.retentionDays id) })

end Customers

section Pipelines

variable [Runtime]

def listPipelines (s : Server) (customerID : UUID) : Except CallError (List Api.Pipeline) :=
  match s.db.getCustomer customerID with
  | .error .notFound => .error (.refused (Api.notFound "customer not found"))
  | .error _ => .error (.refused Api.internalError)
  | .ok _ => .ok ((s.db.listPipelines (some customerID)).map Api.toPipeline)

def readGraph (g : Pipelines.Graph) : Except CallError PipelineGraph :=
  (toAPIGraph g).elim (.error .unreadable) .ok

def getPipelineVersion (s : Server) (c : Client) (pipelineID : UUID) (version : Nat) : Except CallError PipelineGraph :=
  match Api.getPipelineVersion s.db c.principal pipelineID version with
  | .version _ v => readGraph v.graph
  | r => .error (.refused r)

def body : Except String PipelineGraph → Except CallError Pipelines.Graph
  | .error e => .error (.unencodable e)
  | .ok g => (fromAPIGraph g).elim (.error (.refused (Api.badRequest "can't decode JSON body"))) .ok

def targetClass? (name : String) : Option TargetClass :=
  [TargetClass.forwarding, .edge].find? (·.name = name)

def createPipeline (s : Server) (c : Client) (d : Draw) (customerID : UUID) (name targetClass : String)
    (graph : Except String PipelineGraph) : Except CallError Api.Pipeline × Server :=
  match body graph, targetClass? targetClass with
  | .error e, _ => (.error e, s)
  | .ok _, none => (.error (.refused Api.internalError), s)
  | .ok g, some cls =>
    let a := Api.createArgs c.principal d.fresh customerID name (some cls) g
    match Api.createPipeline c.service s.db c.principal a, Pipelines.create c.service s.db a with
    | .pipeline _ p, .ok (.stored db) => (.ok p, s.put db)
    | r, _ => (.error (.refused r), s)

def createPipelineVersion (s : Server) (c : Client) (d : Draw) (pipelineID : UUID)
    (graph : Except String PipelineGraph) : Except CallError Nat × Server :=
  match body graph with
  | .error e => (.error e, s)
  | .ok g =>
    let a := Api.versionArgs c.principal d.fresh pipelineID g
    match Api.createPipelineVersion c.service s.db c.principal a, Pipelines.createVersion c.service s.db a with
    | .version _ v, .ok (.stored db) => ((readGraph v.graph).map fun _ => v.version, s.put db)
    | r, _ => (.error (.refused r), s)

def activateError : Pipelines.OpError → CallError
  | .store .notFound => .refused (Api.notFound "version not found")
  | .store (.conflict _) => .refused (Api.badRequest "version is not valid and cannot be activated")
  | _ => .refused Api.internalError

def activateVersion (s : Server) (c : Client) (d : Draw) (pipelineID : UUID) (version : Nat) :
    Except CallError Unit × Server :=
  let o := Pipelines.activate c.service d.outside s.db pipelineID version
  match o.result with
  | .error e => (.error (activateError e), s.put o.db)
  | .ok _ => (.ok (), s.put o.db)

end Pipelines

end Server

end Otelfleetctl
