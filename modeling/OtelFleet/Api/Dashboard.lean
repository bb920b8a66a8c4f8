import OtelFleet.Api.Pipelines
import OtelFleet.Store.Fleet
import OtelFleet.Stats

open Store (UUID DB Customer CustomerStatus Agent AgentClass RemoteConfigStatus Hash)
open Stats (IngestCount Iteration TopCustomer CustomerCost)
open Sorting (sortBy)

-- The lists and the numbers that the dashboard shows.
namespace Api.Dashboard

structure CustomerColumns where
  rateLimitItemsPerSec : Option Int
  retentionDays : Option Int
  createdAt : Int

structure AgentColumns where
  displayName : Option String
  labels : List (String × String)
  createdAt : Int

-- The database, the table of ingest counts, which may be unavailable, and the number of refused
-- requests that the metrics report for a range.
structure State where
  db : DB
  customerColumns : UUID → CustomerColumns
  pipelineCreatedAt : UUID → Int
  agents : List Agent
  agentColumns : UUID → AgentColumns
  counts : Option (List IngestCount)
  refusedRequests : Int → Int → Int64

structure AgentFilter where
  agentClass : Option AgentClass := none
  customerID : Option UUID := none
  connected : Option Bool := none

inductive Request where
  | listCustomers (status : Option CustomerStatus)
  | listPipelines
  | listAgents (filter : AgentFilter)
  | getStatsOverview (start stop : Int)
  | getCostStats (start stop : Int)

structure CustomerView extends Customer, CustomerColumns

structure PipelineView extends Pipeline where
  createdAt : Int

structure AgentView extends AgentColumns where
  id : UUID
  instanceUID : List UInt8
  agentClass : AgentClass
  customerID : Option UUID
  customerName : Option String
  name : Option String
  agentVersion : Option String
  connected : Bool
  healthy : Option Bool
  lastSeenAt : Option Int
  remoteConfigStatus : RemoteConfigStatus
  remoteConfigError : Option String
  assignedConfigHash : Option Hash
  reportedConfigHash : Option Hash
  configInSync : Option Bool

structure OverviewView where
  activeCustomers : Nat
  refusedRequests : Int64
  logs : Int64
  traces : Int64
  metrics : Int64
  topCustomers : List TopCustomer
deriving DecidableEq

inductive Reply where
  | customers (cs : List CustomerView)
  | pipelines (ps : List PipelineView)
  | agents (as : List AgentView)
  | overview (o : OverviewView)
  | costs (cs : List CustomerCost)
  | error (r : Response)

def customerScope (who : Option Principal) : Option (List UUID) :=
  who.bind fun p => if p.allCustomers then none else some p.allowedCustomers

section Mapping

def toCustomer (s : State) (c : Customer) : CustomerView where
  toCustomer := c
  toCustomerColumns := s.customerColumns c.id

def toPipelineView (s : State) (p : Store.Pipeline) : PipelineView where
  toPipeline := toPipeline p
  createdAt := s.pipelineCreatedAt p.id

def hashPtr (hash : Hash) : Option Hash :=
  if hash = [] then none else some hash

def configInSync (assigned acked : Hash) : Option Bool :=
  if assigned = [] ∨ acked = [] then none else some (assigned = acked)

def toAgent (s : State) (a : Agent) : AgentView where
  toAgentColumns := s.agentColumns a.id
  id := a.id
  instanceUID := a.instanceUID
  agentClass := a.agentClass
  customerID := a.customerID
  customerName := (a.customerID.bind s.db.customer?).map (·.name)
  name := a.name
  agentVersion := a.agentVersion
  connected := a.connected
  healthy := a.healthy
  lastSeenAt := a.lastSeenAt
  remoteConfigStatus := a.remoteConfigStatus
  remoteConfigError := a.remoteConfigError
  assignedConfigHash := hashPtr a.assignedConfigHash
  reportedConfigHash := hashPtr a.reportedConfigHash
  configInSync := configInSync a.assignedConfigHash a.ackedConfigHash

def toOverview (o : Stats.Overview) : OverviewView where
  activeCustomers := o.activeCustomers
  refusedRequests := o.refusedRequests
  logs := o.totals "logs"
  traces := o.totals "traces"
  metrics := o.totals "metrics"
  topCustomers := o.topCustomers

end Mapping

section Queries

def storedCustomers (s : State) (status : Option CustomerStatus) : List Customer :=
  sortBy (fun c => toLex ((s.customerColumns c.id).createdAt, c.id)) <|
    s.db.customers.filter fun c => c.status ≠ .deleted ∧ status.all (· = c.status)

def AgentFilter.accepts (f : AgentFilter) (a : Agent) : Bool :=
  f.agentClass.all (· = a.agentClass) && f.customerID.all (some · = a.customerID) && f.connected.all (· = a.connected)

def storedAgents (s : State) (f : AgentFilter) : List Agent :=
  sortBy (fun a => toLex ((s.agentColumns a.id).createdAt, a.id)) (s.agents.filter f.accepts)

end Queries

section Handlers

variable (it : Iteration) (s : State) (who : Option Principal)

def listCustomers (status : Option CustomerStatus) : Reply :=
  .customers <| ((storedCustomers s status).filter fun c => (customerScope who).all (c.id ∈ ·)).map (toCustomer s)

def listPipelines : Reply :=
  .pipelines <| ((s.db.listPipelines none).filter fun p =>
    (customerScope who).all (p.customerID ∈ ·)).map (toPipelineView s)

def listAgents (f : AgentFilter) : Reply :=
  .agents <| ((storedAgents s f).filter fun a =>
    (customerScope who).all fun allowed => a.customerID.any (· ∈ allowed)).map (toAgent s)

def invalidRange : Reply :=
  .error (badRequest "'to' must be after 'from'")

def unavailable : Reply :=
  .error (.error 503 "upstream_unavailable" "stats backend unavailable")

def getStatsOverview (start stop : Int) : Reply :=
  if start < stop then
    match s.counts with
    | none => unavailable
    | some counts => .overview <| toOverview <|
      Stats.getOverview it s.db counts (s.refusedRequests start stop) start stop (customerScope who)
  else invalidRange

def getCostStats (start stop : Int) : Reply :=
  if start < stop then
    match s.counts with
    | none => unavailable
    | some counts =>
      .costs <| (Stats.getCost s.db counts start stop).filter fun c => (customerScope who).all (c.customerID ∈ ·)
  else invalidRange

def respond : Request → Reply
  | .listCustomers status => listCustomers s who status
  | .listPipelines => listPipelines s who
  | .listAgents f => listAgents s who f
  | .getStatsOverview start stop => getStatsOverview it s who start stop
  | .getCostStats start stop => getCostStats s who start stop

end Handlers

end Api.Dashboard
