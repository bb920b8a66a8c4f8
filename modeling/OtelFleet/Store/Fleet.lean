import OtelFleet.Store.Tables
import OtelFleet.Lib.Strconv

-- The tables of the fleet: enrollment tokens, agents, and what has happened to them.
namespace Store

abbrev Hash := List UInt8

abbrev InstanceUID := List UInt8

def nilUUID : UUID :=
  0

structure BootstrapToken where
  id : UUID
  customerID : UUID
  tokenPrefix : String
  tokenHash : Hash
  maxUses : Nat
  usedCount : Nat
  expiresAt : Int
  revoked : Bool

inductive AgentClass where
  | gateway
  | edge
deriving DecidableEq

inductive RemoteConfigStatus where
  | unset
  | applying
  | applied
  | failed
deriving DecidableEq, Inhabited

inductive AgentEventType where
  | enrolled
  | connected
  | disconnected
  | configApplied
  | configFailed
  | healthy
  | unhealthy
deriving DecidableEq

structure AgentEvent where
  agentID : UUID
  eventType : AgentEventType
  detail : List (String × String)
deriving DecidableEq

structure Agent where
  id : UUID
  instanceUID : InstanceUID
  customerID : Option UUID
  agentClass : AgentClass
  name : Option String
  agentVersion : Option String
  description : Option String
  capabilities : Option UInt64
  assignedConfigHash : Hash
  reportedConfigHash : Hash
  ackedConfigHash : Hash
  reportedConfigYAML : Option String
  remoteConfigStatus : RemoteConfigStatus
  remoteConfigError : Option String
  health : Option String
  healthy : Option Bool
  connected : Bool
  lastSeenAt : Option Int
  enrolledVia : Option UUID
  tokenPrefix : Option String
  tokenHash : Hash
  tokenIssuedAt : Option Int

structure NewAgent where
  id : UUID
  instanceUID : InstanceUID
  customerID : UUID
  agentClass : AgentClass
  name : Option String
  agentVersion : Option String
  description : Option String
  capabilities : UInt64
  enrolledVia : UUID

def NewAgent.row (a : NewAgent) (now : Int) : Agent where
  id := a.id
  instanceUID := a.instanceUID
  customerID := some a.customerID
  agentClass := a.agentClass
  name := a.name
  agentVersion := a.agentVersion
  description := a.description
  capabilities := some a.capabilities
  assignedConfigHash := []
  reportedConfigHash := []
  ackedConfigHash := []
  reportedConfigYAML := none
  remoteConfigStatus := .unset
  remoteConfigError := none
  health := none
  healthy := none
  connected := false
  lastSeenAt := some now
  enrolledVia := some a.enrolledVia
  tokenPrefix := none
  tokenHash := []
  tokenIssuedAt := none

structure Fleet where
  customers : List (UUID × CustomerStatus)
  tokens : List BootstrapToken
  agents : List Agent
  events : List AgentEvent

inductive FleetError where
  | notFound
  | conflict
  | failed (message : String)

structure EnrollToken where
  tokenID : UUID
  customerID : UUID
  tokenHash : Hash
  maxUses : Nat
  usedCount : Nat
  expiresAt : Int
  customerStatus : CustomerStatus

structure AgentAuth where
  agentID : UUID
  customerID : UUID
  instanceUID : InstanceUID
  tokenHash : Hash
  customerStatus : CustomerStatus

namespace Fleet

def activeBootstrapTokensByPrefix (f : Fleet) (tokenPrefix : String) : List EnrollToken :=
  (f.tokens.filter fun t => t.tokenPrefix = tokenPrefix ∧ ¬t.revoked).filterMap fun t =>
    (f.customers.lookup t.customerID).map fun status =>
      { tokenID := t.id
        customerID := t.customerID
        tokenHash := t.tokenHash
        maxUses := t.maxUses
        usedCount := t.usedCount
        expiresAt := t.expiresAt
        customerStatus := status }

def agentAuth (f : Fleet) (a : Agent) : Option AgentAuth := do
  let customerID ← a.customerID
  let status ← f.customers.lookup customerID
  if status = .deleted then none
  else
    some
      { agentID := a.id
        customerID := customerID
        instanceUID := a.instanceUID
        tokenHash := a.tokenHash
        customerStatus := status }

def agentsByTokenPrefix (f : Fleet) (tokenPrefix : String) : List AgentAuth :=
  (f.agents.filter (·.tokenPrefix = some tokenPrefix)).filterMap f.agentAuth

def getAgent (f : Fleet) (id : UUID) : Option Agent :=
  f.agents.find? (·.id = id)

def getAgentByInstanceUID (f : Fleet) (uid : InstanceUID) : Option Agent :=
  f.agents.find? (·.instanceUID = uid)

def insertAgentEvent (f : Fleet) (agentID : UUID) (eventType : AgentEventType) (detail : List (String × String)) :
    Fleet :=
  { f with events := f.events ++ [{ agentID := agentID, eventType := eventType, detail := detail }] }

def useToken (f : Fleet) (id : UUID) : Fleet :=
  { f with tokens := f.tokens.map fun t => if t.id = id then { t with usedCount := t.usedCount + 1 } else t }

-- The keys of the table are checked first, and then the references to other tables.
def enrollAgent (f : Fleet) (a : NewAgent) (now : Int) : Except FleetError (Agent × Fleet) :=
  if f.agents.any (·.id = a.id) then .error (.failed "insert agent: agents_pkey")
  else if f.agents.any (·.instanceUID = a.instanceUID) then .error .conflict
  else if ¬f.customers.any (·.1 = a.customerID) then .error (.failed "insert agent: agents_customer_id_fkey")
  else if ¬f.tokens.any (·.id = a.enrolledVia) then .error (.failed "insert agent: agents_enrolled_via_fkey")
  else
    let row := a.row now
    let f := { f with agents := f.agents ++ [row] }
    .ok (row, (f.useToken a.enrolledVia).insertAgentEvent a.id .enrolled [("token", toString a.enrolledVia)])

def updateAgent (f : Fleet) (id : UUID) (g : Agent → Agent) : Except FleetError Fleet :=
  if f.agents.any (·.id = id) then
    .ok { f with agents := f.agents.map fun a => if a.id = id then g a else a }
  else .error .notFound

def updateAgentWith (f : Fleet) (id : UUID) (g : Agent → Agent)
    (event : Option (AgentEventType × List (String × String))) : Except FleetError Fleet :=
  (f.updateAgent id g).map fun f =>
    match event with
    | none => f
    | some (eventType, detail) => f.insertAgentEvent id eventType detail

def latest (seen : Option Int) (time : Int) : Option Int :=
  some (max (seen.getD 0) time)

def updateAgentDescription (f : Fleet) (id : UUID) (name agentVersion description : Option String)
    (capabilities : Option UInt64) : Except FleetError Fleet :=
  f.updateAgent id fun a =>
    { a with
      name := name
      agentVersion := agentVersion
      description := description
      capabilities := capabilities.orElse fun _ => a.capabilities }

def setAgentConnected (f : Fleet) (id : UUID) (connected : Bool) (time : Int) : Except FleetError Fleet :=
  f.updateAgentWith id (fun a => { a with connected := connected, lastSeenAt := latest a.lastSeenAt time })
    (some (if connected then .connected else .disconnected, []))

def setAgentAssignedConfig (f : Fleet) (id : UUID) (hash : Hash) : Except FleetError Fleet :=
  f.updateAgent id fun a => { a with assignedConfigHash := hash }

def setAgentAckedConfig (f : Fleet) (id : UUID) (hash : Hash) : Except FleetError Fleet :=
  f.updateAgent id fun a => { a with ackedConfigHash := hash }

def setAgentEffectiveConfig (f : Fleet) (id : UUID) (yaml : String) (hash : Hash) : Except FleetError Fleet :=
  f.updateAgent id fun a => { a with reportedConfigYAML := some yaml, reportedConfigHash := hash }

def setAgentRemoteConfigStatus (f : Fleet) (id : UUID) (status : RemoteConfigStatus) (errorMessage : Option String)
    (event : Option (AgentEventType × List (String × String))) : Except FleetError Fleet :=
  f.updateAgentWith id (fun a => { a with remoteConfigStatus := status, remoteConfigError := errorMessage }) event

def setAgentHealth (f : Fleet) (id : UUID) (health : String) (healthy : Bool) (flipEvent : Option AgentEventType) :
    Except FleetError Fleet :=
  f.updateAgentWith id (fun a => { a with health := some health, healthy := some healthy })
    (flipEvent.map fun e => (e, []))

def setAgentToken (f : Fleet) (id : UUID) (tokenPrefix : String) (hash : Hash) (time : Int) : Fleet :=
  { f with
    agents := f.agents.map fun a =>
      if a.id = id then { a with tokenPrefix := some tokenPrefix, tokenHash := hash, tokenIssuedAt := some time }
      else a }

def touchAgents (f : Fleet) (seen : List (UUID × Int)) : Fleet :=
  { f with
    agents := f.agents.map fun a =>
      match seen.lookup a.id with
      | some time => { a with lastSeenAt := latest a.lastSeenAt time }
      | none => a }

end Fleet
end Store
