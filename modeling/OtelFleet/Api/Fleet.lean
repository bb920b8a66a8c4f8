import OtelFleet.Api.Pipelines
import OtelFleet.Store.Fleet

open Store (UUID DB Fleet)
open Pipelines (Service)

-- The HTTP handlers around agents.
namespace Api

structure AgentConfig where
  assignedYaml : String
  reportedYaml : String

def requireOwnerAccess (who : Option Principal) : Option UUID → Bool
  | some customerID => requireCustomerAccess who customerID
  | none => who.all (·.allCustomers)

variable [Runtime]

-- The desired config of an agent, rendered from the database. Gateways are managed elsewhere.
def assignedConfig (s : Service) (db : DB) (a : Store.Agent) : Except String String :=
  match a.agentClass, a.customerID with
  | .edge, some customerID => Pipelines.renderEdgeCurrent s db customerID
  | _, _ => .ok ""

def getAgentConfig (s : Service) (f : Fleet) (db : DB) (who : Option Principal) (agentID : UUID) :
    Except Response AgentConfig :=
  match f.getAgent agentID with
  | none => .error (notFound "agent not found")
  | some a =>
    if !requireOwnerAccess who a.customerID then .error forbidden
    else
      match assignedConfig s db a with
      | .error _ => .error internalError
      | .ok assigned => .ok { assignedYaml := assigned, reportedYaml := a.reportedConfigYAML.getD "" }

end Api
