import OtelFleet.Opamp.Handler

open Store (UUID)
open Opamp (WebhookEvent FleetEvent)

-- The channels that fleet events are sent to.
namespace Webhooks

inductive ChannelType where
  | generic
  | slack
deriving DecidableEq

def ChannelType.name : ChannelType → String
  | generic => "webhook"
  | slack => "slack"

def ChannelType.ofName (name : String) : Option ChannelType :=
  [generic, slack].find? (·.name = name)

def eventName : WebhookEvent → String
  | .agentOffline => "agent_offline"
  | .agentConfigFailed => "agent_config_failed"
  | .agentUnhealthy => "agent_unhealthy"

def eventOfName (name : String) : Option WebhookEvent :=
  [.agentOffline, .agentConfigFailed, .agentUnhealthy].find? (eventName · = name)

structure Webhook where
  id : UUID
  type : ChannelType
  name : String
  url : String
  events : List WebhookEvent
  secretEnc : List UInt8
  enabled : Bool
  createdBy : Option UUID
deriving DecidableEq

structure WebhookUpdate where
  type : Option ChannelType := none
  name : Option String := none
  url : Option String := none
  events : Option (List WebhookEvent) := none
  secretEnc : Option (List UInt8) := none
  enabled : Option Bool := none

def Webhook.update (w : Webhook) (upd : WebhookUpdate) : Webhook :=
  { w with
    type := upd.type.getD w.type
    name := upd.name.getD w.name
    url := upd.url.getD w.url
    events := upd.events.getD w.events
    secretEnc := upd.secretEnc.getD w.secretEnc
    enabled := upd.enabled.getD w.enabled }

section Dispatcher

structure Event extends FleetEvent where
  occurredAt : Int
deriving DecidableEq

def queueSize : Nat :=
  256

-- Enqueues an event. The oldest one is dropped when the queue is full.
def publish (queue : List Event) (evt : Event) : List Event :=
  if queue.length < queueSize then queue ++ [evt] else queue.tail ++ [evt]

structure AgentInfo where
  id : UUID
  name : Option String
  agentClass : Store.AgentClass
  customerID : Option UUID
  customerName : Option String
deriving DecidableEq

structure Payload where
  event : WebhookEvent
  occurredAt : Int
  agent : AgentInfo
  detail : List (String × String)
deriving DecidableEq

-- An agent that is gone is described by what the event tells.
def buildPayload (getAgent : UUID → Option AgentInfo) (evt : Event) : Payload where
  event := evt.eventType
  occurredAt := evt.occurredAt
  agent := (getAgent evt.agentID).getD {
    id := evt.agentID
    name := none
    agentClass := .edge
    customerID := if evt.customerID = Store.nilUUID then none else some evt.customerID
    customerName := none }
  detail := evt.detail

def matched (hooks : List Webhook) (evt : Event) : List Webhook :=
  hooks.filter fun wh => wh.enabled && wh.events.contains evt.eventType

structure Delivery where
  webhook : Webhook
  payload : Payload
deriving DecidableEq

def dispatch (hooks : List Webhook) (getAgent : UUID → Option AgentInfo) (evt : Event) : List Delivery :=
  (matched hooks evt).map fun wh => { webhook := wh, payload := buildPayload getAgent evt }

end Dispatcher

end Webhooks
