import OtelFleet.Api.Guard
import OtelFleet.Webhooks

open Store (UUID)
open Opamp (WebhookEvent)
open Webhooks (Webhook WebhookUpdate ChannelType Event AgentInfo Delivery eventOfName publish dispatch)

-- The handlers of the channels for fleet events.
namespace Api.Webhooks

structure WebhookView where
  id : UUID
  type : ChannelType
  name : String
  url : String
  events : List WebhookEvent
  enabled : Bool
  hasSecret : Bool
deriving DecidableEq

def toWebhook (w : Webhook) : WebhookView where
  id := w.id
  type := w.type
  name := w.name
  url := w.url
  events := w.events
  enabled := w.enabled
  hasSecret := w.secretEnc ≠ []

structure CreateBody where
  type : Option String := none
  name : String
  url : String
  events : List String
  secret : Option String := none
  enabled : Option Bool := none

structure UpdateBody where
  type : Option String := none
  name : Option String := none
  url : Option String := none
  events : Option (List String) := none
  secret : Option String := none
  enabled : Option Bool := none

inductive Request where
  | list
  | create (body : CreateBody)
  | update (id : UUID) (body : UpdateBody)
  | delete (id : UUID)
  | test (id : UUID)

inductive Reply where
  | webhooks (ws : List WebhookView)
  | webhook (status : Nat) (w : WebhookView)
  | noContent
  | tested (ok : Bool) (message : String)
  | error (r : Response)

-- What the handlers rely on: the check of an address with its objection, the encryption of a secret,
-- and the outcome of a delivery for a test.
structure Outside where
  validateURL : String → Option String
  encryptClientSecret : String → Except Response (List UInt8)
  sendTest : Webhook → Bool × String

section Requests

def basePath : String :=
  "/api/v1/settings/webhooks"

def Request.path : Request → String
  | list => basePath
  | create _ => basePath
  | update id _ => basePath ++ "/" ++ Strconv.itoa id
  | delete id => basePath ++ "/" ++ Strconv.itoa id
  | test id => basePath ++ "/" ++ Strconv.itoa id ++ "/test"

def Request.method : Request → Method
  | list => .get
  | create _ => .post
  | update _ _ => .patch
  | delete _ => .delete
  | test _ => .post

end Requests

section Bodies

variable (out : Outside)

def webhookType : Option String → Except Response ChannelType
  | none => .ok .generic
  | some t => (ChannelType.ofName t).elim (.error (badRequest ("unknown channel type " ++ t))) .ok

def validateEach : List String → Except Response (List WebhookEvent)
  | [] => .ok []
  | e :: es =>
    match eventOfName e with
    | none => .error (badRequest ("unknown webhook event " ++ e))
    | some evt => (validateEach es).map (evt :: ·)

def validateWebhookEvents (events : List String) : Except Response (List WebhookEvent) :=
  if events = [] then .error (badRequest "at least one event is required") else validateEach events

def checkURL (url : String) : Except Response Unit :=
  (out.validateURL url).elim (.ok ()) fun message => .error (badRequest message)

def CreateBody.row (body : CreateBody) (newID : UUID) (createdBy : Option UUID) : Except Response Webhook := do
  if body.name = "" then .error (badRequest "name is required")
  checkURL out body.url
  let events ← validateWebhookEvents body.events
  let type ← webhookType body.type
  let secretEnc ←
    match body.secret with
    | none => .ok []
    | some secret => if type = .slack ∨ secret = "" then .ok [] else out.encryptClientSecret secret
  return {
    id := newID
    type := type
    name := body.name
    url := body.url
    events := events
    secretEnc := secretEnc
    enabled := body.enabled.getD true
    createdBy := createdBy }

-- An absent secret is kept, and an empty one is removed.
def UpdateBody.update (body : UpdateBody) : Except Response WebhookUpdate := do
  let type ←
    match body.type with
    | none => .ok none
    | some t => (webhookType (some t)).map some
  match body.url with
  | none => .ok ()
  | some url => checkURL out url
  let events ←
    match body.events with
    | none => .ok none
    | some events => (validateWebhookEvents events).map some
  let secretEnc ←
    match body.secret with
    | none => .ok none
    | some secret => if secret = "" then .ok (some []) else (out.encryptClientSecret secret).map some
  return {
    type := type
    name := body.name
    url := body.url
    events := events
    secretEnc := secretEnc
    enabled := body.enabled }

end Bodies

section Handlers

def webhook? (hooks : List Webhook) (id : UUID) : Option Webhook :=
  hooks.find? (·.id = id)

def createWebhook (out : Outside) (who : Option Principal) (newID : UUID) (body : CreateBody) (hooks : List Webhook) :
    Reply × List Webhook :=
  match body.row out newID (actorID who) with
  | .error r => (.error r, hooks)
  | .ok w =>
    if (webhook? hooks newID).isSome then (.error internalError, hooks)
    else (.webhook 201 (toWebhook w), hooks ++ [w])

def updateWebhook (out : Outside) (id : UUID) (body : UpdateBody) (hooks : List Webhook) : Reply × List Webhook :=
  match body.update out with
  | .error r => (.error r, hooks)
  | .ok upd =>
    match webhook? hooks id with
    | none => (.error (notFound "webhook not found"), hooks)
    | some w => (.webhook 200 (toWebhook (w.update upd)), hooks.map fun w => if w.id = id then w.update upd else w)

def deleteWebhook (id : UUID) (hooks : List Webhook) : Reply × List Webhook :=
  match webhook? hooks id with
  | none => (.error (notFound "webhook not found"), hooks)
  | some _ => (.noContent, hooks.filter (·.id ≠ id))

def testWebhook (out : Outside) (id : UUID) (hooks : List Webhook) : Reply :=
  match webhook? hooks id with
  | none => .error (notFound "webhook not found")
  | some w => .tested (out.sendTest w).1 (out.sendTest w).2

def respond (out : Outside) (who : Option Principal) (newID : UUID) (hooks : List Webhook) :
    Request → Reply × List Webhook
  | .list => (.webhooks (hooks.map toWebhook), hooks)
  | .create body => createWebhook out who newID body hooks
  | .update id body => updateWebhook out id body hooks
  | .delete id => deleteWebhook id hooks
  | .test id => (testWebhook out id hooks, hooks)

end Handlers

section Histories

abbrev Scope := Option (List UUID)

def scopeOf (who : Option Principal) : Scope :=
  who.bind fun p => if p.allCustomers then none else some p.allowedCustomers

-- For the record: what the creator of a channel was limited to, and who has changed last where, what
-- and whether it is sent.
structure Origin where
  created : Scope := none
  modified : Scope := none

structure State where
  hooks : List Webhook
  origin : UUID → Origin
  queue : List Event

inductive Step where
  | call (store : GuardStore) (now : Int) (r : Incoming) (request : Request) (out : Outside) (newID : UUID)
  | publish (evt : Event)
  | dispatch (getAgent : UUID → Option AgentInfo)

-- What a step leaves behind, what it answers to whom, and what it sends.
structure Outcome where
  state : State
  answer : Option (Scope × Reply) := none
  deliveries : List Delivery := []

def Reply.shown : Reply → List WebhookView
  | webhooks ws => ws
  | webhook _ w => [w]
  | _ => []

def recordOrigin (origin : UUID → Origin) (scope : Scope) (newID : UUID) : Request → Reply → UUID → Origin
  | .create _, .webhook _ _ => Function.update origin newID { created := scope, modified := scope }
  | .update id body, .webhook _ _ =>
    if body.url.isSome ∨ body.events.isSome ∨ body.enabled.isSome then
      Function.update origin id { origin id with modified := scope }
    else origin
  | _, _ => origin

variable [Runtime]

def admission (store : GuardStore) (now : Int) (r : Incoming) (request : Request) :
    Except Response (Option Principal) :=
  guard store now { r with method := request.method, path := request.path }

def State.step (s : State) : Step → Outcome
  | .call store now r request out newID =>
    match admission store now r request with
    | .error e => { state := s, answer := some (none, .error e) }
    | .ok who =>
      let (reply, hooks) := respond out who newID s.hooks request
      { state := { s with hooks := hooks, origin := recordOrigin s.origin (scopeOf who) newID request reply }
        answer := some (scopeOf who, reply) }
  | .publish evt => { state := { s with queue := publish s.queue evt } }
  | .dispatch getAgent =>
    match s.queue with
    | [] => { state := s }
    | evt :: queue => { state := { s with queue := queue }, deliveries := dispatch s.hooks getAgent evt }

end Histories

end Api.Webhooks
