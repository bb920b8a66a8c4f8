import OtelFleet.Lib.Interleave
import OtelFleet.Opamp.Registry
import OtelFleet.Pipelines.Service
import OtelFleet.Tenants.Tokens

open Store (UUID Hash InstanceUID Fleet CustomerStatus nilUUID ActivePipeline FleetError DB AgentEventType Agent)

-- The OpAMP server: it authenticates connections, handles the messages of agents and pushes configs
-- to them.
namespace Opamp

section Protocol

structure AgentRemoteConfig where
  body : String
  configHash : Hash
deriving DecidableEq

structure ConnectionSettings where
  hash : Hash
  authorization : String
  destinationEndpoint : String
deriving DecidableEq

structure ServerToAgent where
  instanceUID : InstanceUID
  capabilities : UInt64
  flags : UInt64
  errorResponse : Option String
  remoteConfig : Option AgentRemoteConfig
  connectionSettings : Option ConnectionSettings
deriving DecidableEq

structure AgentDescription where
  name : Option String
  version : Option String
  json : Option String

structure RemoteConfigReport where
  status : Store.RemoteConfigStatus
  lastRemoteConfigHash : Hash
  errorMessage : String

structure ComponentHealth where
  healthy : Bool
  status : String
  lastError : String
  json : Option String

structure AgentToServer where
  instanceUID : InstanceUID
  capabilities : UInt64
  agentDescription : Option AgentDescription
  remoteConfigStatus : Option RemoteConfigReport
  effectiveConfig : Option (List (String × String))
  health : Option ComponentHealth

def acceptsRemoteConfig : UInt64 :=
  0x2

def acceptsOpAMPConnectionSettings : UInt64 :=
  0x100

def offersConnectionSettings : UInt64 :=
  0x20

def reportFullState : UInt64 :=
  0x1

def serverCapabilities : UInt64 :=
  0x1 ||| 0x2 ||| 0x4

-- The reported config: the entry without a name, or else the only one.
def effectiveConfigBody (configMap : List (String × String)) : Option String :=
  match configMap.lookup "" with
  | some body => some body
  | none =>
    match configMap with
    | [(_, body)] => some body
    | _ => none

def encodeHex (hash : Hash) : String :=
  .ofList (hash.flatMap fun b => Strconv.hex 2 b.toNat)

end Protocol

section Authenticate

structure ConnAuth where
  tokenID : UUID
  customerID : UUID
  agentID : Option UUID
  viaAgentToken : Bool
deriving DecidableEq

inductive AuthError where
  | missingBearerToken
  | malformedToken
  | lookupFailed
  | unknownAgentToken
  | unknownBootstrapToken
  | customerIs (status : CustomerStatus)
  | tokenExpired (expiresAt : Int)
  | tokenExhausted (usedCount maxUses : Nat)

def tokenUsable (t : Store.EnrollToken) (now : Int) : Except AuthError Unit :=
  if ¬now < t.expiresAt then .error (.tokenExpired t.expiresAt)
  else if 0 < t.maxUses ∧ t.maxUses ≤ t.usedCount then .error (.tokenExhausted t.usedCount t.maxUses)
  else if t.customerStatus ≠ .active then .error (.customerIs t.customerStatus)
  else .ok ()

variable [Runtime]

def authenticateAgentToken (f : Fleet) (tokenPrefix token : String) : Except AuthError ConnAuth :=
  match (f.agentsByTokenPrefix tokenPrefix).find? (·.tokenHash = Tenants.hashAPIKey token) with
  | none => .error .unknownAgentToken
  | some a =>
    if a.customerStatus ≠ .active then .error (.customerIs a.customerStatus)
    else
      .ok
        { tokenID := nilUUID
          customerID := a.customerID
          agentID := some a.agentID
          viaAgentToken := true }

def authenticateBootstrapToken (f : Fleet) (tokenPrefix token : String) (now : Int) : Except AuthError ConnAuth :=
  match (f.activeBootstrapTokensByPrefix tokenPrefix).find? (·.tokenHash = Tenants.hashAPIKey token) with
  | none => .error .unknownBootstrapToken
  | some t =>
    (tokenUsable t now).map fun _ =>
      { tokenID := t.tokenID
        customerID := t.customerID
        agentID := none
        viaAgentToken := false }

def cutBearer (header : String) : Option String :=
  let scheme := "Bearer ".toList
  if scheme.isPrefixOf header.toList then some (.ofList (header.toList.drop scheme.length)) else none

-- Validates the token of a request. The lookup in the database can fail.
def authenticate (f : Fleet) (header : String) (now : Int) (fail : Bool) : Except AuthError ConnAuth :=
  match cutBearer header with
  | none => .error .missingBearerToken
  | some token =>
    if token = "" then .error .missingBearerToken
    else
      match Tenants.parseAgentTokenPrefix token with
      | some tokenPrefix =>
        if fail then .error .lookupFailed else authenticateAgentToken f tokenPrefix token
      | none =>
        match Tenants.parseBootstrapTokenPrefix token with
        | some tokenPrefix =>
          if fail then .error .lookupFailed else authenticateBootstrapToken f tokenPrefix token now
        | none => .error .malformedToken

end Authenticate

section Server

inductive Act where
  | enroll (tokenID : UUID)
  | store
  | mint (hash : Hash)
  | send (config : AgentRemoteConfig)
  -- A config is not sent because the agent has acknowledged its hash.
  | upToDate (hash : Hash)
deriving DecidableEq

structure Effect where
  conn : ConnID
  agentID : UUID
  act : Act
deriving DecidableEq

inductive WebhookEvent where
  | agentOffline
  | agentConfigFailed
  | agentUnhealthy
deriving DecidableEq

structure FleetEvent where
  eventType : WebhookEvent
  agentID : UUID
  customerID : UUID
  detail : List (String × String)
deriving DecidableEq

-- What the calls share. The pipelines are the active edge pipelines of each customer. For the record,
-- the server also keeps all that was sent, closed and done, the pipelines of the past, and the customers
-- whose last change no push has rendered yet.
structure Server where
  publicEndpoint : String
  fleet : Fleet
  registry : Registry
  pipelines : UUID → List ActivePipeline
  notifications : List UUID
  listening : Bool
  accepted : ConnID → Option ConnAuth
  events : List FleetEvent
  sent : List (ConnID × ServerToAgent)
  disconnects : List ConnID
  effects : List Effect
  past : UUID → List (List ActivePipeline)
  due : List UUID

def newServer (publicEndpoint : String) (fleet : Fleet) (pipelines : UUID → List ActivePipeline) : Server where
  publicEndpoint := publicEndpoint
  fleet := fleet
  registry := newRegistry
  pipelines := pipelines
  notifications := []
  listening := false
  accepted := fun _ => none
  events := []
  sent := []
  disconnects := []
  effects := []
  past := fun customerID => [pipelines customerID]
  due := []

def Server.effect (s : Server) (conn : ConnID) (agentID : UUID) (act : Act) : Server :=
  { s with effects := s.effects ++ [{ conn := conn, agentID := agentID, act := act }] }

def Server.reply (s : Server) (conn : ConnID) (resp : ServerToAgent) : Server :=
  { s with sent := s.sent ++ [(conn, resp)] }

def Server.deliver (s : Server) (conn : ConnID) (agentID : UUID) (resp : ServerToAgent) : Server :=
  match resp.remoteConfig with
  | some config => (s.effect conn agentID (.send config)).reply conn resp
  | none => s.reply conn resp

def newResponse (uid : InstanceUID) : ServerToAgent where
  instanceUID := uid
  capabilities := serverCapabilities
  flags := 0
  errorResponse := none
  remoteConfig := none
  connectionSettings := none

def Server.askFullState (s : Server) (conn : ConnID) (uid : InstanceUID) : Server :=
  s.reply conn { newResponse uid with flags := reportFullState }

def Server.reject (s : Server) (conn : ConnID) (uid : InstanceUID) (message : String) : Server :=
  let s := s.reply conn { newResponse uid with errorResponse := some message }
  { s with disconnects := s.disconnects ++ [conn] }

def Server.emit (s : Server) (eventType : WebhookEvent) (st : AgentConn) (detail : List (String × String)) : Server :=
  { s with
    events := s.events ++
      [{ eventType := eventType, agentID := st.agentID, customerID := st.customerID, detail := detail }] }

structure Draw where
  fail : Bool
  now : Int
  id : UUID
  token : Option Tenants.GeneratedKey
  id_ne_nil : id ≠ nilUUID

-- A call to the store on behalf of an agent. The server goes on if it fails.
def Server.store (s : Server) (x : Draw) (conn : ConnID) (agentID : UUID)
    (op : Fleet → Except FleetError Fleet) : Option Server :=
  if x.fail then none
  else
    match op s.fleet with
    | .error _ => none
    | .ok f => some ({ s with fleet := f }.effect conn agentID .store)

def Server.tryStore (s : Server) (x : Draw) (conn : ConnID) (agentID : UUID)
    (op : Fleet → Except FleetError Fleet) : Server :=
  (s.store x conn agentID op).getD s

variable [Runtime] (svc : Pipelines.Service)

def renderEdge (pipelines : List ActivePipeline) : Except String String :=
  match Pipelines.activeRenderPipelines svc none pipelines with
  | .error e => .error e
  | .ok inputs => Pipelines.renderEdgeConfig inputs

theorem renderEdgeCurrent_eq (db : DB) (customerID : UUID) :
    Pipelines.renderEdgeCurrent svc db customerID =
      renderEdge svc (db.listActivePipelines .edge (some customerID)) :=
  rfl

def Server.renderEdgeCurrent (s : Server) (customerID : UUID) : Except String String :=
  renderEdge svc (s.pipelines customerID)

-- The pipelines are read from the store, which may fail.
def Server.tryRender (s : Server) (x : Draw) (customerID : UUID) : Except String String :=
  if x.fail then .error "store unavailable" else s.renderEdgeCurrent svc customerID

end Server

section Message

-- A message that is being handled: `known` if the registry had the agent, and `st` points to the
-- state of the agent.
structure Work where
  conn : ConnID
  auth : ConnAuth
  msg : AgentToServer
  now : Int
  known : Bool
  newConn : Bool
  st : Ref
  resp : ServerToAgent

def newWork (conn : ConnID) (auth : ConnAuth) (msg : AgentToServer) (now : Int) (known newConn : Bool) (st : Ref) :
    Work where
  conn := conn
  auth := auth
  msg := msg
  now := now
  known := known
  newConn := newConn
  st := st
  resp := newResponse msg.instanceUID

inductive Task where
  | updateDescription (d : AgentDescription) (json : String)
  | put
  | setConnected
  | remoteConfigStatus (rcs : RemoteConfigReport)
  | setAckedConfig (hash : Hash)
  | checkStatus (rcs : RemoteConfigReport) (newHash : Bool)
  | setStatus (rcs : RemoteConfigReport)
  | noteStatus (status : Store.RemoteConfigStatus)
  | setEffectiveConfig (body : String)
  | health (h : ComponentHealth)
  | setHealth (h : ComponentHealth) (json : String) (flip : Option AgentEventType)
  | noteHealth (healthy : Bool)
  | renderConfig
  | setAssignedConfig (desired : String)
  | offerConfig (desired : String)
  | checkToken
  | setAgentToken
  | offerToken (gen : Tenants.GeneratedKey)

def Work.tasks (w : Work) : List Task :=
  (match w.msg.agentDescription with
    | some d =>
      match d.json with
      | some json => if w.known then [.updateDescription d json] else []
      | none => []
    | none => []) ++
  [.put] ++
  (if w.newConn then [.setConnected] else []) ++
  (match w.msg.remoteConfigStatus with
    | some rcs => [.remoteConfigStatus rcs]
    | none => []) ++
  (match w.msg.effectiveConfig.bind effectiveConfigBody with
    | some body => [.setEffectiveConfig body]
    | none => []) ++
  (match w.msg.health with
    | some h => [.health h]
    | none => []) ++
  (if w.newConn ∨ w.msg.agentDescription.isSome then [.renderConfig] else []) ++
  (if w.newConn ∧ ¬w.auth.viaAgentToken then [.checkToken] else [])

def terminal (status : Store.RemoteConfigStatus) : Bool :=
  status = .applied ∨ status = .failed

def statusEvent (rcs : RemoteConfigReport) : Option AgentEventType :=
  match rcs.status with
  | .applied => some .configApplied
  | .failed => some .configFailed
  | _ => none

def statusError (rcs : RemoteConfigReport) : Option String :=
  if rcs.status = .failed ∧ rcs.errorMessage ≠ "" then some rcs.errorMessage else none

def statusDetail (rcs : RemoteConfigReport) : List (String × String) :=
  ("hash", encodeHex rcs.lastRemoteConfigHash) :: (statusError rcs).toList.map fun m => ("error", m)

def healthDetail (h : ComponentHealth) : List (String × String) :=
  (if h.status ≠ "" then [("status", h.status)] else []) ++
    if h.lastError ≠ "" then [("lastError", h.lastError)] else []

def flipEvent (before : Option Bool) (healthy : Bool) : Option AgentEventType :=
  if before = some healthy then none else some (if healthy then .healthy else .unhealthy)

variable [Runtime] (svc : Pipelines.Service)

-- Does a task: what it leaves to be done before the other tasks, the response, and the server.
def Task.run (x : Draw) (s : Server) (w : Work) : Task → List Task × ServerToAgent × Server
  | updateDescription d json =>
    let st := s.registry.heap w.st
    let caps := if w.msg.capabilities ≠ 0 then some w.msg.capabilities else none
    ([], w.resp, s.tryStore x w.conn st.agentID
      (·.updateAgentDescription st.agentID d.name d.version (some json) caps))
  | put => ([], w.resp, { s with registry := s.registry.put w.st })
  | setConnected =>
    let st := s.registry.heap w.st
    ([], w.resp, s.tryStore x w.conn st.agentID (·.setAgentConnected st.agentID true w.now))
  | remoteConfigStatus rcs =>
    let st := s.registry.heap w.st
    let acked := rcs.lastRemoteConfigHash
    let note (hash : Hash) : Server :=
      { s with registry := s.registry.modifyBoth w.st fun a => { a with lastAckedHash := hash } }
    if acked ≠ [] then
      let newHash : Bool := acked ≠ st.lastAckedHash
      ((if newHash then [.setAckedConfig acked] else []) ++ [.checkStatus rcs newHash], w.resp, note acked)
    else if rcs.status = .unset then
      ([.setAckedConfig [], .checkStatus rcs false], w.resp, note [])
    else ([.checkStatus rcs false], w.resp, s)
  | setAckedConfig hash =>
    let st := s.registry.heap w.st
    ([], w.resp, s.tryStore x w.conn st.agentID (·.setAgentAckedConfig st.agentID hash))
  | checkStatus rcs newHash =>
    let st := s.registry.heap w.st
    if rcs.status = st.remoteConfigStatus ∧ ¬(newHash ∧ terminal rcs.status) then ([], w.resp, s)
    else ([.setStatus rcs], w.resp, s)
  | setStatus rcs =>
    let st := s.registry.heap w.st
    let event := (statusEvent rcs).map fun e => (e, statusDetail rcs)
    match s.store x w.conn st.agentID
        (·.setAgentRemoteConfigStatus st.agentID rcs.status (statusError rcs) event) with
    | none => ([], w.resp, s)
    | some s =>
      let s := if rcs.status = .failed then s.emit .agentConfigFailed st (statusDetail rcs) else s
      ([.noteStatus rcs.status], w.resp, s)
  | noteStatus status =>
    ([], w.resp,
      { s with registry := s.registry.modifyBoth w.st fun a => { a with remoteConfigStatus := status } })
  | setEffectiveConfig body =>
    let st := s.registry.heap w.st
    ([], w.resp, s.tryStore x w.conn st.agentID
      (·.setAgentEffectiveConfig st.agentID body (Runtime.sha256 body)))
  | health h =>
    let st := s.registry.heap w.st
    match h.json with
    | none => ([], w.resp, s)
    | some json => ([.setHealth h json (flipEvent st.healthy h.healthy)], w.resp, s)
  | setHealth h json flip =>
    let st := s.registry.heap w.st
    match s.store x w.conn st.agentID (·.setAgentHealth st.agentID json h.healthy flip) with
    | none => ([], w.resp, s)
    | some s =>
      let s := if flip.isSome ∧ ¬h.healthy then s.emit .agentUnhealthy st (healthDetail h) else s
      ([.noteHealth h.healthy], w.resp, s)
  | noteHealth healthy =>
    ([], w.resp, { s with registry := s.registry.modifyBoth w.st fun a => { a with healthy := some healthy } })
  | renderConfig =>
    let st := s.registry.heap w.st
    if ¬st.accepts acceptsRemoteConfig then ([], w.resp, s)
    else
      match s.tryRender svc x st.customerID with
      | .error _ => ([], w.resp, s)
      | .ok desired => ([.setAssignedConfig desired], w.resp, s)
  | setAssignedConfig desired =>
    let st := s.registry.heap w.st
    ([.offerConfig desired], w.resp, s.tryStore x w.conn st.agentID
      (·.setAgentAssignedConfig st.agentID (Runtime.sha256 desired)))
  | offerConfig desired =>
    let st := s.registry.heap w.st
    let hash := Runtime.sha256 desired
    if hash = st.lastAckedHash then ([], w.resp, s.effect w.conn st.agentID (.upToDate hash))
    else
      ([], { w.resp with
        remoteConfig := some { body := desired, configHash := hash }
        flags := w.resp.flags ||| reportFullState }, s)
  | checkToken =>
    let st := s.registry.heap w.st
    if st.tokenOffered ∨ ¬st.accepts acceptsOpAMPConnectionSettings then ([], w.resp, s)
    else ([.setAgentToken], w.resp, s)
  | setAgentToken =>
    let st := s.registry.heap w.st
    match x.token with
    | none => ([], w.resp, s)
    | some gen =>
      if x.fail then ([], w.resp, s)
      else
        ([.offerToken gen], w.resp,
          { s with fleet := s.fleet.setAgentToken st.agentID gen.keyPrefix gen.hash x.now }.effect w.conn st.agentID
            (.mint gen.hash))
  | offerToken gen =>
    ([], { w.resp with
      capabilities := w.resp.capabilities ||| offersConnectionSettings
      connectionSettings := some
        { hash := Runtime.sha256 gen.keyPrefix
          authorization := "Bearer " ++ gen.secret
          destinationEndpoint := s.publicEndpoint } },
      { s with registry := s.registry.modifyBoth w.st fun a => { a with tokenOffered := true } })

end Message

section Calls

inductive Call where
  | idle
  | connect (conn : ConnID) (header : String)
  | receive (conn : ConnID) (msg : AgentToServer)
  -- An agent that the registry does not know is looked up, and enrolled if that is allowed.
  | lookup (conn : ConnID) (auth : ConnAuth) (msg : AgentToServer) (now : Int) (mayEnroll : Bool)
  | enroll (conn : ConnID) (auth : ConnAuth) (msg : AgentToServer) (now : Int) (d : AgentDescription)
  | work (w : Work) (tasks : List Task)
  | close (conn : ConnID)
  | setDisconnected (st : AgentConn)
  | commit (customerID : UUID) (pipelines : List ActivePipeline)
  | notify (customerID : UUID)
  | listen
  | render (customerID : UUID)
  | snapshot (customerID : UUID) (desired : String)
  | push (customerID : UUID) (desired : String) (rest : List AgentConn)
  | send (customerID : UUID) (desired : String) (st : AgentConn) (rest : List AgentConn)
  | drain
  | touch (seen : List (UUID × Int))

def Call.isIdle : Call → Bool
  | idle => true
  | _ => false

def AgentConn.attach (st : AgentConn) (conn : ConnID) (msg : AgentToServer) (now : Int) : AgentConn :=
  { st with
    conn := conn
    lastSeen := now
    dirtySeen := true
    capabilities := if msg.capabilities ≠ 0 then msg.capabilities else st.capabilities }

def ofAgent (conn : ConnID) (auth : ConnAuth) (uid : InstanceUID) (agent : Agent) : AgentConn where
  conn := conn
  instanceUID := uid
  agentID := agent.id
  customerID := auth.customerID
  capabilities := agent.capabilities.getD 0
  lastAckedHash := agent.ackedConfigHash
  remoteConfigStatus := agent.remoteConfigStatus
  healthy := agent.healthy
  lastSeen := 0
  dirtySeen := false
  tokenOffered := false

def ofNewAgent (conn : ConnID) (auth : ConnAuth) (msg : AgentToServer) (agent : Agent) : AgentConn where
  conn := conn
  instanceUID := msg.instanceUID
  agentID := agent.id
  customerID := auth.customerID
  capabilities := msg.capabilities
  lastAckedHash := []
  remoteConfigStatus := agent.remoteConfigStatus
  healthy := none
  lastSeen := 0
  dirtySeen := false
  tokenOffered := false

def newAgent (id : UUID) (auth : ConnAuth) (msg : AgentToServer) (d : AgentDescription) : Store.NewAgent where
  id := id
  instanceUID := msg.instanceUID
  customerID := auth.customerID
  agentClass := .edge
  name := d.name
  agentVersion := d.version
  description := d.json
  capabilities := msg.capabilities
  enrolledVia := auth.tokenID

def ConnAuth.mismatches (auth : ConnAuth) (agentID : UUID) : Bool :=
  auth.viaAgentToken ∧ auth.agentID.isSome ∧ auth.agentID ≠ some agentID

def startWork (s : Server) (conn : ConnID) (auth : ConnAuth) (msg : AgentToServer) (now : Int)
    (known newConn : Bool) (st : AgentConn) : Call × Server :=
  if auth.mismatches st.agentID then
    (.idle, s.reject conn msg.instanceUID "token does not match this agent")
  else
    let r := s.registry.new (st.attach conn msg now)
    let w := newWork conn auth msg now known newConn r.1
    (.work w w.tasks, { s with registry := r.2 })

variable [Runtime] (svc : Pipelines.Service)

def errOtherCustomer : String :=
  "instance uid is bound to another customer"

def configPush (st : AgentConn) (desired : String) : ServerToAgent :=
  { newResponse st.instanceUID with
    flags := reportFullState
    remoteConfig := some { body := desired, configHash := Runtime.sha256 desired } }

def Call.step (x : Draw) (s : Server) : Call → Call × Server
  | idle => (.idle, s)
  | connect conn header =>
    if (s.accepted conn).isSome then (.idle, s)
    else
      match authenticate s.fleet header x.now x.fail with
      | .error _ => (.idle, s)
      | .ok auth => (.idle, { s with accepted := Function.update s.accepted conn (some auth) })
  | receive conn msg =>
    match s.accepted conn with
    | none => (.idle, s)
    | some auth =>
      if msg.instanceUID = [] then
        (.idle, s.reply conn { newResponse [] with errorResponse := some "missing instance_uid" })
      else
        match s.registry.live? msg.instanceUID with
        | none => (.lookup conn auth msg x.now true, s)
        | some prev =>
          if prev.customerID ≠ auth.customerID then (.idle, s.reject conn msg.instanceUID errOtherCustomer)
          else startWork s conn auth msg x.now true (prev.conn ≠ conn) prev
  | lookup conn auth msg now mayEnroll =>
    if x.fail then (.idle, s.askFullState conn msg.instanceUID)
    else
      match s.fleet.getAgentByInstanceUID msg.instanceUID with
      | some agent =>
        if agent.customerID ≠ some auth.customerID then (.idle, s.reject conn msg.instanceUID errOtherCustomer)
        else startWork s conn auth msg now false true (ofAgent conn auth msg.instanceUID agent)
      | none =>
        match msg.agentDescription with
        | some d =>
          if mayEnroll then (.enroll conn auth msg now d, s) else (.idle, s.askFullState conn msg.instanceUID)
        | none => (.idle, s.askFullState conn msg.instanceUID)
  | enroll conn auth msg now d =>
    if x.fail then (.idle, s.askFullState conn msg.instanceUID)
    else
      match s.fleet.enrollAgent (newAgent x.id auth msg d) x.now with
      | .ok (agent, f) =>
        startWork ({ s with fleet := f }.effect conn agent.id (.enroll auth.tokenID)) conn auth msg now false true
          (ofNewAgent conn auth msg agent)
      -- The enrollment race was lost.
      | .error .conflict => (.lookup conn auth msg now false, s)
      | .error _ => (.idle, s.askFullState conn msg.instanceUID)
  | work w [] => (.idle, s.deliver w.conn (s.registry.heap w.st).agentID w.resp)
  | work w (t :: ts) =>
    let r := t.run svc x s w
    (.work { w with resp := r.2.1 } (r.1 ++ ts), r.2.2)
  | close conn =>
    let r := s.registry.removeConn conn
    let s := { s with registry := r.2 }
    match r.1 with
    | none => (.idle, s)
    | some st => if st.agentID = nilUUID then (.idle, s) else (.setDisconnected st, s)
  | setDisconnected st =>
    let time := if st.lastSeen = 0 then x.now else st.lastSeen
    let s := s.tryStore x st.conn st.agentID (·.setAgentConnected st.agentID false time)
    (.idle, s.emit .agentOffline st [])
  | commit customerID pipelines =>
    (.notify customerID,
      { s with
        pipelines := Function.update s.pipelines customerID pipelines
        past := Function.update s.past customerID (s.past customerID ++ [pipelines])
        due := customerID :: s.due })
  | notify customerID => (.idle, { s with notifications := s.notifications ++ [customerID] })
  -- Notifications are handled one after another.
  | listen =>
    match s.notifications with
    | [] => (.idle, s)
    | customerID :: rest =>
      if s.listening then (.idle, s)
      else (.render customerID, { s with notifications := rest, listening := true })
  | render customerID =>
    let s := { s with due := s.due.filter (· ≠ customerID) }
    match s.tryRender svc x customerID with
    | .error _ => (.idle, { s with listening := false })
    | .ok desired => (.snapshot customerID desired, s)
  | snapshot customerID desired => (.push customerID desired (s.registry.connsForCustomer customerID), s)
  | push _ _ [] => (.idle, { s with listening := false })
  | push customerID desired (st :: rest) =>
    if ¬st.accepts acceptsRemoteConfig then (.push customerID desired rest, s)
    else
      (.send customerID desired st rest, s.tryStore x st.conn st.agentID
        (·.setAgentAssignedConfig st.agentID (Runtime.sha256 desired)))
  | send customerID desired st rest =>
    (.push customerID desired rest,
      if x.fail then s else s.deliver st.conn st.agentID (configPush st desired))
  | drain =>
    let r := s.registry.drainDirtySeen
    (if r.1 = [] then .idle else .touch r.1, { s with registry := r.2 })
  | touch seen => (.idle, if x.fail then s else { s with fleet := s.fleet.touchAgents seen })

inductive Request where
  | connect (conn : ConnID) (header : String)
  | message (conn : ConnID) (msg : AgentToServer)
  | close (conn : ConnID)
  | change (customerID : UUID) (pipelines : List ActivePipeline)
  | listen
  | flush

def Request.begin : Request → Call
  | connect conn header => .connect conn header
  | message conn msg => .receive conn msg
  | close conn => .close conn
  | change customerID pipelines => .commit customerID pipelines
  | listen => .listen
  | flush => .drain

def handler : Interleave.System Request Call Server Draw where
  idle := .idle
  isIdle := Call.isIdle
  begin := Request.begin
  step := Call.step svc

end Calls
end Opamp
