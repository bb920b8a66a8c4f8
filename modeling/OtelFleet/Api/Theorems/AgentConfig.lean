import OtelFleet.Api.Fleet
import OtelFleet.Api.Theorems.Noninterference
import OtelFleet.Opamp.Handler
import OtelFleet.Pipelines.Theorems.Served

-- What a client learns about stored secrets from the config of an agent.
namespace Api

open Json (Value)
open Crypto (Cipher)
open Store (UUID DB Fleet ActivePipeline)
open Pipelines

section Plaintexts

def plaintexts (c : Cipher) (ap : ActivePipeline) : List (String × Value) :=
  match ap.graph with
  | .graph g => g.secrets.map fun e => (e.1, revealed c e.2)
  | .malformed _ => []

inductive Decrypts (c : Cipher) (ap : ActivePipeline) : RenderPipeline → Prop
  | intro {g : Graph} (hg : ap.graph = .graph g) (hread : ∀ e ∈ g.secrets, Readable c e.2) : Decrypts c ap
      { customerSlug := ap.customerSlug
        clientID := ap.clientID
        pipelineSlug := pipelineSlug ap.pipelineName
        graph := g.mapSecrets fun _ v => revealed c v }

theorem toRender_eq_ok : toRender s ap = .ok rp ↔ Decrypts s.cipher ap rp := by
  unfold toRender
  constructor
  · intro h
    cases hdoc : ap.graph
    case malformed reason => simp [hdoc, parseGraph] at h
    case graph g =>
      simp only [hdoc, parseGraph] at h
      split at h
      case h_1 => cases h
      case h_2 plain hplain =>
        obtain ⟨hread, rfl⟩ := decryptGraphSecrets_eq_ok.mp hplain
        cases h
        exact ⟨hdoc, hread⟩
  · rintro ⟨hdoc, hread⟩
    simp only [hdoc, parseGraph, decryptGraphSecrets_eq_ok.mpr ⟨hread, rfl⟩]

theorem forall₂_decrypts (h : activeRenderPipelines s none aps = .ok rps) : List.Forall₂ (Decrypts s.cipher) aps rps := by
  have hothers : othersOf none aps = aps := List.filter_eq_self.mpr (by simp)
  rw [activeRenderPipelines_eq_ok, hothers] at h
  have hall : List.Forall₂ (fun r rp => r = .ok rp) (aps.map (toRender s)) rps := by
    rw [h, List.forall₂_map_left_iff]
    exact List.forall₂_same.mpr fun _ _ => rfl
  exact (List.forall₂_map_left_iff.mp hall).imp fun _ _ => toRender_eq_ok.mp

variable [Runtime]

theorem toNode_revealed_eq_iff (h : SameSecret c v v') :
    toNode (revealed c v) = toNode (revealed c v') ↔ revealed c v = revealed c v' := by
  obtain heq | ⟨⟨x, hx⟩, x', hx'⟩ := h.revealed
  · simp only [heq]
  · simp only [hx, hx', toNode, Yaml.Node.str.injEq, Value.str.injEq]

theorem sameConfigs_iff_plaintexts (h : ActiveAlike c ap ap') (hd : Decrypts c ap rp) (hd' : Decrypts c ap' rp') :
    SameConfigs rp rp' ↔ plaintexts c ap = plaintexts c ap' := by
  obtain ⟨doc, hdoc⟩ : ∃ doc, ap' = { ap with graph := doc } := ⟨_, h.others⟩
  have halike := h.graph
  subst hdoc
  obtain ⟨hg, -⟩ := hd
  obtain ⟨hg', -⟩ := hd'
  obtain rfl : doc = .graph _ := hg'
  rw [hg] at halike
  cases halike
  case graph halike =>
    obtain ⟨k, f, f', rfl, rfl, hr⟩ := halike
    simp only [Graph.mapSecrets_mapSecrets]
    refine (sameConfigs_mapSecrets_iff ⟨ap.customerSlug, ap.clientID, pipelineSlug ap.pipelineName, k⟩ k).trans ?_
    simp only [plaintexts, hg, Graph.secrets_mapSecrets, List.map_map, List.map_inj_left, Function.comp_apply,
      Prod.mk.injEq, true_and]
    exact forall₂_congr fun e he => toNode_revealed_eq_iff (hr e he)

theorem forall₂_sameConfigs_iff (h : List.Forall₂ (ActiveAlike c) aps aps') (hd : List.Forall₂ (Decrypts c) aps rps)
    (hd' : List.Forall₂ (Decrypts c) aps' rps') :
    List.Forall₂ SameConfigs rps rps' ↔ aps.map (plaintexts c) = aps'.map (plaintexts c) := by
  induction h generalizing rps rps'
  case nil =>
    cases hd
    cases hd'
    simp
  case cons ap ap' aps aps' hap _ hi =>
    obtain _ | ⟨hrp, hrps⟩ := hd
    obtain _ | ⟨hrp', hrps'⟩ := hd'
    rw [List.forall₂_cons, sameConfigs_iff_plaintexts hap hrp hrp', hi hrps hrps', List.map_cons, List.map_cons, List.cons.injEq]

theorem renderEdgeConfig_eq_iff (h : List.Forall₂ (ActiveAlike s.cipher) aps aps')
    (hrps : activeRenderPipelines s none aps = .ok rps) (hrps' : activeRenderPipelines s none aps' = .ok rps')
    (hyaml : Set.InjOn Runtime.marshalYAML {edgeTree (sortPipelines rps), edgeTree (sortPipelines rps')})
    (htext : renderEdgeConfig rps = .ok text) :
    renderEdgeConfig rps = renderEdgeConfig rps' ↔ aps.map (plaintexts s.cipher) = aps'.map (plaintexts s.cipher) := by
  have halike : List.Forall₂ RenderPipeline.Alike rps rps' := by
    obtain ⟨e, he, -⟩ | ⟨_, _, hr, hr', halike⟩ := activeRenderPipelines_alike h none
    · cases hrps.symm.trans he
    · obtain rfl := Except.ok.inj (hrps.symm.trans hr)
      obtain rfl := Except.ok.inj (hrps'.symm.trans hr')
      exact halike
  have hshape : List.Forall₂ SameShape rps rps' := halike.imp fun _ _ => RenderPipeline.Alike.sameShape
  have hsorted := forall₂_sortPipelines (fun _ _ hs => hs) hshape
  have hkeys := forall₂_duplicateKey hsorted []
  obtain ⟨hunique, -⟩ := renderFull_eq_ok.mp (show renderFull .edge rps = .ok text from htext)
  have hpairs : List.Forall₂ SameConfigs (sortPipelines rps) (sortPipelines rps') ↔ List.Forall₂ SameConfigs rps rps' :=
    hshape.insertionSort_iff fun _ _ _ _ hs hs' => by
      simp only [RenderPipeline.le, hs.customerSlug, hs.pipelineSlug, hs'.customerSlug, hs'.pipelineSlug]
  simp only [renderEdgeConfig, ← hkeys, hunique, Except.ok.injEq]
  rw [hyaml.eq_iff (by simp) (by simp), ← forall₂_sameConfigs_iff h (forall₂_decrypts hrps) (forall₂_decrypts hrps'), ← hpairs]
  exact fullTree_eq_iff hsorted .edge

end Plaintexts

section Secrecy

variable [Runtime] (s : Service) (f : Fleet) (db db' : DB) (who : Option Principal) (agentID : UUID)

-- The request is granted, and shows the config of the edge agents of the customer.
def ShowsConfig (customerID : UUID) : Prop :=
  ∃ a, f.getAgent agentID = some a ∧ a.agentClass = .edge ∧ a.customerID = some customerID ∧
    requireCustomerAccess who customerID ∧ ∃ text, renderEdgeCurrent s db customerID = .ok text

def edgePipelinesOf (customerID : UUID) : List ActivePipeline :=
  db.listActivePipelines .edge (some customerID)

def EdgePrintsApart (customerID : UUID) : Prop :=
  ∀ rps rps', activeRenderPipelines s none (edgePipelinesOf db customerID) = .ok rps →
    activeRenderPipelines s none (edgePipelinesOf db' customerID) = .ok rps' →
    Set.InjOn Runtime.marshalYAML {edgeTree (sortPipelines rps), edgeTree (sortPipelines rps')}

variable {s f db db' who agentID}

theorem renderEdgeCurrent_alike (h : SameButSecrets s.cipher db db') (customerID : UUID) :
    (∃ e, renderEdgeCurrent s db customerID = .error e ∧ renderEdgeCurrent s db' customerID = .error e) ∨
      ∃ text text', renderEdgeCurrent s db customerID = .ok text ∧ renderEdgeCurrent s db' customerID = .ok text' ∧
        (EdgePrintsApart s db db' customerID → (text = text' ↔
          (edgePipelinesOf db customerID).map (plaintexts s.cipher) =
            (edgePipelinesOf db' customerID).map (plaintexts s.cipher))) := by
  have hactive : List.Forall₂ (ActiveAlike s.cipher) (edgePipelinesOf db customerID) (edgePipelinesOf db' customerID) :=
    h.listActivePipelines .edge (some customerID)
  have hrender (db : DB) : renderEdgeCurrent s db customerID =
      (activeRenderPipelines s none (edgePipelinesOf db customerID)).bind renderEdgeConfig := by
    unfold renderEdgeCurrent edgePipelinesOf
    cases activeRenderPipelines s none (db.listActivePipelines .edge (some customerID)) <;> rfl
  rw [hrender, hrender]
  obtain ⟨e, he, he'⟩ | ⟨rps, rps', hrps, hrps', halike⟩ := activeRenderPipelines_alike hactive none
  · exact .inl ⟨e, by rw [he]; rfl, by rw [he']; rfl⟩
  · simp only [hrps, hrps', Except.bind]
    obtain ⟨e, he, he'⟩ | ⟨text, text', htext, htext'⟩ := renderFull_alike halike .edge
    · exact .inl ⟨e, he, he'⟩
    · refine .inr ⟨text, text', htext, htext', fun hyaml => ?_⟩
      rw [← renderEdgeConfig_eq_iff hactive hrps hrps' (hyaml rps rps' hrps hrps') htext]
      simp only [renderFull] at htext htext'
      rw [htext, htext', Except.ok.injEq]

theorem getAgentConfig_cases (s : Service) (f : Fleet) (who : Option Principal) (agentID : UUID) :
    ((∀ db customerID, ¬ShowsConfig s f db who agentID customerID) ∧
        ∀ db db', getAgentConfig s f db who agentID = getAgentConfig s f db' who agentID) ∨
      ∃ a customerID,
        (∀ db id, ShowsConfig s f db who agentID id ↔ id = customerID ∧ ∃ text, renderEdgeCurrent s db id = .ok text) ∧
        ∀ db, getAgentConfig s f db who agentID =
          match renderEdgeCurrent s db customerID with
          | .error _ => .error internalError
          | .ok assigned => .ok { assignedYaml := assigned, reportedYaml := Option.getD (Store.Agent.reportedConfigYAML a) "" } := by
  unfold getAgentConfig ShowsConfig
  cases ha : f.getAgent agentID
  case none => exact .inl ⟨by simp, fun _ _ => rfl⟩
  case some a =>
    simp only [Option.some.injEq, exists_eq_left']
    by_cases hedge : ∃ customerID, a.agentClass = .edge ∧ a.customerID = some customerID
    case neg =>
      have hassigned (db : DB) : assignedConfig s db a = .ok "" := by
        unfold assignedConfig
        split
        case h_1 hclass hcustomer => exact absurd ⟨_, hclass, hcustomer⟩ hedge
        case h_2 => rfl
      refine .inl ⟨fun db customerID hs => hedge ⟨customerID, hs.left, hs.right.left⟩, fun db db' => ?_⟩
      simp only [hassigned]
    case pos =>
      obtain ⟨customerID, hclass, hcustomer⟩ := hedge
      simp only [assignedConfig, hclass, hcustomer, requireOwnerAccess, true_and, Option.some.injEq]
      by_cases haccess : requireCustomerAccess who customerID
      case neg =>
        refine .inl ⟨?_, fun _ _ => by simp only [haccess, Bool.not_false, if_true]⟩
        rintro db _ ⟨rfl, hs, -⟩
        exact haccess hs
      case pos =>
        refine .inr ⟨a, customerID, fun db id => ⟨?_, ?_⟩, fun db => ?_⟩
        · rintro ⟨rfl, -, htext⟩
          exact ⟨rfl, htext⟩
        · rintro ⟨rfl, htext⟩
          exact ⟨rfl, haccess, htext⟩
        · cases renderEdgeCurrent s db customerID <;>
            simp only [haccess, Bool.not_true, Bool.false_eq_true, if_false]

-- The config that is shown for an agent tells databases apart that only differ in stored secrets, exactly if it holds
-- secrets that differ. It is the text that is pushed to the agent, where all secrets are in plain.
theorem agent_config_eq_iff (h : SameButSecrets s.cipher db db')
    (hyaml : ∀ customerID, ShowsConfig s f db who agentID customerID → EdgePrintsApart s db db' customerID) :
    (getAgentConfig s f db who agentID = getAgentConfig s f db' who agentID ↔
      ∀ customerID, ShowsConfig s f db who agentID customerID →
        (edgePipelinesOf db customerID).map (plaintexts s.cipher) =
          (edgePipelinesOf db' customerID).map (plaintexts s.cipher)) ∧
    ∀ (srv : Opamp.Server) (st : Opamp.AgentConn) (customerID : UUID) (desired : String),
      srv.pipelines customerID = edgePipelinesOf db customerID → srv.renderEdgeCurrent s customerID = .ok desired →
      ∃ rps, List.Forall₂ (Decrypts s.cipher) (edgePipelinesOf db customerID) rps ∧
        (Opamp.configPush st desired).remoteConfig =
          some { body := Runtime.marshalYAML (edgeTree (sortPipelines rps)), configHash := Runtime.sha256 desired } := by
  constructor
  case left =>
    obtain ⟨hnone, hsame⟩ | ⟨a, customerID, hshows, hconfig⟩ := getAgentConfig_cases s f who agentID
    · exact iff_of_true (hsame db db') fun customerID hs => absurd hs (hnone db customerID)
    · rw [hconfig, hconfig]
      obtain ⟨e, he, he'⟩ | ⟨text, text', htext, htext', htexts⟩ := renderEdgeCurrent_alike h customerID
      · simp only [he, he', true_iff]
        intro id hs
        obtain ⟨rfl, text, htext⟩ := (hshows db id).mp hs
        cases he.symm.trans htext
      · have hs : ShowsConfig s f db who agentID customerID := (hshows db customerID).mpr ⟨rfl, text, htext⟩
        simp only [htext, htext', Except.ok.injEq, AgentConfig.mk.injEq, and_true, htexts (hyaml customerID hs)]
        refine ⟨fun heq id hid => ?_, fun hall => hall customerID hs⟩
        obtain ⟨rfl, -⟩ := (hshows db id).mp hid
        exact heq
  case right =>
    intro srv st customerID desired hpipelines hdesired
    unfold Opamp.Server.renderEdgeCurrent Opamp.renderEdge at hdesired
    rw [hpipelines] at hdesired
    split at hdesired
    case h_1 => cases hdesired
    case h_2 rps hrps =>
      obtain ⟨-, htext⟩ := renderFull_eq_ok.mp (show renderFull .edge rps = .ok desired from hdesired)
      refine ⟨rps, forall₂_decrypts hrps, ?_⟩
      rw [show Runtime.marshalYAML (edgeTree (sortPipelines rps)) = desired from htext]
      rfl

end Secrecy

section Sample

def edgeStore (secret : Value) : DB where
  users := []
  customers := [{
    id := 1, name := "Acme Corp", slug := "acme-corp", clientID := "cust_aaaa1111", status := .active }]
  pipelines := [{
    id := 10, customerID := 1, name := "Backup", targetClass := .edge, activeVersionID := some 20 }]
  versions := [{
    id := 20
    pipelineID := 10
    version := 1
    graph := .graph (sampleGraph [clickhouse secret])
    renderedYAML := ""
    configHash := []
    validationStatus := .valid
    validationOutput := none
    createdBy := none }]

def edgeAgent : Store.Agent :=
  Store.NewAgent.row
    { id := 5
      instanceUID := [1]
      customerID := 1
      agentClass := .edge
      name := none
      agentVersion := none
      description := none
      capabilities := 0
      enrolledVia := 7 } 0

def edgeFleet : Fleet :=
  { customers := [(1, .active)], tokens := [], agents := [edgeAgent], events := [] }

def resealed (plaintext : String) : Value :=
  newEncValue (1 :: (List.replicate 12 8 ++ plaintext.toList.flatMap Crypto.runeBytes))

def acmeUser : Principal :=
  { userID := some 3, allCustomers := false, allowedCustomers := [1] }

theorem edgeStore_same (h : SameSecret (some .sample) v v') :
    SameButSecrets (some .sample) (edgeStore v) (edgeStore v') := by
  refine ⟨rfl, rfl, rfl, .cons ⟨.graph ?_, rfl⟩ .nil⟩
  exact ⟨sampleGraph [clickhouse .null], fun _ _ => v, fun _ _ => v', rfl, rfl, fun _ _ => h⟩

def edgeBackup (password : String) : RenderPipeline where
  customerSlug := "acme-corp"
  clientID := "cust_aaaa1111"
  pipelineSlug := "backup"
  graph := sampleGraph [clickhouse (.str password)]

def Reveals (secret : Value) (password : String) : Prop :=
  activeRenderPipelines sampleService none (edgePipelinesOf (edgeStore secret) 1) = .ok [edgeBackup password]

theorem Reveals.getAgentConfig [Runtime] (h : Reveals secret password) :
    getAgentConfig sampleService edgeFleet (edgeStore secret) (some acmeUser) 5 =
      .ok { assignedYaml := Runtime.marshalYAML (edgeTree [edgeBackup password]), reportedYaml := "" } := by
  have hrender : renderEdgeCurrent sampleService (edgeStore secret) 1 =
      .ok (Runtime.marshalYAML (edgeTree [edgeBackup password])) := by
    unfold renderEdgeCurrent
    unfold Reveals edgePipelinesOf at h
    rw [h]
    rfl
  have hagent : edgeFleet.getAgent 5 = some edgeAgent := rfl
  have hassigned : assignedConfig sampleService (edgeStore secret) edgeAgent = _ := hrender
  have haccess : requireOwnerAccess (some acmeUser) edgeAgent.customerID = true := rfl
  simp only [Api.getAgentConfig, hagent, haccess, hassigned, Bool.not_true, Bool.false_eq_true, if_false]
  rfl

-- A secret that is encrypted again is shown as before.
theorem resealed_config_same :
    letI := Runtime.sample
    (∃ config, getAgentConfig sampleService edgeFleet (edgeStore (sampleSecret "alpha")) (some acmeUser) 5 = .ok config) ∧
      getAgentConfig sampleService edgeFleet (edgeStore (sampleSecret "alpha")) (some acmeUser) 5 =
        getAgentConfig sampleService edgeFleet (edgeStore (resealed "alpha")) (some acmeUser) 5 := by
  let _ := Runtime.sample
  have hsealed : Reveals (sampleSecret "alpha") "alpha" := rfl
  have hresealed : Reveals (resealed "alpha") "alpha" := rfl
  have hsame : SameButSecrets sampleService.cipher (edgeStore (sampleSecret "alpha")) (edgeStore (resealed "alpha")) :=
    edgeStore_same (.inr ⟨⟨_, "alpha", rfl, rfl⟩, ⟨_, "alpha", rfl, rfl⟩⟩)
  have hcustomer {id : UUID}
      (h : ShowsConfig sampleService edgeFleet (edgeStore (sampleSecret "alpha")) (some acmeUser) 5 id) : id = 1 := by
    obtain ⟨_, ⟨⟩, -, ⟨⟩, -⟩ := h
    rfl
  refine ⟨⟨_, hsealed.getAgentConfig⟩, (agent_config_eq_iff hsame ?_).left.mpr ?_⟩
  · rintro customerID hs rps rps' hrps hrps'
    obtain rfl := hcustomer hs
    obtain rfl := Except.ok.inj (hrps.symm.trans hsealed)
    obtain rfl := Except.ok.inj (hrps'.symm.trans hresealed)
    exact Set.injOn_pair.mpr fun _ => rfl
  · intro customerID hs
    obtain rfl := hcustomer hs
    let shown : List (List (String × Value)) := [[("exporters[0].config.password", .str "alpha")]]
    calc
      _ = shown := rfl
      _ = _ := rfl

theorem edgeTree_edgeBackup_ne :
    Runtime.sample.marshalYAML (@edgeTree Runtime.sample [edgeBackup "alpha"]) ≠
      Runtime.sample.marshalYAML (@edgeTree Runtime.sample [edgeBackup "beta"]) := by
  refine @Runtime.sample_marshalYAML_ne (@edgeTree Runtime.sample [edgeBackup "alpha"])
    (@edgeTree Runtime.sample [edgeBackup "beta"]) 18 rfl rfl _ _ rfl rfl ?_
  decide

-- Two passwords can be told apart by a user of the customer.
theorem password_shown :
    letI := Runtime.sample
    SameButSecrets sampleService.cipher (edgeStore (sampleSecret "alpha")) (edgeStore (sampleSecret "beta")) ∧
      getAgentConfig sampleService edgeFleet (edgeStore (sampleSecret "alpha")) (some acmeUser) 5 ≠
        getAgentConfig sampleService edgeFleet (edgeStore (sampleSecret "beta")) (some acmeUser) 5 := by
  let _ := Runtime.sample
  have halpha : Reveals (sampleSecret "alpha") "alpha" := rfl
  have hbeta : Reveals (sampleSecret "beta") "beta" := rfl
  refine ⟨edgeStore_same (.inr ⟨⟨_, "alpha", rfl, rfl⟩, ⟨_, "beta", rfl, rfl⟩⟩), fun he => ?_⟩
  rw [halpha.getAgentConfig, hbeta.getAgentConfig] at he
  exact edgeTree_edgeBackup_ne (congrArg AgentConfig.assignedYaml (Except.ok.inj he))

end Sample
end Api
