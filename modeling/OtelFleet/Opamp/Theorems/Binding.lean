import OtelFleet.Opamp.Theorems.Enrollment

-- What is done to an agent is done through a connection of the customer that the agent belongs to.
namespace Opamp

open Store (UUID Fleet Agent nilUUID)
open Interleave (Event Config)

section Effects

structure Logged (s s' : Server) : Prop where
  rows : ∀ a ∈ s'.fleet.agents, a ∈ s.fleet.agents ∨ ∃ e ∈ s'.effects.drop s.effects.length, e.agentID = a.id
  configs : ∀ r ∈ s'.sent.drop s.sent.length, ∀ config, r.2.remoteConfig = some config →
    ∃ e ∈ s'.effects.drop s.effects.length, e.conn = r.1 ∧ e.act = .send config

section Log

theorem Logged.silent (hf : s'.fleet = s.fleet)
    (hsent : s'.sent = s.sent ++ replies) (hr : ∀ r ∈ replies, r.2.remoteConfig = none) : Logged s s' where
  rows a ha := .inl (by rwa [hf] at ha)
  configs r hr' config hc := by
    rw [hsent, List.drop_left] at hr'
    rw [hr r hr'] at hc
    cases hc

theorem Logged.same (hf : s'.fleet = s.fleet) (hsent : s'.sent = s.sent) : Logged s s' where
  rows a ha := .inl (by rwa [hf] at ha)
  configs r hr := by simp [hsent] at hr

theorem Logged.write (hf : s.fleet.Updated f e.agentID g)
    (hg : ∀ a, (g a).identity = a.identity) (hfleet : s'.fleet = f) (he : s'.effects = s.effects ++ [e])
    (hsent : s'.sent = s.sent) : Logged s s' where
  rows a ha := by
    rw [hfleet, hf.agents] at ha
    obtain ⟨b, hb, rfl⟩ := List.mem_map.mp ha
    split_ifs with hid
    · refine .inr ⟨e, by simp [he], ?_⟩
      rw [← hid]
      exact (congrArg Prod.fst (hg b)).symm
    · exact .inl hb
  configs r hr := by simp [hsent] at hr

theorem Logged.deliver (s : Server) (conn : ConnID) (agentID : UUID) (resp : ServerToAgent) :
    Logged s (s.deliver conn agentID resp) := by
  unfold Server.deliver
  split
  case h_1 config hresp =>
    refine ⟨fun a ha => .inl ha, fun r hr config' hc => ?_⟩
    obtain rfl : r = (conn, resp) := by simpa [Server.reply, Server.effect] using hr
    obtain rfl : config = config' := Option.some.inj (hresp.symm.trans hc)
    exact ⟨{ conn := conn, agentID := agentID, act := .send config }, by simp [Server.reply, Server.effect], rfl, rfl⟩
  case h_2 hresp => exact .silent rfl rfl (by simpa using hresp)

variable {known newConn : Bool}

theorem Call.Finds.rows (h : Call.Finds x s k conn auth msg now known newConn st s') :
    s'.sent = s.sent ∧
      ∀ a ∈ s'.fleet.agents, a ∈ s.fleet.agents ∨ ∃ e ∈ s'.effects.drop s.effects.length, e.agentID = a.id := by
  cases h
  case known | found => exact ⟨rfl, fun a ha => .inl ha⟩
  case enrolled d agent f hf =>
    refine ⟨rfl, fun a ha => ?_⟩
    obtain ha | rfl : a ∈ s.fleet.agents ∨ a = agent := by simpa [Server.effect, hf.agents] using ha
    · exact .inl ha
    · exact .inr ⟨{ conn := conn, agentID := a.id, act := .enroll auth.tokenID }, by simp [Server.effect], rfl⟩

end Log

variable [Runtime] (svc : Pipelines.Service)

-- A config of the customer, as it is or as it has been.
def Renders (s : Server) (customerID : UUID) (desired : String) : Prop :=
  ∃ pipelines ∈ s.past customerID, renderEdge svc pipelines = .ok desired

-- Through a connection, something is done to an agent of the customer of that connection only. If the
-- connection has used the token of an agent, it is that agent, and it has been there before.
structure Permitted (s : Server) (e : Effect) (auth : ConnAuth) : Prop where
  accepted : s.accepted e.conn = some auth
  owner : s.fleet.Owns auth.customerID e.agentID
  agentToken : auth.viaAgentToken → auth.agentID = some e.agentID
  enroll : ∀ tokenID, e.act = .enroll tokenID → ¬auth.viaAgentToken
  config : ∀ config, e.act = .send config →
    Renders svc s auth.customerID config.body ∧ config.configHash = Runtime.sha256 config.body

end Effects

section Invariant

-- The connection of a state belongs to the customer of the agent, and may act for it.
structure Bound (s : Server) (st : AgentConn) (auth : ConnAuth) : Prop where
  accepted : s.accepted st.conn = some auth
  customer : st.customerID = auth.customerID
  owner : s.fleet.Owns auth.customerID st.agentID
  agentToken : auth.viaAgentToken → auth.agentID = some st.agentID

variable [Runtime] (svc : Pipelines.Service)

structure Server.Sound (s : Server) : Prop where
  tokens : ∀ t ∈ s.fleet.tokens, t.id ≠ nilUUID
  agentTokens : ∀ conn auth, s.accepted conn = some auth → auth.viaAgentToken →
    auth.tokenID = nilUUID ∧ auth.agentID.isSome
  states : ∀ ref < s.registry.next, ∃ auth, Bound s (s.registry.heap ref) auth
  indexed : s.registry.Indexed
  pipelines : ∀ customerID, s.pipelines customerID ∈ s.past customerID
  effects : ∀ e ∈ s.effects, ∃ auth, Permitted svc s e auth

def Task.Renders (s : Server) (customerID : UUID) : Task → Prop
  | setAssignedConfig desired | offerConfig desired => Opamp.Renders svc s customerID desired
  | _ => True

structure Work.Sound (s : Server) (w : Work) (tasks : List Task) : Prop where
  st : w.st < s.registry.next
  conn : (w.agent s).conn = w.conn
  tasks : ∀ t ∈ tasks, t.Renders svc s (w.agent s).customerID
  resp : ∀ config, w.resp.remoteConfig = some config →
    Renders svc s (w.agent s).customerID config.body ∧ config.configHash = Runtime.sha256 config.body

-- A push to agents of a customer.
structure PushSound (s : Server) (customerID : UUID) (desired : String) (rest : List AgentConn) : Prop where
  renders : Renders svc s customerID desired
  states : ∀ st ∈ rest, st.customerID = customerID ∧ ∃ auth, Bound s st auth

def Call.Local (s : Server) : Call → Prop
  | lookup conn auth _ _ _ | enroll conn auth _ _ _ => s.accepted conn = some auth
  | work w ts => w.Sound svc s ts
  | setDisconnected st => ∃ auth, Bound s st auth
  | snapshot customerID desired => Renders svc s customerID desired
  | push customerID desired rest => PushSound svc s customerID desired rest
  | send customerID desired st rest => PushSound svc s customerID desired (st :: rest)
  | _ => True

end Invariant

section Extends

theorem Bound.extends (hb : Bound s st auth) (h : s.Extends s') : Bound s' st auth :=
  ⟨h.accepted _ _ hb.accepted, hb.customer, h.owns hb.owner, hb.agentToken⟩

theorem Bound.same (hb : Bound s st auth) (h : st.Same st') : Bound s st' auth where
  accepted := by rw [h.conn]; exact hb.accepted
  customer := h.customerID.trans hb.customer
  owner := by rw [h.agentID]; exact hb.owner
  agentToken hvia := by rw [h.agentID]; exact hb.agentToken hvia

theorem Work.agent_same {w : Work} (h : s.Extends s') (hw : w.st < s.registry.next) : (w.agent s).Same (w.agent s') :=
  h.heap w.st hw

variable [Runtime]

theorem Renders.extends (hr : Renders svc s customerID desired) (h : s.Extends s') :
    Renders svc s' customerID desired := by
  obtain ⟨pipelines, hp, hd⟩ := hr
  exact ⟨pipelines, h.past customerID hp, hd⟩

theorem Permitted.extends (hp : Permitted svc s e auth) (h : s.Extends s') : Permitted svc s' e auth where
  accepted := h.accepted _ _ hp.accepted
  owner := h.owns hp.owner
  agentToken := hp.agentToken
  enroll := hp.enroll
  config config hc := ⟨(hp.config config hc).left.extends h, (hp.config config hc).right⟩

theorem Task.Renders.extends {t : Task} (ht : t.Renders svc s customerID) (h : s.Extends s') :
    t.Renders svc s' customerID := by
  cases t
  case setAssignedConfig | offerConfig => exact Opamp.Renders.extends ht h
  all_goals trivial

theorem Work.Sound.extends {w : Work} (hw : w.Sound svc s ts) (h : s.Extends s') : w.Sound svc s' ts := by
  have hsame := Work.agent_same h hw.st
  refine ⟨hw.st.trans_le h.next, hsame.conn.trans hw.conn, fun t ht => ?_, fun config hc => ?_⟩
  · rw [hsame.customerID]
    exact (hw.tasks t ht).extends h
  · rw [hsame.customerID]
    exact ⟨(hw.resp config hc).left.extends h, (hw.resp config hc).right⟩

theorem PushSound.extends (hp : PushSound svc s customerID desired rest)
    (h : s.Extends s') : PushSound svc s' customerID desired rest := by
  refine ⟨hp.renders.extends h, fun st hst => ?_⟩
  obtain ⟨hc, auth, hb⟩ := hp.states st hst
  exact ⟨hc, auth, hb.extends h⟩

theorem Call.Local.extends {k : Call} (hk : k.Local svc s) (h : s.Extends s') : k.Local svc s' := by
  cases k
  case lookup | enroll => exact h.accepted _ _ hk
  case work => exact Work.Sound.extends hk h
  case setDisconnected =>
    obtain ⟨auth, hb⟩ := hk
    exact ⟨auth, hb.extends h⟩
  case snapshot => exact Renders.extends hk h
  case push | send => exact PushSound.extends hk h
  all_goals trivial

end Extends

section Steps

variable {s s' : Server} {k k' : Call}

variable [Runtime]

theorem authenticate_viaAgentToken (h : authenticate f header now fail = .ok auth) (hvia : auth.viaAgentToken) :
    auth.tokenID = nilUUID ∧ auth.agentID.isSome := by
  obtain ⟨tokenPrefix, token, h | h⟩ := authenticate_eq_ok h
  · exact (authenticateAgentToken_eq_ok h).right
  · exact absurd hvia (authenticateBootstrapToken_eq_ok h).left

theorem Bound.permitted (hb : Bound s st auth) (henroll : ∀ tokenID, act ≠ .enroll tokenID)
    (hsend : ∀ config, act = .send config →
      Renders svc s st.customerID config.body ∧ config.configHash = Runtime.sha256 config.body) :
    Permitted svc s { conn := st.conn, agentID := st.agentID, act := act } auth where
  accepted := hb.accepted
  owner := hb.owner
  agentToken := hb.agentToken
  enroll tokenID h := absurd h (henroll tokenID)
  config config h := hb.customer ▸ hsend config h

theorem Server.Sound.effects_same (h : s.Sound svc) (hext : s.Extends s') (he : s'.effects = s.effects) :
    ∀ e ∈ s'.effects, ∃ auth, Permitted svc s' e auth := by
  intro e hmem
  rw [he] at hmem
  obtain ⟨auth, hp⟩ := h.effects e hmem
  exact ⟨auth, hp.extends hext⟩

theorem Server.Sound.effects_concat (h : s.Sound svc) (hext : s.Extends s') (he : s'.effects = s.effects ++ [e])
    (hp : Permitted svc s' e auth) : ∀ e ∈ s'.effects, ∃ auth, Permitted svc s' e auth := by
  intro e' hmem
  rw [he] at hmem
  obtain hmem | rfl := by simpa using hmem
  · obtain ⟨auth, hp⟩ := h.effects e' hmem
    exact ⟨auth, hp.extends hext⟩
  · exact ⟨auth, hp⟩

section Finds

variable {known newConn : Bool}

-- A token of an agent names no bootstrap token, so no agent can be enrolled with it.
theorem Server.Sound.not_viaAgentToken (h : s.Sound svc) (hconn : s.accepted conn = some auth)
    (ht : ∃ t ∈ s.fleet.tokens, t.id = auth.tokenID) : ¬auth.viaAgentToken := by
  intro hvia
  obtain ⟨t, hmem, hid⟩ := ht
  exact h.tokens t hmem (hid.trans (h.agentTokens conn auth hconn hvia).left)

theorem Call.Finds.accepted (h : Call.Finds x s k conn auth msg now known newConn st s') (hk : k.Local svc s) :
    s'.accepted conn = some auth := by
  cases h
  case known hconn _ _ => exact hconn
  case found | enrolled => exact hk

theorem Call.Finds.owner (h : Call.Finds x s k conn auth msg now known newConn st s') (hs : s.Sound svc) :
    st.customerID = auth.customerID ∧ s'.fleet.Owns auth.customerID st.agentID := by
  cases h
  case known hconn hcustomer hprev =>
    obtain ⟨ref, hmem, rfl⟩ := Registry.mem_of_live? hprev
    obtain ⟨auth', hb⟩ := hs.states ref (hs.indexed _ hmem).left
    refine ⟨hcustomer, ?_⟩
    rw [← hcustomer, hb.customer]
    exact hb.owner
  case found agent hcustomer hagent =>
    exact ⟨rfl, agent, List.mem_of_find?_eq_some hagent, rfl, hcustomer⟩
  case enrolled d agent f hf =>
    obtain ⟨time, rfl⟩ := hf.row
    refine ⟨rfl, _, ?_, rfl, rfl⟩
    simp [Server.effect, hf.agents]

theorem Call.Finds.bound (h : Call.Finds x s k conn auth msg now known newConn st s') (hs : s.Sound svc)
    (hk : k.Local svc s) (hm : ¬auth.mismatches st.agentID) : Bound s' (st.attach conn msg now) auth := by
  have haccepted := h.accepted hk
  obtain ⟨hcustomer, howner⟩ := h.owner hs
  refine ⟨haccepted, hcustomer, howner, fun hvia => ?_⟩
  have hsome : auth.agentID.isSome := by
    cases h
    case known hconn _ _ => exact (hs.agentTokens conn auth hconn hvia).right
    case found | enrolled => exact (hs.agentTokens conn auth hk hvia).right
  simp only [ConnAuth.mismatches, hvia, hsome, true_and, decide_eq_true_eq, not_not] at hm
  exact hm

theorem Call.Finds.effects (h : Call.Finds x s k conn auth msg now known newConn st s') (hs : s.Sound svc)
    (hk : k.Local svc s) : ∀ e ∈ s'.effects, ∃ auth, Permitted svc s' e auth := by
  have hext := h.extends
  have howner := (h.owner hs).right
  cases h
  case known | found => exact hs.effects_same hext rfl
  case enrolled d agent f hf =>
    have hvia := hs.not_viaAgentToken hk hf.token
    exact hs.effects_concat hext rfl ⟨hk, howner, fun h => absurd h hvia, fun _ _ => hvia, by simp⟩

end Finds

section Work

variable {w : Work} {t : Task} {resp : ServerToAgent}

theorem Work.Sound.permitted (hw : w.Sound svc s ts) (hs : s.Sound svc) (henroll : ∀ tokenID, act ≠ .enroll tokenID)
    (hsend : ∀ config, act = .send config →
      Renders svc s (w.agent s).customerID config.body ∧ config.configHash = Runtime.sha256 config.body) :
    ∃ auth, Permitted svc s { conn := w.conn, agentID := (w.agent s).agentID, act := act } auth := by
  obtain ⟨auth, hb⟩ := hs.states w.st hw.st
  have hp : Permitted svc s { conn := (w.agent s).conn, agentID := (w.agent s).agentID, act := act } auth :=
    hb.permitted henroll hsend
  rw [hw.conn] at hp
  exact ⟨auth, hp⟩

theorem Task.Quiet.renders (h : t.Quiet) (customerID : UUID) : t.Renders svc s customerID := by
  cases t
  case setAssignedConfig | offerConfig => exact h.elim
  all_goals trivial

theorem Work.renders_tasks (w : Work) (customerID : UUID) : ∀ t ∈ w.tasks, t.Renders svc s customerID := by
  intro t ht
  obtain hq | rfl | rfl := w.mem_tasks ht
  · exact hq.renders customerID
  all_goals trivial

theorem Task.Step.effects (h : Task.Step svc x s w t new resp s') (hs : s.Sound svc) (hw : w.Sound svc s (t :: ts)) :
    ∀ e ∈ s'.effects, ∃ auth, Permitted svc s' e auth := by
  have hext := h.extends
  -- No task enrolls an agent or sends a config.
  have hpermitted : ∀ act : Act, (∀ tokenID, act ≠ .enroll tokenID) → (∀ config, act ≠ .send config) →
      ∃ auth, Permitted svc s' { conn := w.conn, agentID := (w.agent s).agentID, act := act } auth := by
    intro act henroll hsend
    obtain ⟨auth, hp⟩ := hw.permitted hs henroll fun config h => absurd h (hsend config)
    exact ⟨auth, hp.extends hext⟩
  cases h
  case skip | note | offerToken | put | noConfig | render | notAssigned | offer => exact hs.effects_same hext rfl
  case write | assign =>
    obtain ⟨auth, hp⟩ := hpermitted .store (by simp) (by simp)
    exact hs.effects_concat hext rfl hp
  case mint gen _ _ _ _ =>
    obtain ⟨auth, hp⟩ := hpermitted (.mint gen.hash) (by simp) (by simp)
    exact hs.effects_concat hext rfl hp
  case upToDate desired =>
    obtain ⟨auth, hp⟩ := hpermitted (.upToDate (Runtime.sha256 desired)) (by simp) (by simp)
    exact hs.effects_concat hext rfl hp

theorem Work.Sound.task (hw : w.Sound svc s (t :: ts)) (hs : s.Sound svc) (h : Task.Step svc x s w t new resp s') :
    Work.Sound svc s' { w with resp := resp } (new ++ ts) := by
  have hext := h.extends
  have hnew : ∀ t' ∈ new, t'.Renders svc s (w.agent s).customerID := by
    cases h
    case skip hnew | write hnew | note hnew => exact fun t' ht' => (hnew t' ht').renders _
    case mint => simp [Task.Renders]
    case render desired _ hd => simpa [Task.Renders] using ⟨_, hs.pipelines _, hd⟩
    case assign | notAssigned => simpa [Task.Renders] using hw.tasks _ List.mem_cons_self
    case offerToken | put | noConfig | upToDate | offer => simp
  have hresp : ∀ config, resp.remoteConfig = some config →
      Renders svc s (w.agent s).customerID config.body ∧ config.configHash = Runtime.sha256 config.body := by
    cases h
    case offerToken hresp => exact hresp ▸ hw.resp
    case offer desired hresp =>
      intro config hc
      obtain rfl := Option.some.inj (hresp.symm.trans hc)
      exact ⟨hw.tasks _ List.mem_cons_self, rfl⟩
    all_goals exact hw.resp
  have hw' : Work.Sound svc s { w with resp := resp } (new ++ ts) := by
    refine ⟨hw.st, hw.conn, fun t' ht' => ?_, hresp⟩
    obtain ht' | ht' := List.mem_append.mp ht'
    · exact hnew t' ht'
    · exact hw.tasks t' (List.mem_cons_of_mem _ ht')
  exact hw'.extends hext

end Work

section Call

theorem Server.Sound.tokens_step (h : s.Sound svc) (hs : Call.Step svc x s k k' s') :
    ∀ t ∈ s'.fleet.tokens, t.id ≠ nilUUID := by
  obtain hsame | ⟨conn, auth, msg, now, d, -, huses⟩ := hs.uses
  · rw [hsame.tokens]
    exact h.tokens
  · rw [huses.tokens]
    intro t ht
    obtain ⟨t', ht', rfl⟩ := List.mem_map.mp ht
    split_ifs
    all_goals exact h.tokens t' ht'

theorem Server.Sound.agentTokens_step (h : s.Sound svc) (hs : Call.Step svc x s k k' s') :
    ∀ conn auth, s'.accepted conn = some auth → auth.viaAgentToken →
      auth.tokenID = nilUUID ∧ auth.agentID.isSome := by
  cases hs
  case accept conn header auth _ hauth =>
    intro conn' auth' hconn' hvia
    simp only [Function.update_apply] at hconn'
    split_ifs at hconn'
    · cases hconn'
      exact authenticate_viaAgentToken hauth hvia
    · exact h.agentTokens conn' auth' hconn' hvia
  case mismatch hm hfinds | start hm hw hfinds =>
    cases hfinds
    all_goals exact h.agentTokens
  case task ht =>
    cases ht
    all_goals exact h.agentTokens
  case respond =>
    obtain ⟨effects, he⟩ := s.deliver_eq _ _ _
    rw [he]
    exact h.agentTokens
  all_goals exact h.agentTokens

theorem Call.Local.refers (hk : k.Local svc s) : k.Refers s := by
  cases k
  case work => exact hk.st
  all_goals trivial

theorem Server.Sound.states_step (h : s.Sound svc) (hk : k.Local svc s) (hs : Call.Step svc x s k k' s') :
    ∀ ref < s'.registry.next, ∃ auth, Bound s' (s'.registry.heap ref) auth := by
  refine hs.states (P := fun s st => ∃ auth, Bound s st auth) ?_ (fun hfinds hm => ⟨_, hfinds.bound h hk hm⟩) h.states
  rintro s s' st st' hext hsame ⟨auth, hb⟩
  exact ⟨auth, (hb.extends hext).same hsame⟩

theorem Server.Sound.pipelines_step (h : s.Sound svc) (hs : Call.Step svc x s k k' s') :
    ∀ customerID, s'.pipelines customerID ∈ s'.past customerID := by
  cases hs
  case mismatch hm hfinds | start hm hw hfinds =>
    cases hfinds
    all_goals exact h.pipelines
  case task ht =>
    cases ht
    all_goals exact h.pipelines
  case respond =>
    obtain ⟨effects, he⟩ := s.deliver_eq _ _ _
    rw [he]
    exact h.pipelines
  case commit customerID pipelines =>
    intro customerID'
    by_cases hc : customerID' = customerID
    · subst hc
      simp
    · simpa [Function.update_of_ne hc] using h.pipelines customerID'
  all_goals exact h.pipelines

theorem Server.Sound.effects_step (h : s.Sound svc) (hk : k.Local svc s) (hs : Call.Step svc x s k k' s') :
    ∀ e ∈ s'.effects, ∃ auth, Permitted svc s' e auth := by
  have hext := hs.extends
  cases hs
  case mismatch hm hfinds =>
    intro e he
    obtain ⟨auth, hp⟩ := hfinds.effects h hk e he
    exact ⟨auth, hp.extends (.of_same rfl .refl rfl rfl)⟩
  case start hm hw hfinds =>
    intro e he
    obtain ⟨auth, hp⟩ := hfinds.effects h hk e he
    exact ⟨auth, hp.extends (Server.new_extends _ _)⟩
  case task ht => exact ht.effects h hk
  case respond w =>
    unfold Server.deliver at hext ⊢
    split at hext
    case h_1 config hresp =>
      have hp : ∃ auth, Permitted svc s { conn := w.conn, agentID := (w.agent s).agentID, act := .send config } auth := by
        refine hk.permitted h (by simp) fun config' hc => ?_
        cases hc
        exact hk.resp config hresp
      obtain ⟨auth, hp⟩ := hp
      exact h.effects_concat hext rfl (hp.extends hext)
    case h_2 => exact h.effects_same hext rfl
  case disconnect st f g events hf hg =>
    obtain ⟨auth, hb⟩ := hk
    exact h.effects_concat hext rfl ((hb.permitted (by simp) (by simp)).extends hext)
  case assign customerID desired st rest f hf =>
    obtain ⟨-, auth, hb⟩ := hk.states st List.mem_cons_self
    exact h.effects_concat hext rfl ((hb.permitted (by simp) (by simp)).extends hext)
  case send customerID desired st rest =>
    obtain ⟨rfl, auth, hb⟩ := hk.states st List.mem_cons_self
    refine h.effects_concat hext rfl ((hb.permitted (by simp) fun config hc => ?_).extends hext)
    cases hc
    exact ⟨hk.renders, rfl⟩
  all_goals exact h.effects_same hext rfl

theorem Server.Sound.step (h : s.Sound svc) (hk : k.Local svc s) (hs : Call.Step svc x s k k' s') : s'.Sound svc where
  tokens := h.tokens_step hs
  agentTokens := h.agentTokens_step hs
  states := h.states_step hk hs
  indexed := hs.indexed h.indexed hk.refers
  pipelines := h.pipelines_step hs
  effects := h.effects_step hk hs

theorem Call.Local.step (hk : k.Local svc s) (h : s.Sound svc) (hs : Call.Step svc x s k k' s') : k'.Local svc s' := by
  have hext := hs.extends
  cases hs
  case look hconn => exact hconn
  case start conn auth msg now known newConn st s₁ w hm hw hfinds =>
    subst hw
    refine ⟨Nat.lt_succ_self _, ?_, Work.renders_tasks _ _, by simp [newWork, newResponse]⟩
    simp only [Work.agent, newWork, Registry.heap_new_self, AgentConn.attach]
  case notFound | conflict => exact hk
  case task ht => exact Work.Sound.task hk h ht
  case remove conn st hst =>
    obtain ⟨e, he, rfl, -⟩ := Registry.removeConn_eq_some hst
    obtain ⟨auth, hb⟩ := h.states e.2 (h.indexed e he).left
    exact ⟨auth, hb.extends hext⟩
  case render customerID desired hd => exact ⟨_, h.pipelines customerID, hd⟩
  case snapshot customerID desired =>
    refine ⟨hk, fun st hst => ?_⟩
    simp only [Registry.connsForCustomer, Registry.conns, List.mem_filter, List.mem_map, decide_eq_true_eq] at hst
    obtain ⟨⟨e, he, rfl⟩, hc, -⟩ := hst
    exact ⟨hc, h.states e.2 (h.indexed e he).left⟩
  case pass | notSent => exact ⟨hk.renders, fun st hst => hk.states st (List.mem_cons_of_mem _ hst)⟩
  case assign | notAssigned => exact PushSound.extends hk hext
  case send =>
    refine PushSound.extends ?_ hext
    exact ⟨hk.renders, fun st hst => hk.states st (List.mem_cons_of_mem _ hst)⟩
  case drain hk' =>
    obtain rfl | ⟨seen, rfl⟩ := hk'
    all_goals trivial
  all_goals trivial

theorem handler_stable : (handler svc).Stable (fun _ _ => True) (Server.Sound svc) (fun s k => k.Local svc s) where
  begin s r _ := by cases r <;> trivial
  shared x s k hs hk _ := hs.step hk (Call.step_spec k)
  own x s k hs hk _ := hk.step hs (Call.step_spec k)
  other x s k k' hs hk _ hk' := hk'.extends (Call.step_spec k).extends

end Call

section Log

theorem Task.Step.logged (h : Task.Step svc x s w t new resp s') : Logged s s' := by
  cases h
  case write hf hg _ _ | mint hf hg => exact .write hf hg.identity rfl rfl rfl
  case assign hf => exact .write hf (by intro; rfl) rfl rfl rfl
  all_goals exact .same rfl rfl

theorem Call.Step.logged (hs : Call.Step svc x s k k' s') (hk : ∀ seen, k ≠ .touch seen) : Logged s s' := by
  cases hs
  case touch seen => exact absurd rfl (hk seen)
  case stop hreplies _ => exact .silent rfl rfl hreplies
  case mismatch hm hfinds =>
    obtain ⟨hsent, hrows⟩ := hfinds.rows
    refine ⟨hrows, fun r hr config hc => ?_⟩
    simp only [Server.reject, Server.reply, hsent, List.drop_left, List.mem_singleton] at hr
    rw [hr] at hc
    cases hc
  case start hm hw hfinds =>
    obtain ⟨hsent, hrows⟩ := hfinds.rows
    exact ⟨hrows, fun r hr => by simp [hsent] at hr⟩
  case task ht => exact ht.logged
  case respond | send => exact .deliver _ _ _ _
  case disconnect hf hg => exact .write hf hg.identity rfl rfl rfl
  case assign hf => exact .write hf (by intro; rfl) rfl rfl rfl
  all_goals exact .same rfl rfl

end Log
end Steps

section Safety

variable [Runtime] {svc : Pipelines.Service} {publicEndpoint : String} {fleet : Fleet}
  {pipelines : UUID → List Store.ActivePipeline}

theorem Server.Sound.init (htokens : ∀ t ∈ fleet.tokens, t.id ≠ nilUUID) :
    (newServer publicEndpoint fleet pipelines).Sound svc where
  tokens := htokens
  agentTokens _ _ h := by cases h
  states ref h := absurd h (Nat.not_lt_zero ref)
  indexed e h := by cases h
  pipelines _ := List.mem_singleton_self _
  effects e h := by cases h

theorem ids_stable :
    (handler svc).Stable (fun _ _ => True) (fun s => (s.fleet.agents.map (·.id)).Nodup) (fun _ _ => True) where
  begin _ _ _ := trivial
  shared x s k h _ _ := by
    have hmap (f : Fleet) : f.agents.map (·.id) = f.identities.map (·.1) := by
      simp only [Fleet.identities, List.map_map]
      rfl
    rw [hmap] at h ⊢
    exact (Call.step_spec k).nodup (fun _ _ => .inl) h
  own _ _ _ _ _ _ := trivial
  other _ _ _ _ _ _ _ _ := trivial

-- Over every run, all that is done to an agent is done through a connection that may do it. No key of
-- an agent is used twice, so an agent has one owner.
theorem binding_safety (hids : (fleet.agents.map (·.id)).Nodup) (htokens : ∀ t ∈ fleet.tokens, t.id ≠ nilUUID)
    (events : List (Event Request Draw)) {c : Config Call Server}
    (hc : c = (handler svc).run ((handler svc).init (newServer publicEndpoint fleet pipelines)) events) :
    (c.shared.fleet.agents.map (·.id)).Nodup ∧
      (∀ e ∈ c.shared.effects, ∃ auth, Permitted svc c.shared e auth) ∧
      ∀ i x, (∀ seen, c.calls i ≠ .touch seen) → Logged c.shared ((handler svc).act c (.run i x)).shared := by
  subst hc
  refine ⟨?_, ?_, fun i x hi => (Call.step_spec _).logged hi⟩
  · exact (ids_stable.always hids trivial events).left
  · exact (handler_stable.always (Server.Sound.init htokens) trivial events).left.effects

end Safety

section Sample

def otherToken : Store.BootstrapToken :=
  { sampleToken with
    id := 8
    customerID := 2
    tokenPrefix := "otm_bt_4567cdef"
    tokenHash := sampleRuntime.sha256 "otm_bt_4567cdef_s" }

def twoCustomers : Fleet :=
  { sampleFleet with customers := [(1, .active), (2, .active)], tokens := [sampleToken, otherToken] }

-- The agents of two customers report at the same time under one instance id, and the one that comes
-- second is turned away until it reports under another.
def sameInstance : List (Event Request Draw) :=
  connectSample ++ callOf 1 (.connect 2 "Bearer otm_bt_4567cdef_s") 1 0 ++
    .start 0 (.message 1 (sampleMessage [1] acceptsRemoteConfig)) ::
    .start 1 (.message 2 (sampleMessage [1] acceptsRemoteConfig)) ::
    (List.replicate 12 [.run 0 (sampleDraw 20), .run 1 (sampleDraw 30)]).flatten ++
    callOf 1 (.message 2 (sampleMessage [2] acceptsRemoteConfig)) 12 30

def isSend (e : Effect) : Bool :=
  match e.act with
  | .send _ => true
  | _ => false

def sameInstanceServer [Runtime] : Server :=
  ((handler sampleService).run
    ((handler sampleService).init (newServer "" twoCustomers fun _ => [])) sameInstance).shared

theorem sameInstance_permitted :
    letI := sampleRuntime
    (sameInstanceServer.fleet.agents.map fun a => (a.id, a.customerID)) = [(21, some 1), (31, some 2)] ∧
      ((sameInstanceServer.effects.filter isSend).map fun e => (e.conn, e.agentID)) = [(1, 21), (2, 31)] ∧
      ∀ e ∈ sameInstanceServer.effects, ∃ auth, Permitted sampleService sameInstanceServer e auth := by
  refine ⟨by decide +kernel, by decide +kernel, ?_⟩
  unfold sameInstanceServer
  exact (@binding_safety sampleRuntime sampleService "" twoCustomers (fun _ => []) (by decide) (by decide)
    sameInstance _ rfl).right.left

end Sample
end Opamp
