import OtelFleet.Opamp.Theorems.Binding
import OtelFleet.Opamp.Theorems.Grounded

-- When all is quiet, every connected agent has been given the config of its customer.
namespace Opamp

open Store (UUID Hash Fleet Agent)
open Pipelines (Service)

section Delivery

def Act.isDelivery : Act → Bool
  | send _ | upToDate _ => true
  | _ => false

def Server.delivered (s : Server) (agentID : UUID) : Option Act :=
  (s.effects.filter fun e => e.agentID = agentID ∧ e.act.isDelivery).getLast?.map (·.act)

theorem Server.delivered_effect (s : Server) (conn : ConnID) (id : UUID) (act : Act) (agentID : UUID) :
    (s.effect conn id act).delivered agentID =
      if id = agentID ∧ act.isDelivery then some act else s.delivered agentID := by
  unfold delivered effect
  rw [List.filter_append]
  split_ifs with h
  all_goals simp [h]

variable [Runtime] (svc : Service)

def Act.Delivers (desired : String) : Act → Prop
  | send config => config = { body := desired, configHash := Runtime.sha256 desired }
  | upToDate hash => hash = Runtime.sha256 desired
  | _ => False

def Server.Offered (s : Server) (agentID : UUID) (desired : String) : Prop :=
  ∃ act, s.delivered agentID = some act ∧ act.Delivers desired

-- Every connected agent that accepts configs has the current one of its customer, and so has its row.
def Converged (s : Server) : Prop :=
  ∀ e ∈ s.registry.byUID, (s.registry.heap e.2).accepts acceptsRemoteConfig →
    ∀ desired, s.renderEdgeCurrent svc (s.registry.heap e.2).customerID = .ok desired →
      s.fleet.Assigned (s.registry.heap e.2).agentID (Runtime.sha256 desired) ∧
        s.Offered (s.registry.heap e.2).agentID desired

-- No call is under way, and every change has been handled.
structure Quiescent (c : Interleave.Config Call Server) : Prop where
  calls : ∀ i, c.calls i = .idle
  notifications : c.shared.notifications = []

-- A config is the current one, or a push that is still to come will render it anew.
def Desired (s : Server) (customerID : UUID) (desired : String) : Prop :=
  customerID ∈ s.due ∨ s.renderEdgeCurrent svc customerID = .ok desired

def Task.isRenderConfig : Task → Bool
  | renderConfig => true
  | _ => false

-- A message does not write or send a config that a push has superseded, and one that makes the registry
-- hold an agent that accepts configs, which it did not before, goes on to render the config.
def Timely (s : Server) : Call → Prop
  | .work w [] => ∀ config ∈ w.resp.remoteConfig, Desired svc s (w.agent s).customerID config.body
  | .work w (.setAssignedConfig desired :: _) => Desired svc s (w.agent s).customerID desired
  | .work w (.offerConfig desired :: _) => Desired svc s (w.agent s).customerID desired
  | .work w (.put :: ts) =>
    (w.agent s).accepts acceptsRemoteConfig →
      (s.registry.live? (w.agent s).instanceUID).any (·.accepts acceptsRemoteConfig) ∨ ts.any (·.isRenderConfig)
  | _ => True

end Delivery

section Grounded

def Call.Pushing : Call → Prop
  | render _ | snapshot .. | push .. | send .. => True
  | _ => False

variable [Runtime] (svc : Service)

structure PushGrounded (s : Server) (customerID : UUID) (desired : String) (rest : List AgentConn) : Prop where
  listening : s.listening
  desired : Desired svc s customerID desired
  states : ∀ st ∈ rest, st.customerID = customerID ∧ Known s st

def Call.Grounded (s : Server) : Call → Prop
  | work w _ => w.st < s.registry.next ∧
      ∀ config ∈ w.resp.remoteConfig, config.configHash = Runtime.sha256 config.body
  | render _ => s.listening
  | snapshot customerID desired => PushGrounded svc s customerID desired []
  | push customerID desired rest => PushGrounded svc s customerID desired rest
  | send customerID desired st rest => PushGrounded svc s customerID desired (st :: rest)
  | _ => True

end Grounded

section Steps

variable {k k' : Call}

variable [Runtime]

theorem Call.Grounded.refers (hk : k.Grounded svc s) : k.Refers s := by
  cases k
  case work => exact hk.left
  all_goals trivial

theorem Desired.same {customerID : UUID} {desired : String} (hp : s'.pipelines = s.pipelines) (hd : s'.due = s.due)
    (h : Desired svc s customerID desired) : Desired svc s' customerID desired := by
  unfold Desired Server.renderEdgeCurrent at h ⊢
  rwa [hp, hd]

theorem Call.Step.listening_and_desired (hs : Call.Step svc x s k k' s') (hk : ¬k.Pushing) :
    (s.listening → s'.listening) ∧
      ∀ customerID desired, Desired svc s customerID desired → Desired svc s' customerID desired := by
  have hsame : s'.listening = s.listening ∧ s'.pipelines = s.pipelines ∧ s'.due = s.due →
      (s.listening → s'.listening) ∧
        ∀ customerID desired, Desired svc s customerID desired → Desired svc s' customerID desired :=
    fun ⟨hl, hp, hd⟩ => ⟨fun h => hl ▸ h, fun _ _ => .same hp hd⟩
  cases hs
  case noRender | render | snapshot | pushed | pass | assign | notAssigned | send | notSent =>
    exact absurd trivial hk
  case mismatch hm hfinds | start hm hw hfinds =>
    refine hsame ?_
    cases hfinds
    all_goals exact ⟨rfl, rfl, rfl⟩
  case task ht =>
    refine hsame ?_
    cases ht
    all_goals exact ⟨rfl, rfl, rfl⟩
  case respond =>
    obtain ⟨effects, he⟩ := s.deliver_eq _ _ _
    rw [he]
    exact ⟨id, fun _ _ => .same rfl rfl⟩
  case commit customerID pipelines =>
    refine ⟨id, fun customerID' desired hd => ?_⟩
    by_cases hc : customerID' = customerID
    · exact .inl (hc ▸ List.mem_cons_self)
    · refine hd.imp (List.mem_cons_of_mem _) fun h => ?_
      simpa [Server.renderEdgeCurrent, Function.update_of_ne hc] using h
  case listen => exact ⟨fun _ => rfl, fun _ _ => .same rfl rfl⟩
  all_goals exact hsame ⟨rfl, rfl, rfl⟩

theorem PushGrounded.other {desired : String}
    (h : PushGrounded svc s customerID desired rest) (hs : Call.Step svc x s k k' s') (hk : ¬k.Pushing) :
    PushGrounded svc s' customerID desired rest where
  listening := (hs.listening_and_desired hk).left h.listening
  desired := (hs.listening_and_desired hk).right _ _ h.desired
  states st hst := ⟨(h.states st hst).left, (h.states st hst).right.extends hs.extends (.refl st)⟩

theorem PushGrounded.same {desired : String}
    (h : PushGrounded svc s customerID desired rest) (hl : s'.listening = s.listening)
    (hp : s'.pipelines = s.pipelines) (hd : s'.due = s.due) (hext : s.Extends s') :
    PushGrounded svc s' customerID desired rest where
  listening := hl ▸ h.listening
  desired := h.desired.same hp hd
  states st hst := ⟨(h.states st hst).left, (h.states st hst).right.extends hext (.refl st)⟩

theorem PushGrounded.tail {desired : String}
    (h : PushGrounded svc s customerID desired (st :: rest)) : PushGrounded svc s customerID desired rest :=
  ⟨h.listening, h.desired, fun st hst => h.states st (List.mem_cons_of_mem _ hst)⟩

theorem Call.Grounded.other {k₂ : Call} (h : k₂.Grounded svc s) (hs : Call.Step svc x s k k' s')
    (hk : ¬(k.Pushing ∧ k₂.Pushing)) : k₂.Grounded svc s' := by
  cases k₂
  case work => exact ⟨h.left.trans_le hs.extends.next, h.right⟩
  case render => exact (hs.listening_and_desired fun hp => hk ⟨hp, trivial⟩).left h
  case snapshot | push | send => exact PushGrounded.other h hs fun hp => hk ⟨hp, trivial⟩
  all_goals trivial

theorem Call.Grounded.step (h : k.Grounded svc s) (hG : s.Grounded) (hs : Call.Step svc x s k k' s') :
    k'.Grounded svc s' := by
  have hext := hs.extends
  cases hs
  case start hm hw hfinds => exact hw ▸ ⟨Nat.lt_succ_self _, by simp [newWork, newResponse]⟩
  case task t ts new resp ht =>
    refine ⟨h.left.trans_le hext.next, ?_⟩
    cases ht
    case offerToken hresp => exact hresp ▸ h.right
    case offer hresp => simp [hresp]
    all_goals exact h.right
  case listen => rfl
  case render customerID desired hd => exact ⟨h, .inr hd, by simp⟩
  case snapshot customerID desired =>
    refine ⟨h.listening, h.desired, fun st hst => ?_⟩
    simp only [Registry.connsForCustomer, Registry.conns, List.mem_filter, List.mem_map, decide_eq_true_eq] at hst
    obtain ⟨⟨e, he, rfl⟩, hc, -⟩ := hst
    exact ⟨hc, hG.live he⟩
  case pass | notSent => exact PushGrounded.tail h
  case assign => exact PushGrounded.same h rfl rfl rfl hext
  case notAssigned => exact h
  case send => exact (PushGrounded.tail h).same rfl rfl rfl hext
  case drain hk' =>
    obtain rfl | ⟨seen, rfl⟩ := hk'
    all_goals trivial
  all_goals trivial

def Apart (k k' : Call) : Prop :=
  ¬(k.Pushing ∧ k'.Pushing)

theorem Call.Step.apart {k₂ : Call} (hs : Call.Step svc x s k k' s') (h : Apart k k₂) (hk₂ : k₂.Grounded svc s) :
    Apart k' k₂ := by
  rintro ⟨hk', hp⟩
  -- A call starts to handle a notification only if no other call is listening.
  have hlistening : s.listening := by
    cases k₂
    case render => exact hk₂
    case snapshot | push | send => exact hk₂.listening
    all_goals exact hp.elim
  cases hs
  case listen hn hl => exact hl hlistening
  case drain hr =>
    obtain rfl | ⟨seen, rfl⟩ := hr
    all_goals exact hk'
  case render | snapshot | pass | assign | notAssigned | send | notSent => exact h ⟨trivial, hp⟩
  all_goals exact hk'

theorem reliable_exclusive {ok : Server → Call → Prop} :
    (reliable svc).Exclusive ok Server.Grounded (fun s k => k.Grounded svc s) Apart where
  symm _ _ h := fun ⟨hk, hk'⟩ => h ⟨hk', hk⟩
  begin s r _ := by cases r <;> trivial
  beginApart r k := fun ⟨hk, _⟩ => by cases r <;> exact hk
  shared x s k hs hk _ := hs.step hk.refers (Call.step_spec k)
  own x s k hs hk _ := hk.step hs (Call.step_spec k)
  other x s k k' hs hk _ hk' hm := hk'.other (Call.step_spec k) hm
  apart x s k k' hs hk _ hk' hm := (Call.step_spec k).apart hm hk'

end Steps

section Promises

def Task.Assigns : Task → Prop
  | renderConfig | setAssignedConfig _ => True
  | _ => False

def Task.Offers : Task → Prop
  | renderConfig | setAssignedConfig _ | offerConfig _ => True
  | _ => False

def Reaches (agentID : UUID) (rest : List AgentConn) : Prop :=
  ∃ st ∈ rest, st.agentID = agentID ∧ st.accepts acceptsRemoteConfig

def Call.WillAssign (s : Server) (agentID : UUID) : Call → Prop
  | work w ts => (w.agent s).agentID = agentID ∧ (w.agent s).accepts acceptsRemoteConfig ∧ ∃ t ∈ ts, t.Assigns
  | snapshot customerID _ => s.fleet.Owns customerID agentID
  | push _ _ rest | send _ _ _ rest => Reaches agentID rest
  | _ => False

def Call.WillOffer (s : Server) (agentID : UUID) : Call → Prop
  | work w ts => (w.agent s).agentID = agentID ∧ (w.agent s).accepts acceptsRemoteConfig ∧
      ((∃ t ∈ ts, t.Offers) ∨ w.resp.remoteConfig.isSome)
  | snapshot customerID _ => s.fleet.Owns customerID agentID
  | push _ _ rest => Reaches agentID rest
  | send _ _ st rest => st.agentID = agentID ∨ Reaches agentID rest
  | _ => False

variable {s s' : Server} {k k' : Call} {agentID : UUID}

theorem Call.WillAssign.extends (h : k.WillAssign s agentID) (hext : s.Extends s') (hk : k.Refers s) :
    k.WillAssign s' agentID := by
  cases k
  case work w ts =>
    have hsame := hext.heap w.st hk
    exact ⟨hsame.agentID.trans h.left, (hsame.accepts _).trans h.right.left, h.right.right⟩
  case snapshot => exact hext.owns h
  case push | send => exact h
  all_goals exact h.elim

theorem Call.WillOffer.extends (h : k.WillOffer s agentID) (hext : s.Extends s') (hk : k.Refers s) :
    k.WillOffer s' agentID := by
  cases k
  case work w ts =>
    have hsame := hext.heap w.st hk
    exact ⟨hsame.agentID.trans h.left, (hsame.accepts _).trans h.right.left, h.right.right⟩
  case snapshot => exact hext.owns h
  case push | send => exact h
  all_goals exact h.elim

variable {t : Task} {st st₁ : AgentConn}

theorem Call.WillAssign.cons (hsame : (w.agent s).Same (w.agent s')) (ht : t.Assigns → ∃ t' ∈ new, t'.Assigns)
    (h : (Call.work w (t :: ts)).WillAssign s agentID) :
    (Call.work { w with resp := resp } (new ++ ts)).WillAssign s' agentID := by
  obtain ⟨hid, haccepts, t', hmem, ht'⟩ := h
  refine ⟨hsame.agentID.trans hid, (hsame.accepts _).trans haccepts, ?_⟩
  obtain rfl | hmem := List.mem_cons.mp hmem
  · obtain ⟨t'', hnew, ht''⟩ := ht ht'
    exact ⟨t'', List.mem_append_left _ hnew, ht''⟩
  · exact ⟨t', List.mem_append_right _ hmem, ht'⟩

theorem Call.WillOffer.cons (hsame : (w.agent s).Same (w.agent s'))
    (ht : t.Offers → (∃ t' ∈ new, t'.Offers) ∨ resp.remoteConfig.isSome)
    (hresp : w.resp.remoteConfig.isSome → resp.remoteConfig.isSome) (h : (Call.work w (t :: ts)).WillOffer s agentID) :
    (Call.work { w with resp := resp } (new ++ ts)).WillOffer s' agentID := by
  obtain ⟨hid, haccepts, h⟩ := h
  refine ⟨hsame.agentID.trans hid, (hsame.accepts _).trans haccepts, ?_⟩
  obtain ⟨t', hmem, ht'⟩ | h := h
  · obtain rfl | hmem := List.mem_cons.mp hmem
    · exact (ht ht').imp_left fun ⟨t'', hnew, ht''⟩ => ⟨t'', List.mem_append_left _ hnew, ht''⟩
    · exact .inl ⟨t', List.mem_append_right _ hmem, ht'⟩
  · exact .inr (hresp h)

theorem Task.Quiet.not_assigns (h : t.Quiet) : ¬t.Assigns := by
  cases t
  case renderConfig | setAssignedConfig => exact h.elim
  all_goals exact id

theorem Task.Quiet.not_offers (h : t.Quiet) : ¬t.Offers := by
  cases t
  case renderConfig | setAssignedConfig | offerConfig => exact h.elim
  all_goals exact id

theorem Call.MayStop.not_will (h : k.MayStop) : ¬k.WillAssign s agentID ∧ ¬k.WillOffer s agentID := by
  cases k
  case idle | connect | receive | lookup | enroll | listen => exact ⟨id, id⟩
  all_goals exact h.elim

theorem Call.Finds.mayStop {known newConn : Bool}
    (h : Call.Finds x s k conn auth msg now known newConn st s') : k.MayStop := by
  cases h
  all_goals trivial

theorem Call.Finds.kept {known newConn : Bool} (h : Call.Finds x s k conn auth msg now known newConn st s') :
    s'.pipelines = s.pipelines ∧ s'.due = s.due ∧ s'.delivered agentID = s.delivered agentID ∧
      ∀ hash, s.fleet.Assigned agentID hash → s'.fleet.Assigned agentID hash := by
  cases h
  case known | found => exact ⟨rfl, rfl, rfl, fun _ => id⟩
  case enrolled d agent f hf =>
    refine ⟨rfl, rfl, ?_, fun _ h => h.enrolled hf⟩
    rw [Server.delivered_effect, if_neg (by simp [Act.isDelivery])]
    rfl

theorem Reaches.cons {rest : List AgentConn} (h : Reaches agentID (st :: rest)) :
    st.agentID = agentID ∧ st.accepts acceptsRemoteConfig ∨ Reaches agentID rest := by
  obtain ⟨st', hmem, hst'⟩ := h
  obtain rfl | hmem := List.mem_cons.mp hmem
  · exact .inl hst'
  · exact .inr ⟨st', hmem, hst'⟩

variable [Runtime] (svc : Service)

-- What a step of a call does for an agent of a customer for whom no push is due: what has been done stays
-- done, and what the call was to do has been done or is still to be done.
structure Advances (s s' : Server) (k k' : Call) (agentID customerID : UUID) : Prop where
  due : customerID ∈ s.due → customerID ∈ s'.due
  current : s'.renderEdgeCurrent svc customerID = s.renderEdgeCurrent svc customerID
  assigned : customerID ∉ s.due → ∀ desired, s.renderEdgeCurrent svc customerID = .ok desired →
    s.fleet.Assigned agentID (Runtime.sha256 desired) ∨ k.WillAssign s agentID →
    s'.fleet.Assigned agentID (Runtime.sha256 desired) ∨ k'.WillAssign s' agentID
  offered : customerID ∉ s.due → ∀ desired, s.renderEdgeCurrent svc customerID = .ok desired →
    s.Offered agentID desired ∨ k.WillOffer s agentID → s'.Offered agentID desired ∨ k'.WillOffer s' agentID

variable {svc}

theorem Server.Offered.same {desired : String} (h : s.Offered agentID desired)
    (hd : s'.delivered agentID = s.delivered agentID) : s'.Offered agentID desired := by
  unfold Server.Offered
  rw [hd]
  exact h

theorem Server.Offered.effect {desired : String} {conn : ConnID} {act : Act} (hact : act.isDelivery)
    (h : act.Delivers desired) : (s.effect conn agentID act).Offered agentID desired :=
  ⟨act, by rw [Server.delivered_effect, if_pos ⟨rfl, hact⟩], h⟩

theorem Advances.quiet (hp : s'.pipelines = s.pipelines) (hd : s'.due = s.due)
    (ha : ∀ hash, s.fleet.Assigned agentID hash → s'.fleet.Assigned agentID hash)
    (ho : s'.delivered agentID = s.delivered agentID) (hassign : k.WillAssign s agentID → k'.WillAssign s' agentID)
    (hoffer : k.WillOffer s agentID → k'.WillOffer s' agentID) : Advances svc s s' k k' agentID customerID where
  due h := hd ▸ h
  current := by
    unfold Server.renderEdgeCurrent
    rw [hp]
  assigned _ _ _ h := h.imp (ha _) hassign
  offered _ _ _ h := h.imp (·.same ho) hoffer

theorem Desired.eq {desired desired' : String} (h : Desired svc s customerID desired) (hdue : customerID ∉ s.due)
    (hd : s.renderEdgeCurrent svc customerID = .ok desired') : desired = desired' := by
  obtain h | h := h
  · exact absurd h hdue
  · exact Except.ok.inj (h.symm.trans hd)

theorem Advances.mayStop (hk : k.MayStop) (hp : s'.pipelines = s.pipelines) (hd : s'.due = s.due)
    (ho : s'.delivered agentID = s.delivered agentID)
    (ha : ∀ hash, s.fleet.Assigned agentID hash → s'.fleet.Assigned agentID hash) :
    Advances svc s s' k k' agentID customerID :=
  .quiet hp hd ha ho (fun h => absurd h hk.not_will.left) fun h => absurd h hk.not_will.right

section Write

variable (hs : s.Grounded) (hst : Known s st) (hst₁ : Known s st₁) (hok : Desired svc s st₁.customerID desired)
  (hdue : st.customerID ∉ s.due) (hd : s.renderEdgeCurrent svc st.customerID = .ok desired')
include hs hst hst₁ hok hdue hd

theorem Desired.eq_of_agentID (hid : st₁.agentID = st.agentID) : desired = desired' :=
  Desired.eq (hs.eq_of_agentID hst₁ hst hid ▸ hok) hdue hd

theorem Desired.assigned {f : Fleet}
    (hf : s.fleet.Updated f st₁.agentID fun a => { a with assignedConfigHash := Runtime.sha256 desired })
    (h : s.fleet.Assigned st.agentID (Runtime.sha256 desired') ∨ st₁.agentID = st.agentID) :
    f.Assigned st.agentID (Runtime.sha256 desired') := by
  by_cases hid : st₁.agentID = st.agentID
  · rw [← Desired.eq_of_agentID hs hst hst₁ hok hdue hd hid, ← hid]
    exact .of_updated hf hst₁.row
  · obtain h | h := h
    · exact h.updated hf (fun _ => rfl) fun h => absurd h.symm hid
    · exact absurd h hid

theorem Desired.offered {conn : ConnID} {act : Act} (hdelivery : act.isDelivery) (hact : act.Delivers desired)
    (h : s.Offered st.agentID desired' ∨ st₁.agentID = st.agentID) :
    (s.effect conn st₁.agentID act).Offered st.agentID desired' := by
  by_cases hid : st₁.agentID = st.agentID
  · rw [← Desired.eq_of_agentID hs hst hst₁ hok hdue hd hid, hid]
    exact .effect hdelivery hact
  · obtain h | h := h
    · refine h.same ?_
      rw [Server.delivered_effect, if_neg fun h => hid h.left]
    · exact absurd h hid

end Write

section Task

theorem Task.Step.advances (h : Task.Step svc x s w t new resp s') (hfail : ¬x.fail) (hs : s.Grounded)
    (hw : w.st < s.registry.next) (hok : Timely svc s (.work w (t :: ts))) (hst : Known s st) :
    Advances svc s s' (.work w (t :: ts)) (.work { w with resp := resp } (new ++ ts)) st.agentID st.customerID := by
  have hsame : (w.agent s).Same (w.agent s') := h.extends.heap w.st hw
  have hagent : Known s (w.agent s) := hs.states w.st hw
  cases h
  case skip ht hnew | note hr ht hnew =>
    exact .quiet rfl rfl (fun _ => id) rfl (.cons hsame fun h => absurd h ht.not_assigns)
      (.cons hsame (fun h => absurd h ht.not_offers) id)
  case write hf hg ht hnew =>
    refine .quiet rfl rfl (fun _ h => h.updated hf (fun a => congrArg (·.1) (hg.identity a)) fun _ => hg.assigned) ?_
      (.cons hsame fun h => absurd h ht.not_assigns) (.cons hsame (fun h => absurd h ht.not_offers) id)
    rw [Server.delivered_effect, if_neg (by simp [Act.isDelivery])]
    rfl
  case mint gen f g hf hg =>
    refine .quiet rfl rfl (fun _ h => h.updated hf (fun a => congrArg (·.1) (hg.identity a)) fun _ => hg.assigned) ?_
      (.cons hsame fun h => h.elim) (.cons hsame (fun h => h.elim) id)
    rw [Server.delivered_effect, if_neg (by simp [Act.isDelivery])]
    rfl
  case offerToken gen r hr hresp =>
    exact .quiet rfl rfl (fun _ => id) rfl (.cons hsame fun h => h.elim)
      (.cons hsame (fun h => h.elim) fun h => hresp ▸ h)
  case put =>
    exact .quiet rfl rfl (fun _ => id) rfl (.cons hsame fun h => h.elim) (.cons hsame (fun h => h.elim) id)
  case noConfig hno =>
    -- The call will not render a config, but then there is none, or the agent does not accept it.
    have hnot : ∀ desired, s.renderEdgeCurrent svc st.customerID = .ok desired →
        (w.agent s).agentID = st.agentID → ¬(w.agent s).accepts acceptsRemoteConfig := by
      intro desired hd hid haccepts
      obtain hno | hno | ⟨e, he⟩ := hno
      · exact hno haccepts
      · exact hfail hno
      · rw [hs.eq_of_agentID hagent hst hid, hd] at he
        cases he
    refine ⟨id, rfl, fun _ desired hd h => h.imp_right fun h => ?_, fun _ desired hd h => h.imp_right fun h => ?_⟩
    all_goals exact absurd h.right.left (hnot desired hd h.left)
  case render desired haccepts hd =>
    exact .quiet rfl rfl (fun _ => id) rfl (.cons hsame fun _ => ⟨_, List.mem_singleton_self _, trivial⟩)
      (.cons hsame (fun _ => .inl ⟨_, List.mem_singleton_self _, trivial⟩) id)
  case assign desired f hf =>
    refine ⟨id, rfl, fun hdue desired' hd h => .inl ?_, fun _ desired' hd h => h.imp (fun h => ?_) fun h => ?_⟩
    · exact Desired.assigned hs hst hagent hok hdue hd hf (h.imp_right (·.left))
    · refine h.same ?_
      rw [Server.delivered_effect, if_neg (by simp [Act.isDelivery])]
      rfl
    · exact .cons hsame (fun _ => .inl ⟨_, List.mem_singleton_self _, trivial⟩) id h
  case notAssigned desired hno =>
    obtain hno | hno := hno
    · exact absurd hno hfail
    · obtain ⟨a, ha, hid⟩ := hagent.row
      exact absurd hid (hno a ha)
  case upToDate desired =>
    refine ⟨id, rfl, fun _ desired' hd h => h.imp_right fun h => ?_, fun hdue desired' hd h => .inl ?_⟩
    · refine .cons hsame ?_ h
      exact fun h => h.elim
    · exact Desired.offered hs hst hagent hok hdue hd rfl rfl (h.imp_right (·.left))
  case offer desired hresp =>
    exact .quiet rfl rfl (fun _ => id) rfl (.cons hsame fun h => h.elim)
      (.cons hsame (fun _ => .inr (by simp [hresp])) fun _ => by simp [hresp])

end Task
section Call

theorem Call.Step.advances (h : Call.Step svc x s k k' s') (hfail : ¬x.fail) (hs : s.Grounded) (hk : k.Grounded svc s)
    (hok : Timely svc s k) (hlive : st ∈ s.registry.conns) (haccepts : st.accepts acceptsRemoteConfig)
    (hcommit : ∀ pipelines, k ≠ .commit st.customerID pipelines) (hrender : k ≠ .render st.customerID) :
    Advances svc s s' k k' st.agentID st.customerID := by
  have hst : Known s st := by
    obtain ⟨e, he, rfl⟩ := List.mem_map.mp hlive
    exact hs.live he
  cases h
  case stop _ hstop => exact .mayStop hstop rfl rfl rfl fun _ => id
  case mismatch hm hfinds | start hm hw hfinds =>
    obtain ⟨hp, hd, ho, ha⟩ := hfinds.kept
    exact .mayStop hfinds.mayStop hp hd ho ha
  case task ht => exact ht.advances hfail hs hk.left hok hst
  case respond w =>
    have hagent : Known s (w.agent s) := hs.states w.st hk.left
    unfold Server.deliver
    split
    case h_1 config hresp =>
      refine ⟨id, rfl, fun _ _ _ h => .inl (h.resolve_right fun h => ?_), fun hdue desired hd h => .inl ?_⟩
      · simpa using h.right.right
      · have hdelivers : (Act.send config).Delivers config.body := by
          simp only [Act.Delivers, ← hk.right config hresp]
        exact (Desired.offered hs hst hagent (hok config hresp) hdue hd rfl hdelivers (h.imp_right (·.left))).same rfl
    case h_2 hresp =>
      refine .quiet rfl rfl (fun _ => id) rfl (fun h => ?_) fun h => ?_
      · simpa using h.right.right
      · simpa [hresp] using h.right.right
  case disconnect hf hg =>
    refine .quiet rfl rfl (fun _ h => h.updated hf (fun a => congrArg (·.1) (hg.identity a)) fun _ => hg.assigned) ?_
      (fun h => h.elim) fun h => h.elim
    rw [Server.delivered_effect, if_neg (by simp [Act.isDelivery])]
    rfl
  case commit customerID pipelines =>
    have hne : st.customerID ≠ customerID := fun h => hcommit pipelines (h ▸ rfl)
    refine ⟨List.mem_cons_of_mem _, ?_, fun _ _ _ h => h.imp id fun h => h.elim, fun _ _ _ h => h.imp (·.same rfl) fun h => h.elim⟩
    simp [Server.renderEdgeCurrent, Function.update_of_ne hne]
  case noRender customerID he | render customerID desired hd =>
    have hne : st.customerID ≠ customerID := fun h => hrender (h ▸ rfl)
    refine ⟨fun h => List.mem_filter.mpr ⟨h, by simpa using hne⟩, rfl, fun _ _ _ h => .inl ?_, fun _ _ _ h => .inl ?_⟩
    · exact h.resolve_right id
    · exact (h.resolve_right id).same rfl
  case snapshot customerID desired =>
    -- The agent is connected, so the push will come to it.
    have hreaches : s.fleet.Owns customerID st.agentID →
        Reaches st.agentID (s.registry.connsForCustomer customerID) := by
      intro howns
      obtain ⟨uid, hmem⟩ := Fleet.owns_iff.mp howns
      have hcustomer := List.inj_on_of_nodup_map hs.ids hst hmem rfl
      refine ⟨st, List.mem_filter.mpr ⟨hlive, ?_⟩, rfl, haccepts⟩
      simp only [decide_eq_true_eq]
      exact ⟨Option.some.inj (congrArg (·.2.2) hcustomer), hs.ids_ne_nil _ hst⟩
    exact .quiet rfl rfl (fun _ => id) rfl hreaches hreaches
  case pushed =>
    exact .quiet rfl rfl (fun _ => id) rfl (fun ⟨_, h, _⟩ => by cases h) fun ⟨_, h, _⟩ => by cases h
  case pass st₁ rest hno =>
    have hreaches (h : Reaches st.agentID (st₁ :: rest)) : Reaches st.agentID rest :=
      h.cons.resolve_left fun h => hno h.right
    exact .quiet rfl rfl (fun _ => id) rfl hreaches hreaches
  case assign customerID desired st₁ rest f hf =>
    obtain ⟨rfl, hst₁⟩ := hk.states st₁ List.mem_cons_self
    refine ⟨id, rfl, fun hdue desired' hd h => ?_, fun _ desired' hd h => h.imp (fun h => ?_) fun h => ?_⟩
    · obtain h | h := h
      · exact .inl (Desired.assigned hs hst hst₁ hk.desired hdue hd hf (.inl h))
      · exact (Reaches.cons h).imp_left fun h => Desired.assigned hs hst hst₁ hk.desired hdue hd hf (.inr h.left)
    · refine h.same ?_
      rw [Server.delivered_effect, if_neg (by simp [Act.isDelivery])]
      rfl
    · exact (Reaches.cons h).imp_left (·.left)
  case notAssigned customerID desired st₁ rest hno =>
    obtain hno | hno := hno
    · exact absurd hno hfail
    · obtain ⟨a, ha, hid⟩ := (hk.states st₁ List.mem_cons_self).right.row
      exact absurd hid (hno a ha)
  case send customerID desired st₁ rest =>
    obtain ⟨rfl, hst₁⟩ := hk.states st₁ List.mem_cons_self
    refine ⟨id, rfl, fun _ desired' hd h => h, fun hdue desired' hd h => ?_⟩
    have hdelivers : (Act.send { body := desired, configHash := Runtime.sha256 desired }).Delivers desired := rfl
    have hoffered (h : s.Offered st.agentID desired' ∨ st₁.agentID = st.agentID) :
        (s.deliver st₁.conn st₁.agentID (configPush st₁ desired)).Offered st.agentID desired' :=
      (Desired.offered hs hst hst₁ hk.desired hdue hd rfl hdelivers h).same rfl
    obtain h | h | h := h
    · exact .inl (hoffered (.inl h))
    · exact .inl (hoffered (.inr h))
    · exact .inr h
  case notSent hno => exact absurd hno hfail
  case touch seen => exact .quiet rfl rfl (fun _ h => h.touched seen) rfl (fun h => h.elim) fun h => h.elim
  case accept | look | notFound | conflict | close | remove | notDisconnected | notify | listen | drain | notTouched =>
    exact .quiet rfl rfl (fun _ => id) rfl (fun h => h.elim) fun h => h.elim

end Call
end Promises

section Run

open Interleave (Config System)
open System (Holds done_or_exists_update)

variable {s s' : Server} {x : Draw} {k k' : Call} {st : AgentConn}

def Call.Schedules (customerID : UUID) : Call → Prop
  | notify customerID' | render customerID' => customerID = customerID'
  | _ => False

theorem Call.MayStop.not_schedules {customerID : UUID} (h : k.MayStop) : ¬k.Schedules customerID := by
  cases k
  case notify | render => exact h.elim
  all_goals exact id

variable {publicEndpoint : String} {fleet : Fleet} {pipelines : UUID → List Store.ActivePipeline}
variable [Runtime] {svc : Service}

-- For an agent, a push is due, or the current config has been written and sent, as far as no call is to do so.
def Settling (svc : Service) (c : Config Call Server) (st : AgentConn) : Prop :=
  st.customerID ∈ c.shared.due ∨
    ∀ desired, c.shared.renderEdgeCurrent svc st.customerID = .ok desired →
      (c.shared.fleet.Assigned st.agentID (Runtime.sha256 desired) ∨ ∃ i, (c.calls i).WillAssign c.shared st.agentID) ∧
        (c.shared.Offered st.agentID desired ∨ ∃ i, (c.calls i).WillOffer c.shared st.agentID)

def Scheduled (c : Config Call Server) : Prop :=
  ∀ customerID ∈ c.shared.due, customerID ∈ c.shared.notifications ∨ ∃ i, (c.calls i).Schedules customerID

structure Rolling (svc : Service) (c : Config Call Server) : Prop where
  holds : Holds Server.Grounded (fun s k => k.Grounded svc s) Apart c
  scheduled : Scheduled c
  settling : ∀ st ∈ c.shared.registry.conns, st.accepts acceptsRemoteConfig → Settling svc c st

variable {c : Config Call Server}

theorem Settling.same {st' : AgentConn} (h : Settling svc c st) (hid : st'.agentID = st.agentID)
    (hcustomer : st'.customerID = st.customerID) : Settling svc c st' := by
  unfold Settling
  rw [hid, hcustomer]
  exact h

theorem Settling.advance (h : Settling svc c st) (hc : Holds Server.Grounded (fun s k => k.Grounded svc s) Apart c)
    (hext : c.shared.Extends s') (ha : Advances svc c.shared s' (c.calls i) k' st.agentID st.customerID) :
    Settling svc { shared := s', calls := Function.update c.calls i k' } st := by
  by_cases hdue : st.customerID ∈ c.shared.due
  · exact .inl (ha.due hdue)
  · refine .inr fun desired hd => ?_
    rw [ha.current] at hd
    obtain ⟨hassigned, hoffered⟩ := h.resolve_left hdue desired hd
    constructor
    · exact done_or_exists_update hassigned (fun _ => ha.assigned hdue desired hd) fun j hj =>
        hj.extends hext (hc.calls j).refers
    · exact done_or_exists_update hoffered (fun _ => ha.offered hdue desired hd) fun j hj =>
        hj.extends hext (hc.calls j).refers

theorem Settling.change (hs : Call.Step svc x c.shared (c.calls i) k' s') (hfail : ¬x.fail) (hst : Known c.shared st)
    (hk : (∃ pipelines, c.calls i = .commit st.customerID pipelines) ∨ c.calls i = .render st.customerID) :
    Settling svc { shared := s', calls := Function.update c.calls i k' } st := by
  generalize c.calls i = k at hs hk
  obtain ⟨pipelines, rfl⟩ | rfl := hk
  · cases hs
    case stop h => exact h.elim
    case mismatch hfinds | start hfinds => cases hfinds
    case commit => exact .inl List.mem_cons_self
  · cases hs
    case stop h => exact h.elim
    case mismatch hfinds | start hfinds => cases hfinds
    case noRender hno =>
      refine .inr fun desired hd => ?_
      obtain ⟨e, he⟩ := hno.resolve_left hfail
      have hno : Except.error e = Except.ok desired := he.symm.trans hd
      cases hno
    case render desired hd =>
      have howns : c.shared.fleet.Owns st.customerID st.agentID := Fleet.owns_iff.mpr ⟨_, hst⟩
      refine .inr fun _ _ => ⟨.inr ⟨i, ?_⟩, .inr ⟨i, ?_⟩⟩
      · simpa [Call.WillAssign] using howns
      · simpa [Call.WillOffer] using howns

theorem Call.Step.due {customerID : UUID} (hs : Call.Step svc x s k k' s') (h : customerID ∈ s'.due) :
    k'.Schedules customerID ∨
      customerID ∈ s.due ∧
        (customerID ∈ s.notifications ∨ k.Schedules customerID →
          customerID ∈ s'.notifications ∨ k'.Schedules customerID) := by
  -- Most steps leave the due pushes and the notifications as they are.
  have hsame (hk : ¬k.Schedules customerID) (hd : s'.due = s.due) (hn : s'.notifications = s.notifications) :
      k'.Schedules customerID ∨
        customerID ∈ s.due ∧
          (customerID ∈ s.notifications ∨ k.Schedules customerID →
            customerID ∈ s'.notifications ∨ k'.Schedules customerID) :=
    .inr ⟨hd ▸ h, fun h => .inl (hn ▸ h.resolve_right hk)⟩
  cases hs
  case stop _ hstop => exact hsame hstop.not_schedules rfl rfl
  case mismatch hm hfinds | start hm hw hfinds =>
    cases hfinds
    all_goals exact hsame id rfl rfl
  case task ht =>
    cases ht
    all_goals exact hsame id rfl rfl
  case respond =>
    obtain ⟨effects, he⟩ := s.deliver_eq _ _ _
    rw [he] at hsame ⊢
    exact hsame id rfl rfl
  case commit =>
    obtain rfl | h := List.mem_cons.mp h
    · exact .inl rfl
    · exact .inr ⟨h, fun h => .inl (h.resolve_right id)⟩
  case notify customerID' =>
    refine .inr ⟨h, fun h => .inl ?_⟩
    obtain h | rfl := h
    · exact List.mem_append_left _ h
    · exact List.mem_append_right _ (List.mem_singleton_self _)
  case listen customerID' rest hn _ =>
    refine .inr ⟨h, fun h => ?_⟩
    obtain rfl | h := List.mem_cons.mp (hn ▸ h.resolve_right id)
    · exact .inr rfl
    · exact .inl h
  case noRender customerID' he | render customerID' desired hd =>
    obtain ⟨h, hne⟩ := List.mem_filter.mp h
    have hne : customerID ≠ customerID' := of_decide_eq_true hne
    exact .inr ⟨h, fun h => .inl (h.resolve_right hne)⟩
  all_goals exact hsame id rfl rfl

theorem Scheduled.step (h : Scheduled c) (hs : Call.Step svc x c.shared (c.calls i) k' s') :
    Scheduled { shared := s', calls := Function.update c.calls i k' } := by
  intro customerID hdue
  obtain hk' | ⟨hdue, hstep⟩ := hs.due hdue
  · exact .inr ⟨i, by simpa using hk'⟩
  · exact done_or_exists_update (h customerID hdue) (fun _ => hstep) fun _ => id

theorem Rolling.start (h : Rolling svc c) (hidle : (reliable svc).isIdle (c.calls i)) (r : Request) :
    Rolling svc { c with calls := Function.update c.calls i ((reliable svc).begin r) } := by
  have hi : c.calls i = .idle := Call.eq_idle hidle
  have hexclusive : (reliable svc).Exclusive (Timely svc) Server.Grounded (fun s k => k.Grounded svc s) Apart :=
    reliable_exclusive
  refine ⟨h.holds.start hexclusive i r, fun customerID hdue => ?_, fun st hst haccepts => ?_⟩
  · exact done_or_exists_update (h.scheduled customerID hdue) (fun _ h => .inl (h.resolve_right (hi ▸ id))) fun _ => id
  · refine (h.settling st hst haccepts).imp_right fun hcalls desired hd => ?_
    obtain ⟨hassigned, hoffered⟩ := hcalls desired hd
    constructor
    · exact done_or_exists_update hassigned (fun _ h => .inl (h.resolve_right (hi ▸ id))) fun _ => id
    · exact done_or_exists_update hoffered (fun _ h => .inl (h.resolve_right (hi ▸ id))) fun _ => id

theorem Rolling.act (h : Rolling svc c) (hok : Timely svc c.shared (c.calls i)) (x : Draw) :
    Rolling svc ((reliable svc).act c (.run i x)) := by
  have hexclusive : (reliable svc).Exclusive (Timely svc) Server.Grounded (fun s k => k.Grounded svc s) Apart :=
    reliable_exclusive
  have hs : Call.Step svc x.reliable c.shared (c.calls i) (Call.step svc x.reliable c.shared (c.calls i)).1
      (Call.step svc x.reliable c.shared (c.calls i)).2 := Call.step_spec _
  -- An agent that the registry had before.
  have hold : ∀ st ∈ c.shared.registry.conns, st.accepts acceptsRemoteConfig →
      Settling svc ((reliable svc).act c (.run i x)) st := by
    intro st hst haccepts
    have hknown : Known c.shared st := by
      obtain ⟨e, he, rfl⟩ := List.mem_map.mp hst
      exact h.holds.shared.live he
    by_cases hchange : (∃ pipelines, c.calls i = .commit st.customerID pipelines) ∨ c.calls i = .render st.customerID
    · exact .change hs (by simp [Draw.reliable]) hknown hchange
    · rw [not_or, not_exists] at hchange
      exact (h.settling st hst haccepts).advance h.holds hs.extends
        (hs.advances (by simp [Draw.reliable]) h.holds.shared (h.holds.calls i) hok hst haccepts hchange.left hchange.right)
  refine ⟨h.holds.act hexclusive i x hok, h.scheduled.step hs, fun st hst haccepts => ?_⟩
  obtain ⟨st₀, hst₀, hsame⟩ | ⟨w, ts, hcall, rfl⟩ := hs.conns h.holds.shared.indexed hst
  · exact (hold st₀ hst₀ (hsame.accepts _ ▸ haccepts)).same hsame.agentID hsame.customerID
  · rw [hcall] at hok
    obtain hprev | hrender := hok haccepts
    · -- Another state of the same agent was there before.
      obtain ⟨prev, hprev, haccepts'⟩ : ∃ prev, c.shared.registry.live? (w.agent c.shared).instanceUID = some prev ∧
          prev.accepts acceptsRemoteConfig := by
        simpa [Option.any_eq_true] using hprev
      obtain ⟨ref, hmem, rfl⟩ := Registry.mem_of_live? hprev
      have huid := (h.holds.shared.indexed _ hmem).right
      have hw : Known c.shared (w.agent c.shared) := by
        have hk := h.holds.calls i
        rw [hcall] at hk
        exact h.holds.shared.states w.st hk.left
      obtain ⟨hid, hcustomer⟩ := h.holds.shared.eq_of_instanceUID hw (h.holds.shared.live hmem) huid.symm
      exact (hold _ (List.mem_map_of_mem hmem) haccepts').same hid hcustomer
    · -- The call will go on to render the config.
      have hcalls : ((reliable svc).act c (.run i x)).calls i = .work w ts := by
        simp [reliable, System.act, hcall, Call.step, Task.run]
      have hheap : w.agent ((reliable svc).act c (.run i x)).shared = w.agent c.shared := by
        simp [reliable, System.act, hcall, Call.step, Task.run, Work.agent, Registry.put]
      obtain ⟨t, ht, hrender⟩ := List.any_eq_true.mp hrender
      cases t
      case renderConfig =>
        refine .inr fun desired _ => ⟨.inr ⟨i, ?_⟩, .inr ⟨i, ?_⟩⟩
        · rw [hcalls]
          exact ⟨congrArg _ hheap, hheap ▸ haccepts, _, ht, trivial⟩
        · rw [hcalls]
          exact ⟨congrArg _ hheap, hheap ▸ haccepts, .inl ⟨_, ht, trivial⟩⟩
      all_goals cases hrender

theorem Rolling.converged (h : Rolling svc c) (hquiet : Quiescent c) : Converged svc c.shared := by
  intro e he haccepts desired hd
  have hsettling := h.settling _ (List.mem_map_of_mem he) haccepts
  have hnotDue : (c.shared.registry.heap e.2).customerID ∉ c.shared.due := by
    intro hdue
    obtain hn | ⟨i, hi⟩ := h.scheduled _ hdue
    · simp [hquiet.notifications] at hn
    · simp [hquiet.calls i, Call.Schedules] at hi
  obtain ⟨hassigned, hoffered⟩ := hsettling.resolve_left hnotDue desired hd
  refine ⟨hassigned.resolve_right ?_, hoffered.resolve_right ?_⟩
  · rintro ⟨i, hi⟩
    simp [hquiet.calls i, Call.WillAssign] at hi
  · rintro ⟨i, hi⟩
    simp [hquiet.calls i, Call.WillOffer] at hi

theorem Rolling.init (h : (newServer publicEndpoint fleet pipelines).Grounded) :
    Rolling svc ((reliable svc).init (newServer publicEndpoint fleet pipelines)) where
  holds := ⟨h, fun _ => trivial, fun _ _ _ h => h.left⟩
  scheduled _ h := by cases h
  settling _ h := by cases h

-- If the messages are timely, the fleet has converged whenever all is quiet.
theorem rollout_converges (hids : (fleet.agents.map (·.id)).Nodup) (huids : (fleet.agents.map (·.instanceUID)).Nodup)
    (hnil : ∀ a ∈ fleet.agents, a.id ≠ Store.nilUUID) {events : List (Interleave.Event Request Draw)}
    (hok : (reliable svc).Meets (Timely svc) ((reliable svc).init (newServer publicEndpoint fleet pipelines)) events)
    (hquiet : Quiescent ((reliable svc).run ((reliable svc).init (newServer publicEndpoint fleet pipelines)) events)) :
    Converged svc ((reliable svc).run ((reliable svc).init (newServer publicEndpoint fleet pipelines)) events).shared := by
  have hinit : Rolling svc ((reliable svc).init (newServer publicEndpoint fleet pipelines)) :=
    .init (.init hids huids hnil)
  have hrun := System.run_invariant hinit (fun _ _ r h hidle => h.start hidle r)
    (fun _ _ x h hok => h.act hok x) hok
  exact hrun.converged hquiet

end Run

section Sample

instance [Runtime] (svc : Service) (s : Server) (customerID : UUID) (desired : String) :
    Decidable (Desired svc s customerID desired) :=
  inferInstanceAs <| Decidable <| _ ∨ _

instance [Runtime] (svc : Service) (s : Server) (k : Call) : Decidable (Timely svc s k) := by
  unfold Timely
  split <;> infer_instance

def changedPipelines : List Store.ActivePipeline :=
  [{ pipelineID := 10
     pipelineName := "Backup"
     customerID := 1
     customerSlug := "acme-corp"
     clientID := "cust_aaaa1111"
     graph := .graph { signals := ["logs"], processors := [], exporters := [{ type := "debug", config := none }] } }]

def change : List (Interleave.Event Request Draw) :=
  callOf 1 (.change 1 changedPipelines) 2 0 ++ callOf 1 .listen 6 0

def oneConfig : List (Interleave.Event Request Draw) :=
  connectSample ++ callOf 0 (.message 1 (sampleMessage [1] acceptsRemoteConfig)) 12 20

def timelyRun : List (Interleave.Event Request Draw) :=
  oneConfig ++ change ++ callOf 0 (.message 1 (sampleMessage [1] acceptsRemoteConfig)) 7 0

def staleRun : List (Interleave.Event Request Draw) :=
  oneConfig ++ callOf 0 (.message 1 (sampleMessage [1] acceptsRemoteConfig)) 4 0 ++ change ++
    List.replicate 3 (.run 0 (sampleDraw 0))

theorem quiescent_of_isIdle [Runtime] {events : List (Interleave.Event Request Draw)}
    (hslots : ∀ e ∈ events, e.slot < 2) (h₀ : ((reachedAfter events).calls 0).isIdle)
    (h₁ : ((reachedAfter events).calls 1).isIdle) (hn : (reachedAfter events).shared.notifications.isEmpty) :
    Quiescent (reachedAfter events) where
  calls := calls_reachedAfter hslots h₀ h₁
  notifications := List.isEmpty_iff.mp hn

def assignedCurrent [Runtime] (svc : Service) (s : Server) : Bool :=
  s.registry.conns.all fun st =>
    !st.accepts acceptsRemoteConfig ||
      match s.renderEdgeCurrent svc st.customerID with
      | .ok desired =>
        s.fleet.agents.all fun a => a.id ≠ st.agentID ∨ a.assignedConfigHash = Runtime.sha256 desired
      | .error _ => true

theorem Converged.assignedCurrent [Runtime] {svc : Service} {s : Server} (h : Converged svc s) :
    assignedCurrent svc s := by
  refine List.all_eq_true.mpr fun st hst => ?_
  obtain ⟨e, he, rfl⟩ := List.mem_map.mp hst
  by_cases haccepts : (s.registry.heap e.2).accepts acceptsRemoteConfig
  · rw [haccepts]
    cases hd : s.renderEdgeCurrent svc (s.registry.heap e.2).customerID
    case error => rfl
    case ok desired =>
      simp only [Bool.not_true, Bool.false_or, List.all_eq_true, decide_eq_true_eq]
      intro a ha
      exact Classical.or_iff_not_imp_left.mpr fun hid => (h e he haccepts desired hd).left.hash a ha (not_not.mp hid)
  · simp [haccepts]

theorem timelyRun_quiescent :
    letI := sampleRuntime
    Quiescent (reachedAfter timelyRun) :=
  @quiescent_of_isIdle sampleRuntime _ (by decide +kernel) (by decide +kernel) (by decide +kernel) (by decide +kernel)

theorem timelyRun_converges :
    letI := sampleRuntime
    (reachedAfter timelyRun).shared.registry.byUID.length = 1 ∧ Quiescent (reachedAfter timelyRun) ∧
      Converged sampleService (reachedAfter timelyRun).shared := by
  refine ⟨by decide +kernel, timelyRun_quiescent, ?_⟩
  exact @rollout_converges "" sampleFleet (fun _ => []) sampleRuntime sampleService (by decide) (by decide) (by decide)
    timelyRun (by decide +kernel) timelyRun_quiescent

-- A message renders the config, a change is pushed, and then the message writes and sends what it has rendered.
theorem staleRun_diverges :
    letI := sampleRuntime
    Quiescent (reachedAfter staleRun) ∧ ¬Converged sampleService (reachedAfter staleRun).shared := by
  refine ⟨@quiescent_of_isIdle sampleRuntime _ (by decide +kernel) (by decide +kernel) (by decide +kernel)
    (by decide +kernel), fun h => ?_⟩
  have hassigned := @Converged.assignedCurrent sampleRuntime _ _ h
  revert hassigned
  decide +kernel

end Sample
end Opamp
