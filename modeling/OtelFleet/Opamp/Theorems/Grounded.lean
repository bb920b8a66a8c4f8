import OtelFleet.Opamp.Theorems.Steps

-- The states of agents are about agents of the fleet.
namespace Opamp

open Store (UUID Fleet Agent)

def Known (s : Server) (st : AgentConn) : Prop :=
  (st.agentID, st.instanceUID, some st.customerID) ∈ s.fleet.identities

structure Server.Grounded (s : Server) : Prop where
  ids : (s.fleet.identities.map (·.1)).Nodup
  uids : (s.fleet.identities.map (·.2.1)).Nodup
  ids_ne_nil : ∀ i ∈ s.fleet.identities, i.1 ≠ Store.nilUUID
  states : ∀ ref < s.registry.next, Known s (s.registry.heap ref)
  indexed : s.registry.Indexed

variable {s s' : Server} {st st' : AgentConn} {k k' : Call}

theorem Known.extends (hk : Known s st) (h : s.Extends s') (hsame : st.Same st') : Known s' st' := by
  unfold Known
  rw [hsame.agentID, hsame.instanceUID, hsame.customerID]
  exact h.identities hk

theorem Server.Grounded.eq_of_agentID (hs : s.Grounded) (h : Known s st) (h' : Known s st')
    (hid : st.agentID = st'.agentID) : st.customerID = st'.customerID := by
  have heq := List.inj_on_of_nodup_map hs.ids h h' hid
  exact Option.some.inj (congrArg (·.2.2) heq)

theorem Server.Grounded.eq_of_instanceUID (hs : s.Grounded) (h : Known s st) (h' : Known s st')
    (huid : st.instanceUID = st'.instanceUID) : st.agentID = st'.agentID ∧ st.customerID = st'.customerID := by
  have heq := List.inj_on_of_nodup_map hs.uids h h' huid
  exact ⟨congrArg (·.1) heq, Option.some.inj (congrArg (·.2.2) heq)⟩

theorem Server.Grounded.live (hs : s.Grounded) (he : e ∈ s.registry.byUID) : Known s (s.registry.heap e.2) :=
  hs.states e.2 (hs.indexed e he).left

theorem Server.Grounded.find?_row (hs : s.Grounded) (ha : a ∈ s.fleet.agents) :
    s.fleet.agents.find? (·.id = a.id) = some a := by
  obtain ⟨a', ha'⟩ : ∃ a', s.fleet.agents.find? (·.id = a.id) = some a' := by
    rw [← Option.isSome_iff_exists, List.find?_isSome]
    exact ⟨a, ha, by simp⟩
  have hids : (s.fleet.agents.map (·.id)).Nodup := by
    have hids := hs.ids
    rwa [Fleet.identities, List.map_map] at hids
  have heq : a'.id = a.id := by simpa using List.find?_some ha'
  rw [ha', List.inj_on_of_nodup_map hids (List.mem_of_find?_eq_some ha') ha heq]

theorem Call.Finds.known_attach {known newConn : Bool}
    (h : Call.Finds x s k conn auth msg now known newConn st s') (hs : s.Grounded) :
    Known s' (st.attach conn msg now) := by
  cases h
  case known hconn hcustomer hprev =>
    obtain ⟨ref, hmem, rfl⟩ := Registry.mem_of_live? hprev
    exact hs.live hmem
  case found agent hcustomer hagent =>
    have hmem := Fleet.mem_identities (List.mem_of_find?_eq_some hagent)
    have huid : agent.instanceUID = msg.instanceUID := by simpa using List.find?_some hagent
    rwa [Agent.identity, hcustomer, huid] at hmem
  case enrolled d agent f hf =>
    obtain ⟨time, rfl⟩ := hf.row
    have hid : Known ({ s with fleet := f }.effect conn (newAgent x.id auth msg d).id (.enroll auth.tokenID))
        ((ofNewAgent conn auth msg ((newAgent x.id auth msg d).row time)).attach conn msg now) := by
      unfold Known
      rw [show (Server.effect { s with fleet := f } conn _ _).fleet = f from rfl, hf.identities]
      exact List.mem_append_right _ (List.mem_singleton_self _)
    exact hid

variable {publicEndpoint : String} {fleet : Fleet} {pipelines : UUID → List Store.ActivePipeline}

theorem Server.Grounded.init (hids : (fleet.agents.map (·.id)).Nodup) (huids : (fleet.agents.map (·.instanceUID)).Nodup)
    (hnil : ∀ a ∈ fleet.agents, a.id ≠ Store.nilUUID) : (newServer publicEndpoint fleet pipelines).Grounded where
  ids := by simpa [Fleet.identities, newServer, Agent.identity, Function.comp_def] using hids
  uids := by simpa [Fleet.identities, newServer, Agent.identity, Function.comp_def] using huids
  ids_ne_nil i hi := by
    obtain ⟨a, ha, rfl⟩ := List.mem_map.mp hi
    exact hnil a ha
  states ref h := absurd h (Nat.not_lt_zero ref)
  indexed e h := by cases h

theorem Known.row (h : Known s st) : ∃ a ∈ s.fleet.agents, a.id = st.agentID := by
  obtain ⟨a, ha, hid⟩ := List.mem_map.mp h
  exact ⟨a, ha, congrArg (·.1) hid⟩

def Call.Knows (s : Server) : Call → Prop
  | work w _ => w.st < s.registry.next
  | setDisconnected st => Known s st
  | _ => True

theorem Call.Knows.refers (h : k.Knows s) : k.Refers s := by
  cases k
  case work => exact h
  all_goals trivial

theorem Call.Knows.extends (h : k.Knows s) (hext : s.Extends s') : k.Knows s' := by
  cases k
  case work => exact Nat.lt_of_lt_of_le h hext.next
  case setDisconnected st => exact Known.extends h hext (.refl st)
  all_goals trivial

variable [Runtime]

theorem Server.Grounded.step (h : s.Grounded) (hk : k.Refers s) (hs : Call.Step svc x s k k' s') : s'.Grounded where
  ids := hs.nodup (fun _ _ => .inl) h.ids
  uids := hs.nodup (fun _ _ => .inr) h.uids
  ids_ne_nil := by
    obtain hid | ⟨uid, customerID, -, hid⟩ := hs.identities
    · rw [hid]
      exact h.ids_ne_nil
    · rw [hid]
      intro i hi
      obtain hi | hi := List.mem_append.mp hi
      · exact h.ids_ne_nil i hi
      · rw [List.mem_singleton.mp hi]
        exact x.id_ne_nil
  states := hs.states (fun hext hsame hknown => hknown.extends hext hsame) (fun hfinds _ => hfinds.known_attach h) h.states
  indexed := hs.indexed h.indexed hk

theorem Call.Knows.step (h : k.Knows s) (hG : s.Grounded) (hs : Call.Step svc x s k k' s') : k'.Knows s' := by
  have hext := hs.extends
  cases hs
  case start hm hw hfinds => exact hw ▸ Nat.lt_succ_self _
  case task => exact Nat.lt_of_lt_of_le h hext.next
  case remove conn st hst =>
    obtain ⟨e, he, rfl, -⟩ := Registry.removeConn_eq_some hst
    exact hG.live he
  case drain hk' =>
    obtain rfl | ⟨seen, rfl⟩ := hk'
    all_goals trivial
  all_goals trivial

theorem handler_grounded : (handler svc).Stable ok Server.Grounded fun s k => k.Knows s where
  begin s r _ := by cases r <;> trivial
  shared x s k hs hk _ := hs.step hk.refers (Call.step_spec k)
  own x s k hs hk _ := hk.step hs (Call.step_spec k)
  other x s k k' hs hk _ hk' := hk'.extends (Call.step_spec k).extends

theorem reliable_stable (h : (handler svc).Stable ok G L) : (reliable svc).Stable ok G L where
  begin := h.begin
  shared x := h.shared x.reliable
  own x := h.own x.reliable
  other x := h.other x.reliable

end Opamp
