import OtelFleet.Opamp.Theorems.Connected

-- The two maps of the registry, from agents to connections and back.
namespace Opamp

open Store (UUID InstanceUID Fleet)

namespace Registry

variable {r r' : Registry} {conn : ConnID} {uid : InstanceUID}

def conn? (r : Registry) (uid : InstanceUID) : Option ConnID :=
  (r.live? uid).map (·.conn)

def Paired (r : Registry) : Prop :=
  ∀ uid conn, r.conn? uid = some conn ↔ r.byConn conn = some uid

def Free (r : Registry) (conn : ConnID) (uid : InstanceUID) : Prop :=
  ∀ e ∈ r.byUID, (r.heap e.2).conn = conn → e.1 = uid

theorem mem_of_conn? (h : r.conn? uid = some conn) : ∃ ref, (uid, ref) ∈ r.byUID ∧ (r.heap ref).conn = conn := by
  obtain ⟨st, hst, hconn⟩ := Option.map_eq_some_iff.mp h
  obtain ⟨ref, hmem, rfl⟩ := mem_of_live? hst
  exact ⟨ref, hmem, hconn⟩

theorem conn?_put (r : Registry) (ref : Ref) (uid : InstanceUID) :
    (r.put ref).conn? uid = if uid = (r.heap ref).instanceUID then some (r.heap ref).conn else r.conn? uid := by
  simp only [conn?, live?, ref?, put, List.lookup_cons, Assoc.lookup_filter_ne]
  by_cases h : uid = (r.heap ref).instanceUID
  · simp [h]
  · simp [h, beq_eq_false_iff_ne.mpr h]

theorem byConn_put (r : Registry) (ref : Ref) (conn : ConnID) :
    (r.put ref).byConn conn =
      if conn = (r.heap ref).conn then some (r.heap ref).instanceUID
      else if r.conn? (r.heap ref).instanceUID = some conn then none
      else r.byConn conn := by
  simp only [put, conn?, Function.update_apply]
  by_cases hconn : conn = (r.heap ref).conn
  case pos => rw [if_pos hconn, if_pos hconn]
  case neg =>
    rw [if_neg hconn, if_neg hconn]
    obtain hnone | ⟨prev, hprev⟩ := Option.eq_none_or_eq_some (r.live? (r.heap ref).instanceUID)
    · simp only [hnone, Option.map_none, reduceCtorEq, if_false]
    · simp only [hprev, Option.map_some, Option.some.injEq]
      by_cases hold : prev.conn = conn
      · rw [if_pos (hold ▸ hconn), if_pos hold, hold, Function.update_self]
      · rw [if_neg hold]
        split_ifs
        · exact Function.update_of_ne (Ne.symm hold) _ _
        · rfl

theorem Paired.put (h : r.Paired) (hfree : r.Free (r.heap ref).conn (r.heap ref).instanceUID) : (r.put ref).Paired := by
  intro uid conn
  rw [conn?_put, byConn_put]
  by_cases huid : uid = (r.heap ref).instanceUID
  case pos =>
    rw [if_pos huid, huid]
    by_cases hconn : conn = (r.heap ref).conn
    case pos => simp [hconn]
    case neg =>
      rw [if_neg hconn]
      refine iff_of_false (fun hc => hconn (Option.some.inj hc).symm) ?_
      -- The agent has no other connection any more.
      split_ifs with hold
      · simp
      · rwa [h] at hold
  case neg =>
    rw [if_neg huid]
    by_cases hconn : conn = (r.heap ref).conn
    case pos =>
      rw [if_pos hconn]
      refine iff_of_false (fun hc => ?_) fun hc => huid (Option.some.inj hc).symm
      obtain ⟨ref', hmem, hconn'⟩ := mem_of_conn? hc
      exact huid (hfree _ hmem (hconn'.trans hconn))
    case neg =>
      rw [if_neg hconn]
      split_ifs with hold
      · refine iff_of_false (fun hc => ?_) (by simp)
        rw [h] at hold hc
        exact huid (Option.some.inj (hc.symm.trans hold))
      · exact h uid conn

theorem byConn_removeConn (r : Registry) (conn conn' : ConnID) :
    (r.removeConn conn).2.byConn conn' = if conn' = conn then none else r.byConn conn' := by
  unfold removeConn
  split
  case h_1 hnone =>
    split_ifs with hconn
    · rw [hconn, hnone]
    · rfl
  case h_2 uid _ =>
    rw [← Function.update_apply]
    simp only
    split
    · rfl
    · split_ifs
      all_goals rfl

theorem Paired.conn?_removeConn (h : r.Paired) (conn : ConnID) (uid : InstanceUID) :
    (r.removeConn conn).2.conn? uid = if r.conn? uid = some conn then none else r.conn? uid := by
  unfold removeConn
  split
  case h_1 hnone =>
    rw [if_neg]
    rw [h, hnone]
    simp
  case h_2 uid' huid' =>
    -- The agent of the connection is registered with it.
    obtain ⟨st, hst, hconn⟩ := Option.map_eq_some_iff.mp ((h uid' conn).mpr huid')
    have hlive : Registry.live? { r with byConn := Function.update r.byConn conn none } uid' = some st := hst
    simp only [hlive, hconn, if_true, h uid conn, huid', Option.some.injEq]
    simp only [conn?, live?, ref?, Assoc.lookup_filter_ne]
    by_cases huid : uid = uid'
    · simp [huid]
    · simp [huid, Ne.symm huid]

theorem Paired.removeConn (h : r.Paired) (conn : ConnID) : (r.removeConn conn).2.Paired := by
  intro uid conn'
  rw [h.conn?_removeConn, byConn_removeConn]
  by_cases hconn : conn' = conn
  case pos =>
    rw [if_pos hconn, hconn]
    refine iff_of_false (fun hc => ?_) (by simp)
    split_ifs at hc with hold
    exact hold hc
  case neg =>
    rw [if_neg hconn, ← h uid conn']
    split_ifs with hold
    · refine iff_of_false (by simp) fun hc => hconn ?_
      exact Option.some.inj (hc.symm.trans hold)
    · exact Iff.rfl

theorem Paired.fst_removeConn (h : r.Paired) (hst : r.live? uid = some st) (hconn : st.conn = conn) :
    (r.removeConn conn).1 = some st := by
  have hby : r.byConn conn = some uid := (h uid conn).mp (by simp [conn?, hst, hconn])
  have hlive : Registry.live? { r with byConn := Function.update r.byConn conn none } uid = some st := hst
  simp only [Registry.removeConn, hby, hlive, hconn, if_true]

theorem conn?_touched (h : r.Touched r') (uid : InstanceUID) : r'.conn? uid = r.conn? uid := by
  simp only [conn?, live?, ref?, h.byUID, Option.map_map]
  refine congrArg (Option.map · _) (funext fun ref => ?_)
  exact (h.heap ref).conn

theorem Paired.touched (hp : r.Paired) (h : r.Touched r') (hby : r'.byConn = r.byConn) : r'.Paired := by
  intro uid conn
  rw [conn?_touched h, hby]
  exact hp uid conn

theorem byConn_modifyBoth : (r.modifyBoth ref f).byConn = r.byConn := by
  unfold modifyBoth update
  split
  all_goals rfl

theorem Paired.modifyBoth (hp : r.Paired) (hf : ∀ st : AgentConn, st.Same (f st)) : (r.modifyBoth ref f).Paired :=
  hp.touched (modifyBoth_touched hf) byConn_modifyBoth

theorem Paired.drainDirtySeen (hp : r.Paired) : r.drainDirtySeen.2.Paired := by
  refine hp.touched drainDirtySeen_touched ?_
  unfold Registry.drainDirtySeen
  generalize r.byUID.filter _ = dirty
  suffices h : ∀ r' : Registry, r'.byConn = r.byConn →
      (dirty.foldl (fun r e => r.modify e.2 fun st => { st with dirtySeen := false }) r').byConn = r.byConn from h r rfl
  induction dirty
  case nil => exact fun _ h => h
  case cons e rest hi => exact fun r' h => hi _ h

theorem Paired.new (hp : r.Paired) (hr : r.Indexed) (st : AgentConn) : (r.new st).2.Paired := by
  intro uid conn
  have hconn : (r.new st).2.conn? uid = r.conn? uid := by
    simp only [conn?, live?, Option.map_map]
    refine Option.map_congr fun ref href => ?_
    simp only [Function.comp]
    rw [heap_new_of_lt st (hr _ (mem_of_ref? href)).left]
  rw [hconn]
  exact hp uid conn

end Registry

section Steps

-- A message is for an agent whose connection is not the one of another agent.
def Unshared (s : Server) : Call → Prop
  | .work w (.put :: _) => s.registry.Free (w.agent s).conn (w.agent s).instanceUID
  | _ => True

variable {x : Draw}

theorem Task.paired_register (hp : s.registry.Paired)
    (hok : Unshared s (.work w (t :: ts))) : (t.register w s.registry).Paired := by
  obtain ⟨rfl, hr⟩ | ⟨f, hf, hr⟩ | ⟨-, -, hr⟩ := t.register_cases w s.registry
  · exact hr ▸ hp.put hok
  · exact hr ▸ hp.modifyBoth (Task.same_note? hf)
  · exact hr.symm ▸ hp

theorem Call.Registers.paired (h : Call.Registers x s k r) (hr : s.registry.Indexed) (hp : s.registry.Paired)
    (hok : Unshared s k) : r.Paired := by
  cases h
  case task => exact Task.paired_register hp hok
  case start => exact hp.new hr _
  case close conn => exact hp.removeConn conn
  case drain => exact hp.drainDirtySeen
  case same => exact hp

variable [Runtime] {svc : Pipelines.Service}

theorem paired_stable :
    (handler svc).Stable Unshared (fun s => s.Grounded ∧ s.registry.Paired) fun s k => k.Knows s where
  begin s r _ := by cases r <;> trivial
  shared x s k h hk hok :=
    ⟨handler_grounded.shared x s k h.left hk hok, (Call.step_registers k).paired h.left.indexed h.right hok⟩
  own x s k h hk hok := handler_grounded.own x s k h.left hk hok
  other x s k k' h hk hok hk' := handler_grounded.other x s k k' h.left hk hok hk'

theorem Call.step_close (hG : s.Grounded) (conn : ConnID) :
    (Call.close conn).step svc x s =
      (((s.registry.removeConn conn).1.map Call.setDisconnected).getD .idle,
        { s with registry := (s.registry.removeConn conn).2 }) := by
  simp only [Call.step]
  split
  case h_1 hnone => rw [hnone]; rfl
  case h_2 st hst =>
    obtain ⟨e, he, rfl, -⟩ := Registry.removeConn_eq_some hst
    rw [if_neg (hG.ids_ne_nil _ (hG.live he)), hst]
    rfl

theorem Call.step_setDisconnected (svc : Pipelines.Service) (hrow : ∃ a ∈ s.fleet.agents, a.id = st.agentID) :
    ((Call.setDisconnected st).step svc x s).1 = .idle ∧
      ((Call.setDisconnected st).step svc x s).2.registry = s.registry ∧
      (¬x.fail → (st.agentID, false) ∈ ((Call.setDisconnected st).step svc x s).2.fleet.column (·.connected)) := by
  refine ⟨rfl, Server.registry_tryStore, fun hfail => ?_⟩
  obtain ⟨a, ha, hid⟩ := hrow
  rw [Call.fleet_step rfl, if_neg hfail, Fleet.mem_column_write fun _ => rfl]
  refine ⟨a, ha, hid, ?_⟩
  rw [if_pos rfl]

theorem Call.close_spec (svc : Pipelines.Service) (hG : s.Grounded) (hp : s.registry.Paired) (conn : ConnID)
    (x x' : Draw) (h₁ : (Call.close conn).step svc x s = (k, s₁)) (h₂ : (k.step svc x' s₁).2 = s₂) :
    (k.step svc x' s₁).1 = .idle ∧ (∀ uid, s₂.registry.conn? uid ≠ some conn) ∧
      (¬x'.fail → ∀ uid st, s.registry.live? uid = some st → st.conn = conn →
        (st.agentID, false) ∈ s₂.fleet.column (·.connected)) := by
  have hfree (uid : InstanceUID) : (s.registry.removeConn conn).2.conn? uid ≠ some conn := by
    rw [hp.conn?_removeConn]
    split_ifs with hconn
    · simp
    · exact hconn
  rw [Call.step_close hG, Prod.mk.injEq] at h₁
  obtain ⟨rfl, rfl⟩ := h₁
  subst h₂
  cases hst : (s.registry.removeConn conn).1
  case none =>
    refine ⟨rfl, hfree, fun _ uid st hlive hconn => ?_⟩
    rw [hp.fst_removeConn hlive hconn] at hst
    cases hst
  case some st =>
    obtain ⟨e, he, rfl, -⟩ := Registry.removeConn_eq_some hst
    obtain ⟨hk, hr, hrow⟩ := Call.step_setDisconnected (x := x')
      (s := { s with registry := (s.registry.removeConn conn).2 }) svc (hG.live he).row
    refine ⟨hk, ?_, fun hfail uid st hlive hconn => ?_⟩
    · intro uid
      rw [Option.map_some, Option.getD_some, hr]
      exact hfree uid
    · rw [hp.fst_removeConn hlive hconn] at hst
      cases hst
      exact hrow hfail

variable (publicEndpoint : String) (fleet : Fleet) (pipelines : UUID → List Store.ActivePipeline)

-- If no two agents share a connection, the maps of the registry agree, and the agent of a connection that is closed
-- is forgotten and its row is told.
theorem registry_paired (hids : (fleet.agents.map (·.id)).Nodup) (huids : (fleet.agents.map (·.instanceUID)).Nodup)
    (hnil : ∀ a ∈ fleet.agents, a.id ≠ Store.nilUUID) {events : List (Interleave.Event Request Draw)}
    (hok : (handler svc).Meets Unshared ((handler svc).init (newServer publicEndpoint fleet pipelines)) events) :
    let c := (handler svc).run ((handler svc).init (newServer publicEndpoint fleet pipelines)) events
    c.shared.registry.Paired ∧
      ∀ i conn x x', (c.calls i).isIdle →
        let c' := (handler svc).run c [.start i (.close conn), .run i x, .run i x']
        c'.calls i = .idle ∧ (∀ uid, c'.shared.registry.conn? uid ≠ some conn) ∧
          (¬x'.fail → ∀ uid st, c.shared.registry.live? uid = some st → st.conn = conn →
            (st.agentID, false) ∈ c'.shared.fleet.column (·.connected)) := by
  have hinit : (newServer publicEndpoint fleet pipelines).Grounded ∧
      (newServer publicEndpoint fleet pipelines).registry.Paired :=
    ⟨.init hids huids hnil, fun uid conn => by simp [newServer, newRegistry, Registry.conn?, Registry.live?, Registry.ref?]⟩
  obtain ⟨⟨hG, hp⟩, -⟩ := paired_stable.run (c := (handler svc).init (newServer publicEndpoint fleet pipelines)) hinit
    (fun _ => trivial) hok
  generalize (handler svc).run _ events = c at hG hp ⊢
  refine ⟨hp, fun i conn x x' hidle => ?_⟩
  rw [Interleave.System.run_two hidle]
  obtain ⟨hk, hfree, hrow⟩ := Call.close_spec svc hG hp conn x x' rfl rfl
  exact ⟨(Function.update_self ..).trans hk, hfree, hrow⟩

end Steps

section Sample

instance (s : Server) : (k : Call) → Decidable (Unshared s k)
  | .work _ (.put :: _) => inferInstanceAs <| Decidable <| ∀ e ∈ s.registry.byUID, _ → _
  | .work _ [] | .work _ (.updateDescription .. :: _) | .work _ (.setConnected :: _) | .work _ (.remoteConfigStatus _ :: _)
  | .work _ (.setAckedConfig _ :: _) | .work _ (.checkStatus .. :: _) | .work _ (.setStatus _ :: _)
  | .work _ (.noteStatus _ :: _) | .work _ (.setEffectiveConfig _ :: _) | .work _ (.health _ :: _)
  | .work _ (.setHealth .. :: _) | .work _ (.noteHealth _ :: _) | .work _ (.renderConfig :: _)
  | .work _ (.setAssignedConfig _ :: _) | .work _ (.offerConfig _ :: _) | .work _ (.checkToken :: _)
  | .work _ (.setAgentToken :: _) | .work _ (.offerToken _ :: _)
  | .idle | .connect .. | .receive .. | .lookup .. | .enroll .. | .close _ | .setDisconnected _ | .commit .. | .notify _
  | .listen | .render _ | .snapshot .. | .push .. | .send .. | .drain | .touch _ => isTrue trivial

-- Two agents enroll on their own connections, the first comes back on another one and the old one is closed.
def comeback : List (Interleave.Event Request Draw) :=
  connectSample ++ callOf 0 (.connect 2 "Bearer otm_bt_0123abcd_s") 1 0 ++
    callOf 0 (.connect 3 "Bearer otm_bt_0123abcd_s") 1 0 ++ callOf 0 (.message 1 (sampleMessage [1] 0)) 10 20 ++
    callOf 1 (.message 2 (sampleMessage [2] 0)) 10 21 ++ callOf 0 (.message 3 (sampleMessage [1] 0)) 10 0 ++
    callOf 1 (.close 1) 2 0

theorem comeback_paired :
    letI := sampleRuntime
    let c := (handler sampleService).run ((handler sampleService).init (newServer "" sampleFleet fun _ => [])) comeback
    let c' := (handler sampleService).run c (callOf 0 (.close 3) 2 0)
    c.shared.registry.conn? [1] = some 3 ∧ (21, true) ∈ c.shared.fleet.column (·.connected) ∧
      c.shared.registry.Paired ∧ c'.calls 0 = .idle ∧ (∀ uid, c'.shared.registry.conn? uid ≠ some 3) ∧
      (21, false) ∈ c'.shared.fleet.column (·.connected) ∧ c'.shared.registry.conn? [2] = some 2 := by
  intro c c'
  obtain ⟨hp, hclose⟩ := @registry_paired sampleRuntime sampleService "" sampleFleet (fun _ => []) (by decide) (by decide)
    (by decide) comeback (by decide +kernel)
  obtain ⟨hidle, hfree, hrow⟩ := hclose 0 3 (sampleDraw 0) (sampleDraw 0) (by decide +kernel)
  have hlive : (c.shared.registry.live? [1]).map (fun st => (st.conn, st.agentID)) = some (3, 21) := by decide +kernel
  obtain ⟨st, hst, hconn⟩ := Option.map_eq_some_iff.mp hlive
  rw [Prod.mk.injEq] at hconn
  refine ⟨by decide +kernel, by decide +kernel, hp, hidle, hfree, ?_, by decide +kernel⟩
  rw [← hconn.right]
  exact hrow (by decide) [1] st hst hconn.left

-- Two agents use one connection. The registry forgets only the second one when it is closed.
theorem twoAgents_not_paired :
    letI := sampleRuntime
    ¬(serverAfter (fun _ => []) twoAgents).registry.Paired ∧
      (serverAfter (fun _ => []) (twoAgents ++ callOf 0 (.close 1) 2 0)).registry.conn? [1] = some 1 ∧
      (21, true) ∈ (serverAfter (fun _ => []) (twoAgents ++ callOf 0 (.close 1) 2 0)).fleet.column (·.connected) := by
  refine ⟨fun h => ?_, by decide +kernel, by decide +kernel⟩
  have hconn := (h [1] 1).mp (by decide +kernel)
  revert hconn
  decide +kernel

end Sample
end Opamp
