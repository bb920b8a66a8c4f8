import OtelFleet.Opamp.Theorems.Writes
import OtelFleet.Opamp.Theorems.Enrollment

-- Whether the rows of agents say that they are connected just when they are.
namespace Opamp

open Store (UUID Fleet Agent Write)
open Interleave (Config System Event)

def Server.Live (s : Server) (agentID : UUID) : Prop :=
  ∃ st ∈ s.registry.conns, st.agentID = agentID

def Server.Connected (s : Server) (agentID : UUID) : Prop :=
  (agentID, true) ∈ s.fleet.column (·.connected)

def Agrees (s : Server) : Prop :=
  ∀ a ∈ s.fleet.agents, a.connected = (s.registry.live? a.instanceUID).isSome

def Task.isSetConnected : Task → Bool
  | setConnected => true
  | _ => false

-- The row is told what the registry says at that time, and a message that registers an agent anew goes on to
-- tell the row.
def Ordered (s : Server) : Call → Prop
  | .setDisconnected st => s.registry.live? st.instanceUID = none
  | .work w (.setConnected :: _) => (s.registry.live? (w.agent s).instanceUID).isSome
  | .work w (.put :: ts) => (s.registry.live? (w.agent s).instanceUID).isSome ∨ ts.any (·.isSetConnected)
  | _ => True

section Live

variable {s s' : Server}

theorem Server.Grounded.live_iff (hs : s.Grounded)
    (h : (agentID, uid, customerID) ∈ s.fleet.identities) : s.Live agentID ↔ (s.registry.live? uid).isSome := by
  rw [Registry.isSome_live?]
  constructor
  · rintro ⟨st, hst, hid⟩
    obtain ⟨e, he, rfl⟩ := List.mem_map.mp hst
    refine ⟨e, he, ?_⟩
    rw [← (hs.indexed e he).right]
    have heq := List.inj_on_of_nodup_map hs.ids (hs.live he) h hid
    exact congrArg (·.2.1) heq
  · rintro ⟨e, he, huid⟩
    refine ⟨_, List.mem_map_of_mem he, ?_⟩
    have heq := List.inj_on_of_nodup_map hs.uids (hs.live he) h ((hs.indexed e he).right.trans huid)
    exact congrArg (·.1) heq

theorem Server.Grounded.connected_iff (hs : s.Grounded) (ha : a ∈ s.fleet.agents) : s.Connected a.id ↔ a.connected := by
  have hnodup : (s.fleet.agents.map (·.id)).Nodup := by
    simpa [Fleet.identities, Agent.identity, Function.comp_def] using hs.ids
  unfold Server.Connected
  rw [Fleet.mem_column]
  constructor
  · rintro ⟨b, hb, hid, hc⟩
    rwa [← List.inj_on_of_nodup_map hnodup hb ha hid]
  · exact fun hc => ⟨a, ha, rfl, hc⟩

theorem Call.Step.live_kept [Runtime] (hs : Call.Step svc x s k k' s') (hG : s.Grounded)
    (hk : k.Knows s) (hlive : s.Live agentID) (hclose : ∀ conn, k ≠ .close conn) : s'.Live agentID := by
  have hext := hs.extends
  obtain ⟨st, hst, rfl⟩ := hlive
  obtain ⟨e, he, rfl⟩ := List.mem_map.mp hst
  have hold (he' : e ∈ s'.registry.byUID) : s'.Live (s.registry.heap e.2).agentID :=
    ⟨_, List.mem_map_of_mem he', (hext.heap e.2 (hG.indexed e he).left).agentID⟩
  cases hs
  case mismatch hm hfinds => exact hold (by rw [show (Server.reject _ _ _ _).registry = _ from hfinds.registry_eq]; exact he)
  case start hm hw hfinds => exact hold (hfinds.registry_eq.symm ▸ he)
  case task w t ts new resp ht =>
    cases ht
    case note hr _ _ | offerToken hr _ => exact hold (hr.byUID.symm ▸ he)
    case put =>
      -- The state takes the place of one for the same agent.
      by_cases huid : e.1 = (s.registry.heap w.st).instanceUID
      case pos =>
        refine ⟨_, List.mem_map_of_mem List.mem_cons_self, ?_⟩
        have hsame := (hG.indexed e he).right.trans huid
        exact (hG.eq_of_instanceUID (hG.live he) (hG.states _ hk) hsame).left.symm
      case neg => exact hold (List.mem_cons_of_mem _ (List.mem_filter.mpr ⟨he, by simpa using huid⟩))
    all_goals exact hold he
  case respond | send => exact hold (by rw [Server.registry_deliver]; exact he)
  case close conn | remove conn _ _ => exact absurd rfl (hclose conn)
  case drain hr _ => exact hold (hr.byUID.symm ▸ he)
  all_goals exact hold he

end Live

section Row

def Call.Connects (s : Server) (agentID : UUID) (k : Call) : Prop :=
  ∃ w ts, k = .work w (.setConnected :: ts) ∧ (w.agent s).agentID = agentID

def Call.Puts (s : Server) (agentID : UUID) (k : Call) : Prop :=
  ∃ w ts, k = .work w (.put :: ts) ∧ (w.agent s).agentID = agentID

def Call.Disconnects (agentID : UUID) (k : Call) : Prop :=
  ∃ st, k = .setDisconnected st ∧ st.agentID = agentID

variable [Runtime] {k : Call}

theorem Call.connected_write? (h : k.write? x s = some wr) :
    (∀ a, (wr.change a).connected = a.connected) ∨ k.Connects s wr.agentID ∧ (∀ a, (wr.change a).connected = true) ∨
      k.Disconnects wr.agentID ∧ ∀ a, (wr.change a).connected = false := by
  unfold Call.write? at h
  split at h
  case h_1 w t ts =>
    cases t
    case setConnected =>
      cases h
      exact .inr (.inl ⟨⟨w, ts, rfl, rfl⟩, fun _ => rfl⟩)
    case setAgentToken =>
      obtain ⟨gen, -, rfl⟩ := Option.map_eq_some_iff.mp h
      exact .inl fun _ => rfl
    all_goals
      simp only [Task.write?, Option.some.injEq, reduceCtorEq] at h
      try
        subst h
        exact .inl fun _ => rfl
  case h_2 =>
    cases h
    exact .inr (.inr ⟨⟨_, rfl, rfl⟩, fun _ => rfl⟩)
  case h_3 =>
    split_ifs at h
    cases h
    exact .inl fun _ => rfl
  case h_4 => cases h

theorem Call.step_connected (k : Call) :
    ((k.step svc x s).2.Connected agentID ↔ s.Connected agentID) ∨ k.Connects s agentID ∨ k.Disconnects agentID := by
  have hstores : Call.Stores x s k (k.step svc x s).2.fleet := Call.step_stores k
  unfold Server.Connected
  by_cases hk : ∀ wr, k.write? x s = some wr → ∀ a, (wr.change a).connected = a.connected
  case pos =>
    obtain h | ⟨a, now, -, h⟩ := hstores.column hk fun _ _ => rfl
    · exact .inl (by rw [h])
    · exact .inl (by simp [h, Store.NewAgent.row])
  case neg =>
    push Not at hk
    obtain ⟨wr, hwr, a, ha⟩ := hk
    by_cases hid : agentID = wr.agentID
    case pos =>
      obtain hkeep | ⟨hc, -⟩ | ⟨hd, -⟩ := Call.connected_write? hwr
      · exact absurd (hkeep a) ha
      · exact .inr (.inl (hid ▸ hc))
      · exact .inr (.inr (hid ▸ hd))
    case neg =>
      -- The row of another agent is written.
      refine .inl ?_
      rw [Call.fleet_step hwr]
      split_ifs
      · rfl
      · rw [Fleet.mem_column_write (Call.identity_write? hwr), Fleet.mem_column]
        simp only [if_neg hid]

theorem Call.Connects.step (h : k.Connects s agentID) (hx : ¬x.fail) (hrow : ∃ a ∈ s.fleet.agents, a.id = agentID) :
    (k.step svc x s).2.Connected agentID := by
  obtain ⟨w, ts, rfl, hid⟩ := h
  obtain ⟨a, ha, rfl⟩ := hrow
  unfold Server.Connected
  rw [Call.fleet_step rfl, if_neg hx, Fleet.mem_column_write fun _ => rfl]
  refine ⟨a, ha, rfl, ?_⟩
  rw [if_pos hid.symm]

theorem Call.Disconnects.step (h : k.Disconnects agentID) (hx : ¬x.fail) : ¬(k.step svc x s).2.Connected agentID := by
  obtain ⟨st, rfl, rfl⟩ := h
  unfold Server.Connected
  rw [Call.fleet_step rfl, if_neg hx, Fleet.mem_column_write fun _ => rfl]
  rintro ⟨a, ha, hid, hc⟩
  rw [if_pos rfl] at hc
  cases hc

end Row

section Agreement

open System (Holds)

def Call.WillConnect (s : Server) (agentID : UUID) : Call → Prop
  | work w ts => (w.agent s).agentID = agentID ∧ ts.any (·.isSetConnected)
  | _ => False

-- Steps are in order, as far as no other call is to set the row right.
structure OrderedAmong (c : Config Call Server) (i : Nat) : Prop where
  live : (c.calls i).Disconnects agentID ∨ (c.calls i).Puts c.shared agentID →
    Ordered c.shared (c.calls i) ∨ ∃ j, j ≠ i ∧ (c.calls j).WillConnect c.shared agentID
  connected : (c.calls i).Connects c.shared agentID →
    Ordered c.shared (c.calls i) ∨ ∃ j, j ≠ i ∧ (c.calls j).Disconnects agentID

-- The row says what the registry says, as far as no call is to tell it so.
structure Tracks (c : Config Call Server) (agentID : UUID) : Prop where
  live : (c.shared.Live agentID → c.shared.Connected agentID) ∨ ∃ i, (c.calls i).WillConnect c.shared agentID
  connected : (c.shared.Connected agentID → c.shared.Live agentID) ∨ ∃ i, (c.calls i).Disconnects agentID

variable {s s' : Server} {k : Call} {x : Draw} {agentID : UUID}

theorem Call.WillConnect.extends (h : k.WillConnect s agentID) (hk : k.Knows s) (hext : s.Extends s') :
    k.WillConnect s' agentID := by
  cases k
  case work w ts => exact ⟨(hext.heap w.st hk).agentID.trans h.left, h.right⟩
  all_goals exact h

variable [Runtime] {svc : Pipelines.Service}

theorem Call.live_close (hG : s.Grounded) (hlive : s.Live agentID) (conn : ConnID) :
    ((Call.close conn).step svc x s).2.Live agentID ∨ ((Call.close conn).step svc x s).1.Disconnects agentID := by
  obtain ⟨st, hst, rfl⟩ := hlive
  obtain ⟨e, he, rfl⟩ := List.mem_map.mp hst
  have hold (r : Registry) (hr : r = (s.registry.removeConn conn).2) (he : e ∈ r.byUID) :
      ∃ st ∈ r.conns, st.agentID = (s.registry.heap e.2).agentID :=
    ⟨_, List.mem_map_of_mem he, by rw [hr, Registry.heap_removeConn]⟩
  simp only [Call.step]
  obtain ⟨hnone, hsame⟩ | ⟨uid, st, hsome, -, hst, -, hfilter⟩ := s.registry.removeConn_cases conn
  · rw [hnone]
    exact .inl (hold _ rfl (hsame ▸ he))
  · obtain ⟨ref, hmem, rfl⟩ := Registry.mem_of_live? hst
    rw [hsome]
    simp only [if_neg (hG.ids_ne_nil _ (hG.live hmem))]
    by_cases huid : e.1 = uid
    case pos =>
      refine .inr ?_
      have heq := (hG.indexed _ hmem).right.trans (huid.symm.trans (hG.indexed e he).right.symm)
      exact ⟨_, rfl, (hG.eq_of_instanceUID (hG.live hmem) (hG.live he) heq).left⟩
    case neg => exact .inl (hold _ rfl (by rw [hfilter]; exact List.mem_filter.mpr ⟨he, by simpa using huid⟩))

theorem Call.live_step (hG : s.Grounded) (hk : k.Knows s)
    (hok : k.Disconnects agentID ∨ k.Puts s agentID → Ordered s k) (hx : ¬x.fail)
    (h : (s.Live agentID → s.Connected agentID) ∨ k.WillConnect s agentID) :
    ((k.step svc x s).2.Live agentID → (k.step svc x s).2.Connected agentID) ∨
      (k.step svc x s).1.WillConnect (k.step svc x s).2 agentID := by
  have hs : Call.Step svc x s k _ _ := Call.step_spec k
  have hlive (h : (k.step svc x s).2.Live agentID) : s.Live agentID ∨ k.Puts s agentID := by
    obtain ⟨st, hst, rfl⟩ := h
    obtain ⟨st₀, hst₀, hsame⟩ | ⟨w, ts, rfl, rfl⟩ := hs.conns hG.indexed hst
    · exact .inl ⟨st₀, hst₀, hsame.agentID.symm⟩
    · exact .inr ⟨w, ts, rfl, rfl⟩
  by_cases hconnects : k.Connects s agentID
  case pos =>
    obtain ⟨w, ts, rfl, rfl⟩ := hconnects
    exact .inl fun _ => Call.Connects.step ⟨w, ts, rfl, rfl⟩ hx (hG.states _ hk).row
  by_cases hdisconnects : k.Disconnects agentID
  case pos =>
    have hnone := hok (.inl hdisconnects)
    obtain ⟨st, rfl, rfl⟩ := hdisconnects
    refine .inl fun h => ?_
    obtain hlive | ⟨w, ts, hk, -⟩ := hlive h
    · have hsome := (hG.live_iff hk).mp hlive
      simp [show s.registry.live? st.instanceUID = none from hnone] at hsome
    · cases hk
  have hconn : (k.step svc x s).2.Connected agentID ↔ s.Connected agentID :=
    (Call.step_connected k).resolve_right (not_or.mpr ⟨hconnects, hdisconnects⟩)
  obtain h | h := h
  case inl =>
    by_cases hput : k.Puts s agentID
    case pos =>
      replace hok := hok (.inr hput)
      obtain ⟨w, ts, rfl, rfl⟩ := hput
      obtain hsome | hany := hok
      · exact .inl fun _ => hconn.mpr (h ((hG.live_iff (hG.states _ hk)).mpr hsome))
      · exact .inr ⟨rfl, hany⟩
    case neg => exact .inl fun h' => hconn.mpr (h ((hlive h').resolve_right hput))
  case inr =>
    -- The message is still to tell the row.
    refine .inr ?_
    cases k
    case work w ts =>
      cases ts
      case nil => simp [Call.WillConnect] at h
      case cons t ts =>
        refine ⟨(hs.extends.heap w.st hk).agentID.trans h.left, ?_⟩
        have hany := h.right
        simp only [List.any_cons, Bool.or_eq_true] at hany
        obtain ht | hany := hany
        · cases t
          case setConnected => exact absurd ⟨w, ts, rfl, h.left⟩ hconnects
          all_goals cases ht
        · simp only [List.any_append, hany, Bool.or_true]
    all_goals exact h.elim

theorem Call.connected_step (hG : s.Grounded) (hk : k.Knows s) (hok : k.Connects s agentID → Ordered s k) (hx : ¬x.fail)
    (h : (s.Connected agentID → s.Live agentID) ∨ k.Disconnects agentID) :
    ((k.step svc x s).2.Connected agentID → (k.step svc x s).2.Live agentID) ∨
      (k.step svc x s).1.Disconnects agentID := by
  have hs : Call.Step svc x s k _ _ := Call.step_spec k
  by_cases hconnects : k.Connects s agentID
  case pos =>
    replace hok := hok hconnects
    obtain ⟨w, ts, rfl, rfl⟩ := hconnects
    have hlive := (hG.live_iff (hG.states _ hk)).mpr hok
    exact .inl fun _ => hs.live_kept hG hk hlive (by simp)
  by_cases hdisconnects : k.Disconnects agentID
  case pos => exact .inl fun h => absurd h (hdisconnects.step hx)
  have hconn : (k.step svc x s).2.Connected agentID ↔ s.Connected agentID :=
    (Call.step_connected k).resolve_right (not_or.mpr ⟨hconnects, hdisconnects⟩)
  by_cases hc : (k.step svc x s).2.Connected agentID
  case pos =>
    have hlive := h.resolve_right hdisconnects (hconn.mp hc)
    by_cases hclose : ∃ conn, k = .close conn
    case pos =>
      obtain ⟨conn, rfl⟩ := hclose
      exact (Call.live_close hG hlive conn).imp_left fun h _ => h
    case neg => exact .inl fun _ => hs.live_kept hG hk hlive fun conn hk => hclose ⟨conn, hk⟩
  case neg => exact .inl fun h => absurd h hc

theorem reliable_grounded :
    (reliable svc).Exclusive (fun _ _ => True) Server.Grounded (fun s k => k.Knows s) fun _ _ => True :=
  (reliable_stable handler_grounded).exclusive

-- The states are about agents of the fleet, and every row is told what the registry says.
structure Tracking (c : Config Call Server) : Prop where
  holds : Holds Server.Grounded (fun s k => k.Knows s) (fun _ _ => True) c
  tracks : ∀ agentID, Tracks c agentID

theorem Tracking.start (h : Tracking c) (i : Nat) (r : Request) (hidle : (reliable svc).isIdle (c.calls i)) :
    Tracking { c with calls := Function.update c.calls i ((reliable svc).begin r) } := by
  have hcall := Call.eq_idle hidle
  refine ⟨h.holds.start reliable_grounded i r, fun agentID => ?_⟩
  constructor
  · refine System.done_or_exists_update (h.tracks agentID).live (fun _ h => .inl ?_) fun _ h => h
    refine h.resolve_right fun hw => ?_
    rw [hcall] at hw
    exact hw
  · refine System.done_or_exists_update (h.tracks agentID).connected (fun _ h => .inl ?_) fun _ h => h
    refine h.resolve_right fun hw => ?_
    obtain ⟨st, hst, -⟩ := hcall ▸ hw
    cases hst

theorem Tracking.act (h : Tracking c) (i : Nat) (x : Draw) (hok : OrderedAmong c i) :
    Tracking ((reliable svc).act c (.run i x)) := by
  have hG := h.holds.shared
  have hk := h.holds.calls i
  refine ⟨h.holds.act reliable_grounded i x trivial, fun agentID => ?_⟩
  constructor
  · refine System.done_or_exists_update (h.tracks agentID).live (fun hother => ?_) fun j hj =>
      hj.extends (h.holds.calls j) (Call.step_spec _).extends
    exact Call.live_step hG hk (fun hc => (hok.live hc).resolve_right hother) (by simp [Draw.reliable])
  · refine System.done_or_exists_update (h.tracks agentID).connected (fun hother => ?_) fun _ h => h
    exact Call.connected_step hG hk (fun hc => (hok.connected hc).resolve_right hother) (by simp [Draw.reliable])

variable (publicEndpoint : String) (fleet : Fleet) (pipelines : UUID → List Store.ActivePipeline)

-- If every row is told what the registry says at that time, or another call is to tell it, all rows are right when
-- no call is under way.
theorem connected_agrees (hids : (fleet.agents.map (·.id)).Nodup) (huids : (fleet.agents.map (·.instanceUID)).Nodup)
    (hnil : ∀ a ∈ fleet.agents, a.id ≠ Store.nilUUID) (hfirst : ∀ a ∈ fleet.agents, ¬a.connected)
    {events : List (Event Request Draw)}
    (hok : (reliable svc).MeetsAmong OrderedAmong ((reliable svc).init (newServer publicEndpoint fleet pipelines)) events)
    (hidle : ∀ i, ((reliable svc).run ((reliable svc).init (newServer publicEndpoint fleet pipelines)) events).calls i = .idle) :
    Agrees ((reliable svc).run ((reliable svc).init (newServer publicEndpoint fleet pipelines)) events).shared := by
  have hinit : Tracking ((reliable svc).init (newServer publicEndpoint fleet pipelines)) := by
    refine ⟨⟨.init hids huids hnil, fun _ => trivial, fun _ _ _ => trivial⟩, fun agentID => ⟨.inl ?_, .inl ?_⟩⟩
    · rintro ⟨st, hst, -⟩
      cases hst
    · intro hc
      obtain ⟨a, ha, -, hc⟩ := Fleet.mem_column.mp hc
      exact absurd hc (hfirst a ha)
  have hrun := System.run_invariant hinit (fun c i r h hidle => h.start i r hidle)
    (fun c i x h hk => h.act i x hk) hok
  generalize (reliable svc).run _ events = c at hrun hidle ⊢
  intro a ha
  obtain ⟨hlive, hconnected⟩ := hrun.tracks a.id
  have hG := hrun.holds.shared
  have hiff : c.shared.Connected a.id ↔ c.shared.Live a.id := by
    refine ⟨hconnected.resolve_right ?_, hlive.resolve_right ?_⟩
    · rintro ⟨i, st, hst, -⟩
      rw [hidle i] at hst
      cases hst
    · rintro ⟨i, hw⟩
      rw [hidle i] at hw
      exact hw
  rw [hG.connected_iff ha, hG.live_iff (Fleet.mem_identities ha)] at hiff
  exact Bool.eq_iff_iff.mpr hiff

end Agreement

section Sample

instance (s : Server) : (k : Call) → Decidable (Ordered s k)
  | .setDisconnected st => inferInstanceAs <| Decidable <| s.registry.live? st.instanceUID = none
  | .work w (.setConnected :: _) => inferInstanceAs <| Decidable <| (s.registry.live? (w.agent s).instanceUID).isSome
  | .work _ (.put :: _) => inferInstanceAs <| Decidable <| _ ∨ _
  | .work _ [] | .work _ (.updateDescription .. :: _) | .work _ (.remoteConfigStatus _ :: _)
  | .work _ (.setAckedConfig _ :: _) | .work _ (.checkStatus .. :: _) | .work _ (.setStatus _ :: _)
  | .work _ (.noteStatus _ :: _) | .work _ (.setEffectiveConfig _ :: _) | .work _ (.health _ :: _)
  | .work _ (.setHealth .. :: _) | .work _ (.noteHealth _ :: _) | .work _ (.renderConfig :: _)
  | .work _ (.setAssignedConfig _ :: _) | .work _ (.offerConfig _ :: _) | .work _ (.checkToken :: _)
  | .work _ (.setAgentToken :: _) | .work _ (.offerToken _ :: _)
  | .idle | .connect .. | .receive .. | .lookup .. | .enroll .. | .close _ | .commit .. | .notify _
  | .listen | .render _ | .snapshot .. | .push .. | .send .. | .drain | .touch _ => isTrue trivial

instance (s : Server) : Decidable (Agrees s) :=
  inferInstanceAs <| Decidable <| ∀ a ∈ s.fleet.agents, _

def Call.conn? : Call → Option ConnID
  | receive conn _ | lookup conn .. | enroll conn .. | close conn => some conn
  | work w _ => some w.conn
  | setDisconnected st => some st.conn
  | _ => none

def Sequential (n : Nat) (c : Config Call Server) : Prop :=
  ∀ i < n, ∀ j < n, i ≠ j → (c.calls i).conn?.isSome → (c.calls i).conn? ≠ (c.calls j).conn?

instance (n : Nat) (c : Config Call Server) : Decidable (Sequential n c) :=
  inferInstanceAs <| Decidable <| ∀ i < n, ∀ j < n, _ → _ → _

def twoConnections : List (Event Request Draw) :=
  connectSample ++ callOf 0 (.connect 2 "Bearer otm_bt_0123abcd_s") 1 0 ++
    callOf 0 (.message 1 (sampleMessage [1] 0)) 10 20

def orderedRun : List (Event Request Draw) :=
  twoConnections ++ callOf 0 (.close 1) 2 0 ++ callOf 1 (.message 2 (sampleMessage [1] 0)) 10 0

def overtakenRun : List (Event Request Draw) :=
  twoConnections ++ callOf 0 (.close 1) 1 0 ++ callOf 1 (.message 2 (sampleMessage [1] 0)) 10 0 ++
    [.run 0 (sampleDraw 0)]

theorem orderedRun_agrees :
    letI := sampleRuntime
    (reachedAfter orderedRun).shared.fleet.agents.length = 1 ∧ (∀ i, (reachedAfter orderedRun).calls i = .idle) ∧
      Agrees (reachedAfter orderedRun).shared := by
  have hidle := @calls_reachedAfter sampleRuntime orderedRun (by decide +kernel) (by decide +kernel) (by decide +kernel)
  have hordered : letI := sampleRuntime; (reliable sampleService).Meets Ordered
      ((reliable sampleService).init (newServer "" sampleFleet fun _ => [])) orderedRun := by decide +kernel
  refine ⟨by decide +kernel, hidle, ?_⟩
  exact @connected_agrees sampleRuntime sampleService "" sampleFleet (fun _ => []) (by decide) (by decide) (by decide)
    (by decide) orderedRun (hordered.imp fun _ _ h => ⟨fun _ => .inl h, fun _ => .inl h⟩) hidle

theorem overtakenRun_disagrees :
    letI := sampleRuntime
    (∀ e ∈ overtakenRun, e.slot < 2) ∧
      (reliable sampleService).Along (Sequential 2)
        ((reliable sampleService).init (newServer "" sampleFleet fun _ => [])) overtakenRun ∧
      (∀ i, (reachedAfter overtakenRun).calls i = .idle) ∧ ¬Agrees (reachedAfter overtakenRun).shared := by
  have hslots : ∀ e ∈ overtakenRun, e.slot < 2 := by decide +kernel
  refine ⟨hslots, by decide +kernel, @calls_reachedAfter sampleRuntime _ hslots (by decide +kernel) (by decide +kernel), ?_⟩
  decide +kernel

end Sample
end Opamp
