import OtelFleet.Opamp.Theorems.Memory

-- What agents report about themselves: the server remembers it and stores it, and records its changes.
namespace Opamp

open Store (UUID InstanceUID Fleet Agent AgentEventType)
open Interleave (System Event Config)

section Stores

variable {f : Fleet} {id : UUID}

def Says {α : Type} (π : Agent → α) (f : Fleet) (id : UUID) (v : α) : Prop :=
  ∀ a ∈ f.agents, a.id = id → π a = v

theorem says_iff : Says π f id v ↔ ∀ v', (id, v') ∈ f.column π → v' = v := by
  constructor
  · intro h v' hv'
    obtain ⟨a, ha, hid, rfl⟩ := Fleet.mem_column.mp hv'
    exact h a ha hid
  · exact fun h a ha hid => h _ (Fleet.mem_column.mpr ⟨a, ha, hid, rfl⟩)

variable [Runtime]

theorem Call.Stores.eventsOf (h : Call.Stores x s k f) (henrolled : p .enrolled = false)
    (hk : ∀ wr, k.write? x s = some wr → wr.agentID = id → ∀ e, wr.event = some e → p e.1 = false) :
    f.eventsOf p id = s.fleet.eventsOf p id := by
  cases h
  case same | touch => rfl
  case write wr hfail hwr => exact Fleet.eventsOf_write_eq (hk wr hwr)
  case enroll hf hevents =>
    rw [Fleet.eventsOf_append hevents]
    simp [henrolled]

theorem Call.Stores.said (h : Call.Stores x s k f) (hsaid : Says π s.fleet id v)
    (hk : ∀ wr, k.write? x s = some wr → wr.agentID = id → ∀ a, π (wr.change a) = π a)
    (hseen : ∀ a time, π { a with lastSeenAt := time } = π a)
    (hnew : (∀ a ∈ s.fleet.agents, a.id ≠ id) → ∀ a now, π (Store.NewAgent.row a now) = v) : Says π f id v := by
  cases h
  case same => exact hsaid
  case write wr hfail hwr =>
    refine says_iff.mpr fun v' hv' => ?_
    obtain ⟨a, ha, hid, rfl⟩ := (Fleet.mem_column_write (Call.identity_write? hwr)).mp hv'
    split_ifs with hwrite
    · rw [hk wr hwr hwrite.symm]
      exact hsaid a ha hid
    · exact hsaid a ha hid
  case enroll agent hf hevents =>
    intro b hb hid
    rw [hf.agents] at hb
    obtain hb | hb := List.mem_append.mp hb
    · exact hsaid b hb hid
    · obtain rfl := List.mem_singleton.mp hb
      obtain ⟨now, rfl⟩ := hf.row
      exact hnew (fun a ha => hid ▸ hf.newID a ha) _ _
  case touch seen =>
    rw [says_iff] at hsaid ⊢
    rwa [Fleet.column_touchAgents hseen]

end Stores

section Topic

def Task.isInitial : Task → Bool
  | updateDescription .. | put | setConnected | remoteConfigStatus _ | setEffectiveConfig _ | health _ | renderConfig |
      checkToken => true
  | _ => false

theorem Work.isInitial_of_mem {w : Work} (h : t ∈ w.tasks) : t.isInitial := by
  simp only [Work.tasks, List.mem_append] at h
  obtain ((((((h | h) | h) | h) | h) | h) | h) | h := h
  all_goals
    repeat' split at h
    all_goals simp only [List.not_mem_nil, List.mem_singleton] at h
    all_goals simp [h, Task.isInitial]

-- The tasks that a task may leave to be done next.
inductive Task.Leads : Task → Task → Prop where
  | ack (rcs hash) : Leads (.remoteConfigStatus rcs) (.setAckedConfig hash)
  | check (rcs newHash) : Leads (.remoteConfigStatus rcs) (.checkStatus rcs newHash)
  | setStatus (rcs newHash) : Leads (.checkStatus rcs newHash) (.setStatus rcs)
  | noteStatus (rcs) : Leads (.setStatus rcs) (.noteStatus rcs.status)
  | setHealth (h json known) : Leads (.health h) (.setHealth h json (flipEvent known h.healthy))
  | noteHealth (h json flip) : Leads (.setHealth h json flip) (.noteHealth h.healthy)
  | assign (desired) : Leads .renderConfig (.setAssignedConfig desired)
  | offer (desired) : Leads (.setAssignedConfig desired) (.offerConfig desired)
  | mint : Leads .checkToken .setAgentToken
  | offerToken (gen) : Leads .setAgentToken (.offerToken gen)

theorem Task.leads_of_mem_run [Runtime] (h : t' ∈ (Task.run svc x s w t).1) : t.Leads t' := by
  cases t
  case remoteConfigStatus rcs =>
    simp only [Task.run] at h
    split_ifs at h
    all_goals
      simp only [List.nil_append, List.cons_append, List.mem_cons, List.not_mem_nil, or_false] at h
      grind [Task.Leads]
  all_goals
    simp only [Task.run] at h
    repeat' split at h
    all_goals
      simp only [List.not_mem_nil, List.mem_singleton] at h
      try
        subst h
        constructor

-- Something that agents report. Only some tasks deal with it, which follow from the one that a message starts with, and
-- only some events are about it.
structure Topic [Runtime] (α : Type) where
  state : AgentConn → α
  row : Agent → α
  initial : α
  isEvent : AgentEventType → Bool
  about : Task → Bool
  isFirst : Task → Bool
  state_seen : ∀ st, state { st with dirtySeen := false } = state st
  state_attach : ∀ st conn msg now, state (AgentConn.attach st conn msg now) = state st
  state_ofAgent : ∀ conn auth uid agent, state (ofAgent conn auth uid agent) = row agent
  state_ofNewAgent : ∀ conn auth msg a now, state (ofNewAgent conn auth msg (Store.NewAgent.row a now)) = initial
  row_new : ∀ a now, row (Store.NewAgent.row a now) = initial
  row_seen : ∀ a time, row { a with lastSeenAt := time } = row a
  row_connected : ∀ a connected time, row { a with connected := connected, lastSeenAt := time } = row a
  row_assigned : ∀ a hash, row { a with assignedConfigHash := hash } = row a
  not_enrolled : isEvent .enrolled = false
  not_disconnected : isEvent .disconnected = false
  note : ∀ {t f}, about t = false → t.note? = some f → ∀ st, state (f st) = state st
  write : ∀ {x s w t wr}, about t = false → Task.write? x s w t = some wr →
    (∀ a, row (wr.change a) = row a) ∧ ∀ e, wr.event = some e → isEvent e.1 = false
  first : ∀ {t}, t.isInitial → about t → isFirst t
  next : ∀ {t t'}, about t = false → t.Leads t' → about t' = false

namespace Topic

variable [Runtime] {α : Type} (τ : Topic α) (b : Bool) (id : UUID) (known kept : α)
  (events : List (AgentEventType × List (String × String))) (s : Server) (k : Call)

def Quiet : Prop :=
  ∀ w t ts, k = .work w (t :: ts) → (w.agent s).agentID = id → τ.about t = false

def Calm (ts : List Task) : Prop :=
  ∀ t ∈ ts, τ.about t → τ.isFirst t

-- The events of the agent, and what its row says. It says what is needed when the state of the agent is made from
-- it; if nothing fails, it says something at any time.
structure Stored : Prop where
  events : s.fleet.eventsOf τ.isEvent id = events
  row : b → Says τ.row s.fleet id kept
  load : ¬b → ¬Registered s id → Says τ.row s.fleet id known
  absent : (∀ a ∈ s.fleet.agents, a.id ≠ id) → known = τ.initial ∧ kept = τ.initial

structure At : Prop where
  stored : τ.Stored b id known kept events s
  remembers : Remembers τ.state s k id known

variable {τ b id known kept events s k} {k' : Call}

theorem Quiet.write (h : τ.Quiet id s k) (hwr : k.write? x s = some wr) (hid : wr.agentID = id) :
    (∀ a, τ.row (wr.change a) = τ.row a) ∧ ∀ e, wr.event = some e → τ.isEvent e.1 = false := by
  unfold Call.write? at hwr
  split at hwr
  case h_1 w t ts => exact τ.write (h w t ts rfl ((Task.agentID_write? hwr).symm.trans hid)) hwr
  case h_2 =>
    cases hwr
    exact ⟨fun a => τ.row_connected a _ _, by simpa using τ.not_disconnected⟩
  case h_3 =>
    split_ifs at hwr
    cases hwr
    exact ⟨fun a => τ.row_assigned a _, by simp⟩
  case h_4 => cases hwr

theorem Stored.step (h : τ.Stored b id known kept events s) (hG : s.Grounded) (hk : k.Knows s) (hquiet : τ.Quiet id s k)
    (hclose : ¬b → ¬k.isClose) : τ.Stored b id known kept events (k.step svc x s).2 := by
  have hstores : Call.Stores x s k (k.step svc x s).2.fleet := Call.step_stores k
  have hsaid {v : α} (hv : Says τ.row s.fleet id v) (hnew : (∀ a ∈ s.fleet.agents, a.id ≠ id) → v = τ.initial) :
      Says τ.row (k.step svc x s).2.fleet id v :=
    hstores.said hv (fun wr hwr hid => (hquiet.write hwr hid).left) τ.row_seen fun habsent a now =>
      (τ.row_new a now).trans (hnew habsent).symm
  constructor
  case events =>
    rw [hstores.eventsOf τ.not_enrolled fun wr hwr hid => (hquiet.write hwr hid).right]
    exact h.events
  case row => exact fun hb => hsaid (h.row hb) fun habsent => (h.absent habsent).right
  case load =>
    intro hb hnot
    refine hsaid (h.load hb fun hreg => hnot (hreg.step hG hk (hclose hb))) fun habsent => (h.absent habsent).left
  case absent =>
    have hext : s.Extends (k.step svc x s).2 := (Call.step_spec k).extends
    exact fun habsent => h.absent (hext.absent habsent)

theorem Quiet.of_not_isMessage (h : ¬k.isMessage) : τ.Quiet id s k := by
  rintro w t ts rfl
  exact absurd rfl h

theorem At.aside (h : τ.At b id known kept events s k) (hG : s.Grounded) (hk : k.Knows s) (hknows : k'.Knows s)
    (hk' : ¬k'.isMessage) (hclose : ¬b → ¬k'.isClose) : τ.At b id known kept events (k'.step svc x s).2 k :=
  ⟨h.stored.step hG hknows (.of_not_isMessage hk') hclose, h.remembers.aside hG hk hk' hknows τ.state_seen⟩

end Topic
end Topic

section Arranged

def Call.Fresh (s : Server) : Call → Prop
  | lookup _ _ msg _ _ | enroll _ _ msg _ _ => s.registry.ref? msg.instanceUID = none
  | _ => True

inductive PutFirst : List Task → Prop where
  | put {ts} : PutFirst (.put :: ts)
  | describe {d json ts} : PutFirst ts → PutFirst (.updateDescription d json :: ts)

def Call.Joined (s : Server) : Call → Prop
  | work w ts => PutFirst ts ∨ Registered s (w.agent s).agentID
  | _ => True

variable {k k' : Call} {id : UUID}

theorem Work.putFirst_tasks (w : Work) : PutFirst w.tasks := by
  unfold Work.tasks
  simp only [List.append_assoc, List.singleton_append]
  repeat' split
  all_goals first | exact .describe .put | exact .put

theorem not_registered_of_ref? (hG : s.Grounded) (hst : Known s st)
    (hnone : s.registry.ref? st.instanceUID = none) : ¬Registered s st.agentID := by
  rintro ⟨uid, ref, href, hid⟩
  obtain ⟨hlt, huid⟩ := hG.indexed _ (Registry.mem_of_ref? href)
  have heq := List.inj_on_of_nodup_map hG.ids (hG.states ref hlt) hst hid
  have huid' : (s.registry.heap ref).instanceUID = st.instanceUID := congrArg (·.2.1) heq
  rw [← huid', huid] at hnone
  rw [hnone] at href
  cases href

theorem startWork_fresh : (startWork s conn auth msg now known newConn st).1.Fresh s' := by
  unfold startWork
  split_ifs
  all_goals trivial

theorem Call.Fresh.of_not_isMessage (h : ¬k.isMessage) : k.Fresh s := by
  cases k
  case lookup | enroll => exact absurd rfl h
  all_goals trivial

variable [Runtime]

theorem Call.Fresh.step (h : k.Fresh s) : (k.step svc x s).1.Fresh (k.step svc x s).2 := by
  cases k
  case receive conn msg =>
    simp only [Call.step]
    split
    case h_1 => trivial
    case h_2 =>
      split_ifs
      · trivial
      · split
        case h_1 hlive => exact Option.map_eq_none_iff.mp hlive
        case h_2 =>
          split_ifs
          · trivial
          · exact startWork_fresh
  case lookup | enroll =>
    simp only [Call.step]
    repeat' split
    all_goals first | trivial | exact h | exact startWork_fresh
  case work w ts => cases ts <;> trivial
  all_goals exact .of_not_isMessage (Call.isMessage_step (by simp [Call.isMessage]))

theorem Call.Fresh.aside (h : k.Fresh s) (hk' : ¬k'.isMessage) : k.Fresh (k'.step svc x s).2 := by
  have hnone {uid : InstanceUID} (hu : s.registry.ref? uid = none) : (k'.step svc x s).2.registry.ref? uid = none := by
    rw [Option.eq_none_iff_forall_ne_some]
    intro ref href
    rw [(Call.step_registers k').aside hk' href] at hu
    cases hu
  cases k
  case lookup | enroll => exact hnone h
  all_goals trivial

theorem Call.Step.tasks (hs : Call.Step svc x s k (.work w' ts') s')
    (htask : ∀ w t ts, k ≠ .work w (t :: ts)) : ts' = w'.tasks := by
  cases hs
  case start => rfl
  case task => exact absurd rfl (htask _ _ _)
  case drain hr hk' =>
    obtain hk' | ⟨seen, hk'⟩ := hk'
    all_goals cases hk'

theorem Call.Step.joined (hs : Call.Step svc x s k k' s') (htask : ∀ w t ts, k ≠ .work w (t :: ts)) : k'.Joined s' := by
  cases hs
  case start w _ _ _ => exact .inl w.putFirst_tasks
  case task => exact absurd rfl (htask _ _ _)
  case drain hk' =>
    obtain rfl | ⟨seen, rfl⟩ := hk'
    all_goals trivial
  all_goals trivial

theorem Call.Joined.step (h : k.Joined s) (hG : s.Grounded) (hk : k.Knows s) (hclose : ¬k.isClose) :
    (k.step svc x s).1.Joined (k.step svc x s).2 := by
  have hs : Call.Step svc x s k (k.step svc x s).1 (k.step svc x s).2 := Call.step_spec k
  by_cases htask : ∃ w t ts, k = .work w (t :: ts)
  case neg => exact hs.joined fun w t ts hkw => htask ⟨w, t, ts, hkw⟩
  case pos =>
    obtain ⟨w, t, ts, rfl⟩ := htask
    obtain hput | hreg := h
    · cases hput
      case put =>
        refine .inr ⟨(w.agent s).instanceUID, w.st, ?_, rfl⟩
        exact Registry.ref?_put.trans (if_pos rfl)
      case describe hts => exact .inl hts
    · refine .inr ?_
      have hid := (hs.extends.heap w.st hk).agentID
      unfold Work.agent
      exact hid ▸ hreg.step hG hk hclose

theorem Call.Joined.aside (h : k.Joined s) (hG : s.Grounded) (hk : k.Knows s) (hknows : k'.Knows s) (hclose : ¬k'.isClose) :
    k.Joined (k'.step svc x s).2 := by
  cases k
  case work w ts =>
    refine h.imp_right fun hreg => ?_
    have hext : s.Extends (k'.step svc x s).2 := (Call.step_spec k').extends
    have hid := (hext.heap w.st hk).agentID
    unfold Work.agent
    exact hid ▸ hreg.step hG hknows hclose
  all_goals trivial

namespace Topic

variable {τ : Topic α}

theorem At.load (h : τ.At b id v v events s k) (hG : s.Grounded) (hfresh : k.Fresh s)
    (hfinds : Call.Finds x s k conn auth msg now known newConn st s₁) (hid : st.agentID = id) :
    τ.state (st.attach conn msg now) = v := by
  have hattach := hfinds.known_attach hG
  rw [τ.state_attach]
  cases hfinds
  case known hconn hcustomer hlive =>
    obtain ⟨ref, href, rfl⟩ := Option.map_eq_some_iff.mp hlive
    exact h.remembers ref ⟨hid, .inl ⟨_, href⟩⟩
  case found agent hcustomer hagent =>
    have hmem := List.mem_of_find?_eq_some hagent
    rw [τ.state_ofAgent]
    cases b
    case true => exact h.stored.row rfl agent hmem hid
    case false =>
      refine h.stored.load (by simp) ?_ agent hmem hid
      exact hid ▸ not_registered_of_ref? hG hattach hfresh
  case enrolled d agent f hf =>
    obtain ⟨time, rfl⟩ := hf.row
    rw [τ.state_ofNewAgent]
    exact (h.stored.absent fun a ha hida => hf.newID a ha (hida.trans hid.symm)).left.symm

theorem At.step (h : τ.At b id v v events s k) (hG : s.Grounded) (hk : k.Knows s) (hfresh : k.Fresh s)
    (hquiet : τ.Quiet id s k) (hclose : ¬b → ¬k.isClose) : τ.At b id v v events (k.step svc x s).2 (k.step svc x s).1 where
  stored := h.stored.step hG hk hquiet hclose
  remembers := by
    refine h.remembers.step hG hk τ.state_seen (fun w t ts f hkw hf hid => ?_) fun hfinds hid => h.load hG hfresh hfinds hid
    exact τ.note (hquiet w t ts hkw hid) hf

theorem calm_step (hk : k.Knows s) (hquiet : τ.Quiet id s k)
    (h : ∀ w ts, k = .work w ts → (w.agent s).agentID = id → τ.Calm ts) {w' : Work}
    (hk' : (k.step svc x s).1 = .work w' ts') (hid : (w'.agent (k.step svc x s).2).agentID = id) : τ.Calm ts' := by
  have hs : Call.Step svc x s k (k.step svc x s).1 (k.step svc x s).2 := Call.step_spec k
  by_cases htask : ∃ w t ts, k = .work w (t :: ts)
  case pos =>
    obtain ⟨w, t, ts, rfl⟩ := htask
    cases hk'
    have hid' : (w.agent s).agentID = id := (hs.extends.heap w.st hk).agentID.symm.trans hid
    intro t' ht' habout
    obtain hnew | hold := List.mem_append.mp ht'
    · rw [τ.next (hquiet w t ts rfl hid') (Task.leads_of_mem_run hnew)] at habout
      cases habout
    · exact h w _ rfl hid' t' (List.mem_cons_of_mem _ hold) habout
  case neg =>
    rw [hk'] at hs
    rw [hs.tasks fun w t ts hkw => htask ⟨w, t, ts, hkw⟩]
    exact fun t ht => τ.first (Work.isInitial_of_mem ht)

end Topic
end Arranged

section Orderly

-- Messages are handled one after another, in the first slot, where something is known about what is drawn. Connections
-- may be closed or not.
def Orderly (mayClose : Bool) (D : Draw → Prop) : Event Request Draw → Prop
  | .start i r => (r.begin.isMessage → i = 0) ∧ (¬mayClose → ¬r.begin.isClose)
  | .run i x => i = 0 → D x

instance (mayClose : Bool) (D : Draw → Prop) [DecidablePred D] : DecidablePred (Orderly mayClose D)
  | .start i r => inferInstanceAs <| Decidable <| (r.begin.isMessage → i = 0) ∧ (¬mayClose → ¬r.begin.isClose)
  | .run i x => inferInstanceAs <| Decidable <| i = 0 → D x

structure Call.Placed (b : Bool) (s : Server) (i : Nat) (k : Call) : Prop where
  knows : k.Knows s
  fresh : k.Fresh s
  joined : ¬b → k.Joined s
  aside : i ≠ 0 → ¬k.isMessage
  stays : ¬b → ¬k.isClose

structure Arranged (b : Bool) (c : Config Call Server) : Prop where
  grounded : c.shared.Grounded
  placed : ∀ i, (c.calls i).Placed b c.shared i

variable {k k' : Call}

theorem Call.Placed.begin (hr : Orderly b D (.start i r)) : r.begin.Placed b s i where
  knows := by cases r <;> trivial
  fresh := by cases r <;> trivial
  joined _ := by cases r <;> trivial
  aside hi hm := hi (hr.left hm)
  stays := hr.right

variable [Runtime]

theorem Call.Placed.step (h : k.Placed b s i) (hG : s.Grounded) : (k.step svc x s).1.Placed b (k.step svc x s).2 i where
  knows := h.knows.step hG (Call.step_spec k)
  fresh := h.fresh.step
  joined hb := (h.joined hb).step hG h.knows (h.stays hb)
  aside hi := Call.isMessage_step (h.aside hi)
  stays _ := Call.isClose_step

theorem Call.Placed.other (h : k.Placed b s i) (h' : k'.Placed b s j) (hne : i ≠ j) (hG : s.Grounded) :
    k.Placed b (k'.step svc x s).2 i where
  knows := h.knows.extends (Call.step_spec k').extends
  fresh := by
    by_cases hj : j = 0
    · exact .of_not_isMessage (h.aside (hj ▸ hne))
    · exact h.fresh.aside (h'.aside hj)
  joined hb := (h.joined hb).aside hG h.knows h'.knows (h'.stays hb)
  aside := h.aside
  stays := h.stays

theorem Arranged.act (h : Arranged b c) (he : Orderly b D e) : Arranged b ((handler svc).act c e) := by
  cases e
  case start i r =>
    simp only [System.act]
    split_ifs
    · refine ⟨h.grounded, (Function.forall_update_iff _ _).mpr ⟨.begin he, fun j _ => h.placed j⟩⟩
    · exact h
  case run i x =>
    refine ⟨h.grounded.step (h.placed i).knows.refers (Call.step_spec _), ?_⟩
    refine (Function.forall_update_iff _ _).mpr ⟨(h.placed i).step h.grounded, fun j hj => ?_⟩
    exact (h.placed j).other (h.placed i) hj h.grounded

theorem Arranged.init (hids : (fleet.agents.map (·.id)).Nodup) (huids : (fleet.agents.map (·.instanceUID)).Nodup)
    (hnil : ∀ a ∈ fleet.agents, a.id ≠ Store.nilUUID) :
    Arranged b ((handler svc).init (newServer publicEndpoint fleet pipelines)) where
  grounded := .init hids huids hnil
  placed _ := ⟨trivial, trivial, fun _ => trivial, fun _ => by simp [System.init, handler, Call.isMessage],
    fun _ => by simp [System.init, handler, Call.isClose]⟩

theorem Arranged.run {g : Λ → α → Λ} {I : Λ → Server → Call → Prop}
    (hbegin : ∀ l s r, I l s .idle → I l s (Request.begin r))
    (hown : ∀ l x s k, I l s k → s.Grounded → k.Placed b s 0 → D x → ok s k →
      I ((f x s k).foldl g l) (k.step svc x s).2 (k.step svc x s).1)
    (haside : ∀ l x s k, ∀ k' : Call, I l s k → s.Grounded → k.Placed b s 0 → ∀ i ≠ 0, k'.Placed b s i →
      I l (k'.step svc x s).2 k)
    (hshown : ∀ x s k, ¬k.isMessage → f x s k = []) (hc : Arranged b c) (hI : I l c.shared (c.calls 0))
    (hevents : ∀ e ∈ events, Orderly b D e) (hok : (handler svc).Meets ok c events) :
    Arranged b ((handler svc).run c events) ∧
      I (((handler svc).trace f c events).foldl g l) ((handler svc).run c events).shared
        (((handler svc).run c events).calls 0) := by
  let J (shows : List α) (c : Config Call Server) : Prop := Arranged b c ∧ I (shows.foldl g l) c.shared (c.calls 0)
  have hinit : J [] c := ⟨hc, hI⟩
  suffices hact : ∀ shows c e, J shows c → Orderly b D e →
      System.Allows (fun c i => ok c.shared (c.calls i)) c e → J (shows ++ System.shown f c e) ((handler svc).act c e) by
    simpa using System.run_traced hinit hact hevents hok
  · rintro shows c e ⟨hc, hI⟩ he hallows
    refine ⟨hc.act he, ?_⟩
    cases e
    case start i r =>
      simp only [System.act, System.shown, List.append_nil]
      split_ifs with hidle
      · by_cases hi : 0 = i
        · subst hi
          simp only [Function.update_self]
          rw [Call.eq_idle hidle] at hI
          exact hbegin _ _ r hI
        · simpa only [Function.update_of_ne hi] using hI
      · exact hI
    case run i x =>
      by_cases hi : 0 = i
      · subst hi
        rw [System.calls_act_self, System.shown, List.foldl_append]
        exact hown _ x _ _ hI hc.grounded (hc.placed 0) (he rfl) hallows
      · rw [System.calls_act_of_ne hi, System.shown,
          hshown x _ _ ((hc.placed i).aside (Ne.symm hi)), List.append_nil]
        exact haside _ x _ _ _ hI hc.grounded (hc.placed 0) i (Ne.symm hi) (hc.placed i)

theorem Topic.At.of_task {τ : Topic α} {id : UUID} (hG : s.Grounded) (hplaced : (Call.work w (t :: ts)).Placed b s i)
    (hid : (w.agent s).agentID = id) (hput : ¬PutFirst (t :: ts))
    (hevents : (t.run svc x s w).2.2.fleet.eventsOf τ.isEvent id = events)
    (hrow : b → Says τ.row (t.run svc x s w).2.2.fleet id kept)
    (hremembers : Remembers τ.state ((Call.work w (t :: ts)).step svc x s).2 ((Call.work w (t :: ts)).step svc x s).1 id known) :
    τ.At b id known kept events ((Call.work w (t :: ts)).step svc x s).2 ((Call.work w (t :: ts)).step svc x s).1 := by
  refine ⟨⟨hevents, hrow, fun hb hnot => ?_, fun habsent => ?_⟩, hremembers⟩
  · have hreg : Registered s id := hid ▸ (hplaced.joined hb).resolve_left hput
    exact absurd (hreg.step hG hplaced.knows (hplaced.stays hb)) hnot
  · have hext : s.Extends ((Call.work w (t :: ts)).step svc x s).2 := (Call.step_spec _).extends
    obtain ⟨a, ha, hida⟩ := ((hG.states w.st hplaced.knows).extends hext (.refl _)).row
    exact absurd (hida.trans hid) (habsent a ha)

end Orderly

section Follows

-- How far the handling of a report has got: the tasks that are left, what is remembered, and what has been stored.
structure Phase (α : Type) where
  tasks : List Task
  known : α
  kept : α

variable [Runtime] {α : Type} {τ : Topic α} {b : Bool} {id : UUID} {P : Phase α → Prop} {known : α}
  {events : List (AgentEventType × List (String × String))} {s : Server} {w : Work} {ts : List Task}

-- The server keeps to what is known of an agent and to the events of it; some phases of a report are possible.
inductive Topic.Follows (τ : Topic α) (b : Bool) (id : UUID) (P : Phase α → Prop) (known : α)
    (events : List (AgentEventType × List (String × String))) (s : Server) : Call → Prop where
  | settled {k} : (∀ w ts, k = .work w ts → (w.agent s).agentID = id → τ.Calm ts) → τ.At b id known known events s k →
      Topic.Follows τ b id P known events s k
  | busy {w ts p} : P p → (w.agent s).agentID = id → τ.Calm ts → τ.At b id p.known p.kept events s (.work w (p.tasks ++ ts)) →
      Topic.Follows τ b id P known events s (.work w (p.tasks ++ ts))

namespace Topic

theorem Follows.begin (r : Request) (h : τ.Follows b id P known events s .idle) : τ.Follows b id P known events s r.begin := by
  obtain ⟨-, hat⟩ := h
  refine .settled ?_ ⟨hat.stored, fun ref hheld => hat.remembers ref ?_⟩
  · rintro w ts hw
    cases r <;> cases hw
  · refine ⟨hheld.left, .inl ?_⟩
    obtain href | ⟨w, ts, hw, -⟩ := hheld.right
    · exact href
    · cases r <;> cases hw

theorem Follows.aside {k k' : Call} (h : τ.Follows b id P known events s k) (hG : s.Grounded) (hk : k.Knows s)
    (hknows : k'.Knows s) (hk' : ¬k'.isMessage) (hclose : ¬b → ¬k'.isClose) :
    τ.Follows b id P known events (k'.step svc x s).2 k := by
  have hext : s.Extends (k'.step svc x s).2 := (Call.step_spec k').extends
  obtain ⟨hcalm, hat⟩ | ⟨hp, hid, hcalm, hat⟩ := h
  · refine .settled ?_ (hat.aside hG hk hknows hk' hclose)
    rintro w ts rfl hid
    exact hcalm w ts rfl ((hext.heap w.st hk).agentID.symm.trans hid)
  · exact .busy hp ((hext.heap _ hk).agentID.trans hid) hcalm (hat.aside hG hk hknows hk' hclose)

theorem Follows.cases (h : τ.Follows b id P known events s k) :
    τ.Quiet id s k ∧ (∀ w ts, k = .work w ts → (w.agent s).agentID = id → τ.Calm ts) ∧ τ.At b id known known events s k ∨
      (∃ w t ts, k = .work w (t :: ts) ∧ τ.isFirst t ∧ (w.agent s).agentID = id ∧ τ.Calm ts ∧
        τ.At b id known known events s (.work w (t :: ts))) ∨
      ∃ w ts p, k = .work w (p.tasks ++ ts) ∧ P p ∧ (w.agent s).agentID = id ∧ τ.Calm ts ∧
        τ.At b id p.known p.kept events s (.work w (p.tasks ++ ts)) := by
  obtain ⟨hcalm, hat⟩ | ⟨hp, hid, hcalm, hat⟩ := h
  · by_cases hquiet : τ.Quiet id s k
    case pos => exact .inl ⟨hquiet, hcalm, hat⟩
    case neg =>
      unfold Quiet at hquiet
      push Not at hquiet
      obtain ⟨w, t, ts, rfl, hid, habout⟩ := hquiet
      have hts := hcalm w _ rfl hid
      refine .inr (.inl ⟨w, t, ts, rfl, hts t List.mem_cons_self (by simpa using habout), hid, ?_, hat⟩)
      exact fun t ht => hts t (List.mem_cons_of_mem _ ht)
  · exact .inr (.inr ⟨_, _, _, rfl, hp, hid, hcalm, hat⟩)

theorem Follows.of_quiet (hquiet : τ.Quiet id s k)
    (hcalm : ∀ w ts, k = .work w ts → (w.agent s).agentID = id → τ.Calm ts) (h : τ.At b id known known events s k)
    (hG : s.Grounded) (hk : k.Placed b s 0) : τ.Follows b id P known events (k.step svc x s).2 (k.step svc x s).1 :=
  .settled (fun _ _ hk' hid => calm_step hk.knows hquiet hcalm hk' hid) (h.step hG hk.knows hk.fresh hquiet hk.stays)

theorem At.state_eq (h : τ.At b id known kept events s (.work w ts)) (hid : (w.agent s).agentID = id) :
    τ.state (w.agent s) = known :=
  h.remembers w.st ⟨hid, .inr ⟨w, ts, rfl, rfl⟩⟩

theorem Follows.of_task {ts₀ : List Task} (hG : s.Grounded) (hk : (Call.work w (t :: ts₀)).Placed b s 0)
    (hid : (w.agent s).agentID = id) (hcalm : τ.Calm ts) (hput : ¬PutFirst (t :: ts₀))
    (hp : P p ∨ p = ⟨[], known, known⟩) (htasks : (t.run svc x s w).1 ++ ts₀ = p.tasks ++ ts)
    (hresp : (t.run svc x s w).2.1 = w.resp) (hevents : (t.run svc x s w).2.2.fleet.eventsOf τ.isEvent id = events)
    (hrow : b → Says τ.row (t.run svc x s w).2.2.fleet id p.kept)
    (hremembers : Remembers τ.state ((Call.work w (t :: ts₀)).step svc x s).2
      ((Call.work w (t :: ts₀)).step svc x s).1 id p.known) :
    τ.Follows b id P known events ((Call.work w (t :: ts₀)).step svc x s).2 ((Call.work w (t :: ts₀)).step svc x s).1 := by
  have hat : τ.At b id p.known p.kept events ((Call.work w (t :: ts₀)).step svc x s).2
      ((Call.work w (t :: ts₀)).step svc x s).1 := .of_task hG hk hid hput hevents hrow hremembers
  have hid' : (w.agent ((Call.work w (t :: ts₀)).step svc x s).2).agentID = id := by
    have hext : s.Extends ((Call.work w (t :: ts₀)).step svc x s).2 := (Call.step_spec _).extends
    exact (hext.heap w.st hk.knows).agentID.trans hid
  have hstep : ((Call.work w (t :: ts₀)).step svc x s).1 = .work w (p.tasks ++ ts) := by
    simp only [Call.step, hresp, htasks]
  rw [hstep] at hat ⊢
  obtain hp | rfl := hp
  · exact .busy hp hid' hcalm hat
  · refine .settled ?_ hat
    rintro w' ts' hw -
    cases hw
    exact hcalm

def recalled (τ : Topic α) (s : Server) (id : UUID) : α :=
  match s.fleet.agents.find? (·.id = id) with
  | none => τ.initial
  | some a =>
    match s.registry.live? a.instanceUID with
    | some st => τ.state st
    | none => τ.row a

theorem recalled_of_registered (hG : s.Grounded) (href : s.registry.ref? uid = some ref)
    (hid : (s.registry.heap ref).agentID = id) : τ.recalled s id = τ.state (s.registry.heap ref) := by
  obtain ⟨hlt, huid⟩ := hG.indexed _ (Registry.mem_of_ref? href)
  obtain ⟨a, ha, hidentity⟩ := List.mem_map.mp (hG.states ref hlt)
  have hida : a.id = id := (congrArg (·.1) hidentity).trans hid
  have huida : a.instanceUID = uid := (congrArg (·.2.1) hidentity).trans huid
  have hlive : s.registry.live? a.instanceUID = some (s.registry.heap ref) := by rw [huida, Registry.live?, href]; rfl
  subst hida
  simp only [recalled, hG.find?_row ha, hlive]

theorem recalled_of_row (hG : s.Grounded) (ha : a ∈ s.fleet.agents) (hid : a.id = id) (hnot : ¬Registered s id) :
    τ.recalled s id = τ.row a := by
  subst hid
  have hlive : s.registry.live? a.instanceUID = none := by
    rw [Option.eq_none_iff_forall_ne_some]
    intro st hst
    -- A state with the instance UID of the agent is a state of the agent.
    obtain ⟨ref, href, rfl⟩ := Option.map_eq_some_iff.mp hst
    obtain ⟨hlt, huid⟩ := hG.indexed _ (Registry.mem_of_ref? href)
    have hidentity := List.inj_on_of_nodup_map hG.uids (hG.states ref hlt) (Fleet.mem_identities ha) huid
    exact hnot ⟨_, ref, href, congrArg (·.1) hidentity⟩
  simp only [recalled, hG.find?_row ha, hlive]

theorem At.init (hG : s.Grounded) (hk : ∀ w ts, k ≠ .work w ts) (hnot : b → ¬Registered s id) :
    τ.At b id (τ.recalled s id) (τ.recalled s id) (s.fleet.eventsOf τ.isEvent id) s k := by
  have hrow (hnot : ¬Registered s id) : Says τ.row s.fleet id (τ.recalled s id) :=
    fun a ha hid => (recalled_of_row hG ha hid hnot).symm
  refine ⟨⟨rfl, fun hb => hrow (hnot hb), fun _ => hrow, fun habsent => ?_⟩, ?_⟩
  · have hnone : s.fleet.agents.find? (·.id = id) = none := by simpa using habsent
    simp [recalled, hnone]
  · rintro ref ⟨hid, ⟨uid, href⟩ | ⟨w, ts, hw, -⟩⟩
    · exact (recalled_of_registered hG href hid).symm
    · exact absurd hw (hk w ts)

theorem Follows.init (hG : s.Grounded) (hidle : k.isIdle) (hnot : b → ¬Registered s id) :
    τ.Follows b id P (τ.recalled s id) (s.fleet.eventsOf τ.isEvent id) s k := by
  have hwork : ∀ w ts, k ≠ .work w ts := by
    rintro w ts rfl
    cases hidle
  exact .settled (fun w ts hw => absurd hw (hwork w ts)) (.init hG hwork hnot)

theorem Follows.idle (h : τ.Follows b id P known events s k) (hidle : k.isIdle) :
    s.fleet.eventsOf τ.isEvent id = events ∧ (b → Says τ.row s.fleet id known) := by
  obtain ⟨-, hat⟩ | ⟨-, -, -, -⟩ := h
  · exact ⟨hat.stored.events, hat.stored.row⟩
  · cases hidle

end Topic
end Follows
end Opamp
