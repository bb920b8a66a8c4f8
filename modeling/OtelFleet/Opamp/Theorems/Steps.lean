import OtelFleet.Opamp.Handler
import OtelFleet.Opamp.Theorems.Registry
import OtelFleet.Store.Theorems.Fleet

-- All that a step of a call can do.
namespace Opamp

open Store (UUID Hash Fleet Agent)

structure Keeps (g : Agent → Agent) : Prop where
  identity : ∀ a, (g a).identity = a.identity
  assigned : ∀ a, (g a).assignedConfigHash = a.assignedConfigHash

def Task.Quiet : Task → Prop
  | put | renderConfig | setAssignedConfig _ | offerConfig _ => False
  | _ => True

def Work.agent (s : Server) (w : Work) : AgentConn :=
  s.registry.heap w.st

theorem Work.mem_tasks (w : Work) (h : t ∈ w.tasks) : t.Quiet ∨ t = .put ∨ t = .renderConfig := by
  simp only [Work.tasks, List.mem_append] at h
  -- Each part of the list is empty or has one task.
  obtain ((((((h | h) | h) | h) | h) | h) | h) | h := h
  all_goals
    repeat' split at h
    all_goals simp only [List.not_mem_nil, List.mem_singleton] at h
    all_goals simp [h, Task.Quiet]

theorem Server.store_eq_some {s s' : Server} {id : UUID} (h : s.store x conn id op = some s') :
    ∃ f, op s.fleet = .ok f ∧ s' = { s with fleet := f }.effect conn id .store := by
  unfold Server.store at h
  split_ifs at h
  cases hop : op s.fleet
  case error e => simp [hop] at h
  case ok f =>
    simp only [hop, Option.some.injEq] at h
    exact ⟨f, rfl, h.symm⟩

theorem Server.tryStore_cases (s : Server) (x : Draw) (conn : ConnID) (id : UUID)
    (op : Fleet → Except Store.FleetError Fleet) :
    (x.fail ∨ ∃ e, op s.fleet = .error e) ∧ s.tryStore x conn id op = s ∨
      ∃ f, op s.fleet = .ok f ∧ s.tryStore x conn id op = { s with fleet := f }.effect conn id .store := by
  unfold Server.tryStore
  cases hs : s.store x conn id op
  case none =>
    refine .inl ⟨?_, rfl⟩
    unfold Server.store at hs
    split_ifs at hs with hfail
    case pos => exact .inl hfail
    case neg =>
      cases hop : op s.fleet
      case error e => exact .inr ⟨e, rfl⟩
      case ok f => simp [hop] at hs
  case some s' =>
    obtain ⟨f, hf, rfl⟩ := Server.store_eq_some hs
    exact .inr ⟨f, hf, rfl⟩

section Task

variable [Runtime] (svc : Pipelines.Service) (x : Draw) (s : Server) (w : Work)

theorem Server.tryRender_eq_error (h : s.tryRender svc x customerID = .error e) :
    x.fail ∨ ∃ e, s.renderEdgeCurrent svc customerID = .error e := by
  unfold tryRender at h
  split_ifs at h with hfail
  · exact .inl hfail
  · exact .inr ⟨e, h⟩

theorem Server.tryRender_eq_ok (h : s.tryRender svc x customerID = .ok desired) :
    s.renderEdgeCurrent svc customerID = .ok desired := by
  unfold tryRender at h
  split_ifs at h
  exact h

inductive Task.Step : Task → List Task → ServerToAgent → Server → Prop where
  | skip {t new} : t.Quiet → (∀ t' ∈ new, t'.Quiet) → Task.Step t new w.resp s
  | write {t new g f events} : t.Quiet → (∀ t' ∈ new, t'.Quiet) → s.fleet.Updated f (w.agent s).agentID g → Keeps g →
      Task.Step t new w.resp ({ s with fleet := f, events := events }.effect w.conn (w.agent s).agentID .store)
  | note {t new r} : t.Quiet → (∀ t' ∈ new, t'.Quiet) → s.registry.Touched r →
      Task.Step t new w.resp { s with registry := r }
  | mint {gen f g} : s.fleet.Updated f (w.agent s).agentID g → Keeps g →
      Task.Step .setAgentToken [.offerToken gen] w.resp
        ({ s with fleet := f }.effect w.conn (w.agent s).agentID (.mint gen.hash))
  | offerToken {gen resp r} : resp.remoteConfig = w.resp.remoteConfig → s.registry.Touched r →
      Task.Step (.offerToken gen) [] resp { s with registry := r }
  | put : Task.Step .put [] w.resp { s with registry := s.registry.put w.st }
  | noConfig : ¬(w.agent s).accepts acceptsRemoteConfig ∨ x.fail ∨
        (∃ e, s.renderEdgeCurrent svc (w.agent s).customerID = .error e) →
      Task.Step .renderConfig [] w.resp s
  | render {desired} : (w.agent s).accepts acceptsRemoteConfig →
      s.renderEdgeCurrent svc (w.agent s).customerID = .ok desired →
      Task.Step .renderConfig [.setAssignedConfig desired] w.resp s
  | assign {desired f} :
      s.fleet.Updated f (w.agent s).agentID (fun a => { a with assignedConfigHash := Runtime.sha256 desired }) →
      Task.Step (.setAssignedConfig desired) [.offerConfig desired] w.resp
        ({ s with fleet := f }.effect w.conn (w.agent s).agentID .store)
  | notAssigned {desired} : (x.fail ∨ ∀ a ∈ s.fleet.agents, a.id ≠ (w.agent s).agentID) →
      Task.Step (.setAssignedConfig desired) [.offerConfig desired] w.resp s
  | upToDate {desired} : Task.Step (.offerConfig desired) [] w.resp
      (s.effect w.conn (w.agent s).agentID (.upToDate (Runtime.sha256 desired)))
  | offer {desired resp} : resp.remoteConfig = some ⟨desired, Runtime.sha256 desired⟩ →
      Task.Step (.offerConfig desired) [] resp s

variable {svc x s w}

theorem Task.Step.tryStore
    (ht : t.Quiet) (hop : ∀ f, op s.fleet = .ok f → s.fleet.Updated f (w.agent s).agentID g) (hg : Keeps g) :
    Task.Step svc x s w t [] w.resp (s.tryStore x w.conn (w.agent s).agentID op) := by
  obtain ⟨-, hs⟩ | ⟨f, hf, hs⟩ := s.tryStore_cases x w.conn (w.agent s).agentID op
  · rw [hs]
    exact .skip ht (by simp)
  · rw [hs]
    exact .write ht (by simp) (hop f hf) hg

theorem Task.run_step (t : Task) :
    Task.Step svc x s w t (t.run svc x s w).1 (t.run svc x s w).2.1 (t.run svc x s w).2.2 := by
  cases t
  case updateDescription d json | setAckedConfig hash | setEffectiveConfig body =>
    exact .tryStore trivial (fun _ => Fleet.updateAgent_updated) ⟨fun _ => rfl, fun _ => rfl⟩
  case put => exact .put
  case setConnected =>
    exact .tryStore trivial (fun _ => Fleet.updateAgentWith_updated) ⟨fun _ => rfl, fun _ => rfl⟩
  case remoteConfigStatus rcs =>
    have hsame (hash : Hash) (st : AgentConn) : st.Same { st with lastAckedHash := hash } := ⟨rfl, rfl, rfl, rfl, rfl⟩
    simp only [Task.run]
    split_ifs
    · exact .note trivial (by simp [Task.Quiet]) (Registry.modifyBoth_touched (hsame _))
    · exact .note trivial (by simp [Task.Quiet]) (Registry.modifyBoth_touched (hsame _))
    · exact .note trivial (by simp [Task.Quiet]) (Registry.modifyBoth_touched (hsame _))
    · exact .skip trivial (by simp [Task.Quiet])
  case checkStatus rcs newHash | checkToken =>
    simp only [Task.run]
    split_ifs
    all_goals exact .skip trivial (by simp [Task.Quiet])
  case setStatus rcs | setHealth h json flip =>
    simp only [Task.run]
    split
    case h_1 => exact .skip trivial (by simp)
    case h_2 s' hs =>
      obtain ⟨f, hf, rfl⟩ := Server.store_eq_some hs
      split_ifs
      all_goals exact .write trivial (by simp [Task.Quiet]) (Fleet.updateAgentWith_updated hf) ⟨fun _ => rfl, fun _ => rfl⟩
  case noteStatus status | noteHealth healthy =>
    exact .note trivial (by simp [Task.run]) (Registry.modifyBoth_touched fun _ => ⟨rfl, rfl, rfl, rfl, rfl⟩)
  case health h =>
    simp only [Task.run]
    split
    · exact .skip trivial (by simp)
    · exact .skip trivial (by simp [Task.Quiet])
  case renderConfig =>
    simp only [Task.run]
    split
    case isTrue h => exact .noConfig (.inl h)
    case isFalse haccepts =>
      split
      case h_1 e he => exact .noConfig (.inr (Server.tryRender_eq_error svc x s he))
      case h_2 desired hd => exact .render (not_not.mp haccepts) (Server.tryRender_eq_ok svc x s hd)
  case setAssignedConfig desired =>
    simp only [Task.run]
    obtain ⟨hfail, hs⟩ | ⟨f, hf, hs⟩ := s.tryStore_cases x w.conn (w.agent s).agentID
      (·.setAgentAssignedConfig (w.agent s).agentID (Runtime.sha256 desired))
    · unfold Work.agent at hs
      rw [hs]
      exact .notAssigned (hfail.imp_right Fleet.forall_ne_of_updateAgent)
    · unfold Work.agent at hs
      rw [hs]
      exact .assign (Fleet.updateAgent_updated hf)
  case offerConfig desired =>
    simp only [Task.run]
    split_ifs
    · exact .upToDate
    · exact .offer rfl
  case setAgentToken =>
    simp only [Task.run]
    split
    case h_1 => exact .skip trivial (by simp)
    case h_2 gen hgen =>
      split_ifs
      · exact .skip trivial (by simp)
      · exact .mint Fleet.setAgentToken_updated ⟨fun _ => rfl, fun _ => rfl⟩
  case offerToken gen => exact .offerToken rfl (Registry.modifyBoth_touched fun _ => ⟨rfl, rfl, rfl, rfl, rfl⟩)

end Task

section Call

theorem Call.eq_idle {k : Call} (h : k.isIdle) : k = .idle := by
  cases k
  case idle => rfl
  all_goals cases h

variable [Runtime] (svc : Pipelines.Service) (x : Draw) (s : Server)

def Call.MayStop : Call → Prop
  | idle | connect .. | receive .. | lookup .. | enroll .. | listen => True
  | _ => False

inductive Call.Finds : Call → ConnID → ConnAuth → AgentToServer → Int → Bool → Bool → AgentConn → Server → Prop where
  | known {conn msg auth prev} : s.accepted conn = some auth → s.registry.live? msg.instanceUID = some prev →
      prev.customerID = auth.customerID →
      Call.Finds (.receive conn msg) conn auth msg x.now true (prev.conn ≠ conn) prev s
  | found {conn msg auth now mayEnroll agent} : s.fleet.getAgentByInstanceUID msg.instanceUID = some agent →
      agent.customerID = some auth.customerID →
      Call.Finds (.lookup conn auth msg now mayEnroll) conn auth msg now false true
        (ofAgent conn auth msg.instanceUID agent) s
  | enrolled {conn msg auth now d agent f} : s.fleet.Enrolled f (newAgent x.id auth msg d) agent →
      Call.Finds (.enroll conn auth msg now d) conn auth msg now false true (ofNewAgent conn auth msg agent)
        ({ s with fleet := f }.effect conn agent.id (.enroll auth.tokenID))

inductive Call.Step : Call → Call → Server → Prop where
  | stop {k replies disconnects} : k.MayStop → (∀ r ∈ replies, r.2.remoteConfig = none) →
      Call.Step k .idle { s with sent := s.sent ++ replies, disconnects := disconnects }
  | accept {conn header auth} : s.accepted conn = none → authenticate s.fleet header x.now x.fail = .ok auth →
      Call.Step (.connect conn header) .idle { s with accepted := Function.update s.accepted conn (some auth) }
  | look {conn msg auth} : s.accepted conn = some auth →
      Call.Step (.receive conn msg) (.lookup conn auth msg x.now true) s
  | mismatch {k conn auth msg now known newConn st s' message} :
      Call.Finds x s k conn auth msg now known newConn st s' → auth.mismatches st.agentID →
      Call.Step k .idle (s'.reject conn msg.instanceUID message)
  | start {k conn auth msg now known newConn st s' w} :
      Call.Finds x s k conn auth msg now known newConn st s' → ¬auth.mismatches st.agentID →
      w = newWork conn auth msg now known newConn s'.registry.next →
      Call.Step k (.work w w.tasks) { s' with registry := (s'.registry.new (st.attach conn msg now)).2 }
  | notFound {conn auth msg now d} : Call.Step (.lookup conn auth msg now true) (.enroll conn auth msg now d) s
  | conflict {conn auth msg now d} : Call.Step (.enroll conn auth msg now d) (.lookup conn auth msg now false) s
  | task {w t ts new resp s'} : Task.Step svc x s w t new resp s' →
      Call.Step (.work w (t :: ts)) (.work { w with resp := resp } (new ++ ts)) s'
  | respond {w} : Call.Step (.work w []) .idle (s.deliver w.conn (w.agent s).agentID w.resp)
  | close {conn} : Call.Step (.close conn) .idle { s with registry := (s.registry.removeConn conn).2 }
  | remove {conn st} : (s.registry.removeConn conn).1 = some st →
      Call.Step (.close conn) (.setDisconnected st) { s with registry := (s.registry.removeConn conn).2 }
  | disconnect {st f g events} : s.fleet.Updated f st.agentID g → Keeps g →
      Call.Step (.setDisconnected st) .idle
        ({ s with fleet := f, events := events }.effect st.conn st.agentID .store)
  | notDisconnected {st events} : Call.Step (.setDisconnected st) .idle { s with events := events }
  | commit {customerID pipelines} :
      Call.Step (.commit customerID pipelines) (.notify customerID)
        { s with
          pipelines := Function.update s.pipelines customerID pipelines
          past := Function.update s.past customerID (s.past customerID ++ [pipelines])
          due := customerID :: s.due }
  | notify {customerID} :
      Call.Step (.notify customerID) .idle { s with notifications := s.notifications ++ [customerID] }
  | listen {customerID rest} : s.notifications = customerID :: rest → ¬s.listening →
      Call.Step .listen (.render customerID) { s with notifications := rest, listening := true }
  | noRender {customerID} : x.fail ∨ (∃ e, s.renderEdgeCurrent svc customerID = .error e) →
      Call.Step (.render customerID) .idle { s with due := s.due.filter (· ≠ customerID), listening := false }
  | render {customerID desired} : s.renderEdgeCurrent svc customerID = .ok desired →
      Call.Step (.render customerID) (.snapshot customerID desired) { s with due := s.due.filter (· ≠ customerID) }
  | snapshot {customerID desired} :
      Call.Step (.snapshot customerID desired) (.push customerID desired (s.registry.connsForCustomer customerID)) s
  | pushed {customerID desired} : Call.Step (.push customerID desired []) .idle { s with listening := false }
  | pass {customerID desired st rest} : ¬st.accepts acceptsRemoteConfig →
      Call.Step (.push customerID desired (st :: rest)) (.push customerID desired rest) s
  | assign {customerID desired st rest f} :
      s.fleet.Updated f st.agentID (fun a => { a with assignedConfigHash := Runtime.sha256 desired }) →
      Call.Step (.push customerID desired (st :: rest)) (.send customerID desired st rest)
        ({ s with fleet := f }.effect st.conn st.agentID .store)
  | notAssigned {customerID desired st rest} : (x.fail ∨ ∀ a ∈ s.fleet.agents, a.id ≠ st.agentID) →
      Call.Step (.push customerID desired (st :: rest)) (.send customerID desired st rest) s
  | send {customerID desired st rest} :
      Call.Step (.send customerID desired st rest) (.push customerID desired rest)
        (s.deliver st.conn st.agentID (configPush st desired))
  | notSent {customerID desired st rest} : x.fail →
      Call.Step (.send customerID desired st rest) (.push customerID desired rest) s
  | drain {k r} : s.registry.Touched r → (k = .idle ∨ ∃ seen, k = .touch seen) →
      Call.Step .drain k { s with registry := r }
  | touch {seen} : Call.Step (.touch seen) .idle { s with fleet := s.fleet.touchAgents seen }
  | notTouched {seen} : Call.Step (.touch seen) .idle s

variable {svc x s}

theorem Call.Step.startWork (h : Call.Finds x s k conn auth msg now known newConn st s') :
    Call.Step svc x s k (startWork s' conn auth msg now known newConn st).1
      (startWork s' conn auth msg now known newConn st).2 := by
  unfold Opamp.startWork
  split_ifs with hm
  · exact .mismatch h hm
  · exact .start h hm rfl

theorem Call.Step.reply (hk : k.MayStop) (hresp : resp.remoteConfig = none) :
    Call.Step svc x s k .idle { s with sent := s.sent ++ [(conn, resp)], disconnects := disconnects } :=
  .stop hk (by simpa using hresp)

theorem Call.Step.silent (hk : k.MayStop) : Call.Step svc x s k .idle s := by
  have h : Call.Step svc x s k .idle { s with sent := s.sent ++ [], disconnects := s.disconnects } := .stop hk (by simp)
  rwa [List.append_nil] at h

theorem Call.step_spec (k : Call) : Call.Step svc x s k (k.step svc x s).1 (k.step svc x s).2 := by
  cases k
  case idle => exact .silent trivial
  case connect conn header =>
    simp only [Call.step]
    split_ifs with hconn
    · exact .silent trivial
    · split
      · exact .silent trivial
      case h_2 auth hauth => exact .accept (by simpa using hconn) hauth
  case receive conn msg =>
    simp only [Call.step]
    split
    case h_1 => exact .silent trivial
    case h_2 auth hauth =>
      split_ifs
      · exact .reply trivial rfl
      · split
        case h_1 => exact .look hauth
        case h_2 prev hprev =>
          split_ifs with hcustomer
          · exact .reply trivial rfl
          · exact .startWork (.known hauth hprev (not_not.mp hcustomer))
  case lookup conn auth msg now mayEnroll =>
    simp only [Call.step]
    split
    · exact .reply trivial rfl
    · split
      case h_1 agent hagent =>
        split_ifs with hcustomer
        · exact .reply trivial rfl
        · exact .startWork (.found hagent (not_not.mp hcustomer))
      case h_2 =>
        split
        case h_1 d _ =>
          split_ifs with he
          · exact he ▸ .notFound
          · exact .reply trivial rfl
        case h_2 => exact .reply trivial rfl
  case enroll conn auth msg now d =>
    simp only [Call.step]
    split_ifs
    · exact .reply trivial rfl
    · split
      case h_1 agent f hf => exact .startWork (.enrolled (Fleet.enrollAgent_enrolled hf))
      case h_2 => exact .conflict
      case h_3 => exact .reply trivial rfl
  case work w ts =>
    cases ts
    case nil => exact .respond
    case cons t ts => exact .task (Task.run_step t)
  case close conn =>
    simp only [Call.step]
    split
    case h_1 => exact .close
    case h_2 st hst =>
      split_ifs
      · exact .close
      · exact .remove hst
  case setDisconnected st =>
    simp only [Call.step]
    generalize htime : (if st.lastSeen = 0 then x.now else st.lastSeen) = time
    obtain ⟨-, hs⟩ | ⟨f, hf, hs⟩ := s.tryStore_cases x st.conn st.agentID (·.setAgentConnected st.agentID false time)
    · rw [hs]
      exact .notDisconnected
    · rw [hs]
      exact .disconnect (Fleet.updateAgentWith_updated hf) ⟨fun _ => rfl, fun _ => rfl⟩
  case commit => exact .commit
  case notify => exact .notify
  case listen =>
    simp only [Call.step]
    split
    case h_1 => exact .silent trivial
    case h_2 customerID rest hn =>
      split_ifs with hl
      · exact .silent trivial
      · exact .listen hn hl
  case render customerID =>
    simp only [Call.step]
    split
    case h_1 e he => exact .noRender (Server.tryRender_eq_error svc x s he)
    case h_2 desired hd => exact .render (Server.tryRender_eq_ok svc x s hd)
  case snapshot => exact .snapshot
  case push customerID desired rest =>
    cases rest
    case nil => exact .pushed
    case cons st rest =>
      simp only [Call.step]
      split
      case isTrue h => exact .pass h
      case isFalse h =>
        obtain ⟨hfail, hs⟩ | ⟨f, hf, hs⟩ := s.tryStore_cases x st.conn st.agentID
          (·.setAgentAssignedConfig st.agentID (Runtime.sha256 desired))
        · rw [hs]
          exact .notAssigned (hfail.imp_right Fleet.forall_ne_of_updateAgent)
        · rw [hs]
          exact .assign (Fleet.updateAgent_updated hf)
  case send customerID desired st rest =>
    simp only [Call.step]
    split_ifs with hfail
    · exact .notSent hfail
    · exact .send
  case drain =>
    simp only [Call.step]
    refine .drain Registry.drainDirtySeen_touched ?_
    split_ifs
    · exact .inl rfl
    · exact .inr ⟨_, rfl⟩
  case touch seen =>
    simp only [Call.step]
    split_ifs
    · exact .notTouched
    · exact .touch

end Call

section Extends

structure Server.Extends (s s' : Server) : Prop where
  accepted : ∀ conn auth, s.accepted conn = some auth → s'.accepted conn = some auth
  next : s.registry.next ≤ s'.registry.next
  heap : ∀ ref < s.registry.next, (s.registry.heap ref).Same (s'.registry.heap ref)
  identities : s.fleet.identities ⊆ s'.fleet.identities
  past : ∀ customerID, s.past customerID ⊆ s'.past customerID

variable {s s' s'' : Server}

theorem Server.Extends.trans (h : s.Extends s') (h' : s'.Extends s'') : s.Extends s'' where
  accepted conn auth ha := h'.accepted conn auth (h.accepted conn auth ha)
  next := h.next.trans h'.next
  heap ref href := (h.heap ref href).trans (h'.heap ref (href.trans_le h.next))
  identities := List.Subset.trans h.identities h'.identities
  past customerID := List.Subset.trans (h.past customerID) (h'.past customerID)

theorem Server.Extends.of_same (ha : s'.accepted = s.accepted) (hr : s.registry.Touched s'.registry)
    (hf : s'.fleet.identities = s.fleet.identities) (hp : s'.past = s.past) : s.Extends s' where
  accepted conn auth h := by rwa [ha]
  next := hr.next.ge
  heap ref _ := hr.heap ref
  identities := by rw [hf]; exact List.Subset.refl _
  past customerID := by rw [hp]; exact List.Subset.refl _

theorem Server.Extends.owns (h : s.Extends s') (ho : s.fleet.Owns customerID agentID) :
    s'.fleet.Owns customerID agentID := by
  obtain ⟨uid, hmem⟩ := Fleet.owns_iff.mp ho
  exact Fleet.owns_iff.mpr ⟨uid, h.identities hmem⟩

theorem Server.Extends.row {id : UUID} (h : s.Extends s') (hrow : ∃ a ∈ s.fleet.agents, a.id = id) :
    ∃ a ∈ s'.fleet.agents, a.id = id := by
  obtain ⟨a, ha, hid⟩ := hrow
  obtain ⟨a', ha', hid'⟩ := List.mem_map.mp (h.identities (Fleet.mem_identities ha))
  exact ⟨a', ha', (congrArg (·.1) hid').trans hid⟩

theorem Server.Extends.absent {id : UUID} (h : s.Extends s') (habsent : ∀ a ∈ s'.fleet.agents, a.id ≠ id) :
    ∀ a ∈ s.fleet.agents, a.id ≠ id := by
  intro a ha hid
  obtain ⟨a', ha', hid'⟩ := h.row ⟨a, ha, hid⟩
  exact habsent a' ha' hid'

theorem Server.deliver_eq (s : Server) (conn : ConnID) (agentID : UUID) (resp : ServerToAgent) :
    ∃ effects, s.deliver conn agentID resp = { s with sent := s.sent ++ [(conn, resp)], effects := effects } := by
  unfold Server.deliver
  split
  all_goals exact ⟨_, rfl⟩

@[simp]
theorem Server.fleet_deliver (s : Server) (conn : ConnID) (agentID : UUID) (resp : ServerToAgent) :
    (s.deliver conn agentID resp).fleet = s.fleet := by
  obtain ⟨effects, he⟩ := s.deliver_eq conn agentID resp
  rw [he]

theorem Server.registry_deliver (s : Server) (conn : ConnID) (agentID : UUID) (resp : ServerToAgent) :
    (s.deliver conn agentID resp).registry = s.registry := by
  obtain ⟨effects, he⟩ := s.deliver_eq conn agentID resp
  rw [he]

theorem Server.deliver_extends (s : Server) (conn : ConnID) (agentID : UUID) (resp : ServerToAgent) :
    s.Extends (s.deliver conn agentID resp) := by
  obtain ⟨effects, he⟩ := s.deliver_eq conn agentID resp
  rw [he]
  exact .of_same rfl .refl rfl rfl

theorem Server.new_extends (s : Server) (st : AgentConn) : s.Extends { s with registry := (s.registry.new st).2 } where
  accepted _ _ h := h
  next := Nat.le_succ _
  heap ref href := by
    rw [Registry.heap_new_of_lt st href]
    exact .refl _
  identities := List.Subset.refl _
  past _ := List.Subset.refl _

theorem Server.removeConn_extends (s : Server) (conn : ConnID) :
    s.Extends { s with registry := (s.registry.removeConn conn).2 } where
  accepted _ _ h := h
  next := (Registry.next_removeConn conn).ge
  heap ref _ := by
    rw [Registry.heap_removeConn]
    exact .refl _
  identities := List.Subset.refl _
  past _ := List.Subset.refl _

variable {w : Work}

theorem Call.Finds.identities {known newConn : Bool} (h : Call.Finds x s k conn auth msg now known newConn st s') :
    s'.fleet.identities = s.fleet.identities ∨
      (∀ i ∈ s.fleet.identities, i.1 ≠ x.id ∧ i.2.1 ≠ msg.instanceUID) ∧
        s'.fleet.identities = s.fleet.identities ++ [(x.id, msg.instanceUID, some auth.customerID)] := by
  cases h
  case known | found => exact .inl rfl
  case enrolled d agent f hf =>
    refine .inr ⟨fun i hi => ?_, hf.identities⟩
    obtain ⟨a, ha, rfl⟩ := List.mem_map.mp hi
    exact ⟨hf.newID a ha, hf.newUID a ha⟩

theorem Call.Finds.extends {known newConn : Bool}
    (h : Call.Finds x s k conn auth msg now known newConn st s') : s.Extends s' := by
  have hid : s.fleet.identities ⊆ s'.fleet.identities := by
    obtain hid | ⟨-, hid⟩ := h.identities
    · rw [hid]
      exact List.Subset.refl _
    · rw [hid]
      exact List.subset_append_left _ _
  cases h
  all_goals exact ⟨fun _ _ h => h, Nat.le_refl _, fun _ _ => .refl _, hid, fun _ => List.Subset.refl _⟩

theorem Call.Finds.registry_eq {known newConn : Bool} (h : Call.Finds x s k conn auth msg now known newConn st s') :
    s'.registry = s.registry := by
  cases h
  all_goals rfl

variable [Runtime]

theorem Task.Step.identities (h : Task.Step svc x s w t new resp s') : s'.fleet.identities = s.fleet.identities := by
  cases h
  case skip | note | offerToken | put | noConfig | render | notAssigned | upToDate | offer => rfl
  case write hf hg _ _ | mint hf hg => exact hf.identities hg.identity
  case assign hf => exact hf.identities fun _ => rfl

theorem Call.Step.identities (h : Call.Step svc x s k k' s') :
    s'.fleet.identities = s.fleet.identities ∨
      ∃ uid customerID, (∀ i ∈ s.fleet.identities, i.1 ≠ x.id ∧ i.2.1 ≠ uid) ∧
        s'.fleet.identities = s.fleet.identities ++ [(x.id, uid, some customerID)] := by
  cases h
  case stop | accept | look | notFound | conflict | close | remove | notDisconnected | commit | notify | listen |
      noRender | render | snapshot | pushed | pass | notAssigned | notSent | drain | notTouched =>
    exact .inl rfl
  case mismatch hm hfinds | start hm hw hfinds => exact hfinds.identities.imp_right fun h => ⟨_, _, h⟩
  case task ht => exact .inl ht.identities
  case respond | send => exact .inl (by rw [Server.fleet_deliver])
  case disconnect hf hg => exact .inl (hf.identities hg.identity)
  case assign hf => exact .inl (hf.identities fun _ => rfl)
  case touch => exact .inl Fleet.identities_touchAgents

theorem Call.Step.nodup (hπ : ∀ i j, π i = π j → i.1 = j.1 ∨ i.2.1 = j.2.1) (h : Call.Step svc x s k k' s')
    (hn : (s.fleet.identities.map π).Nodup) : (s'.fleet.identities.map π).Nodup := by
  obtain hid | ⟨uid, customerID, hfresh, hid⟩ := h.identities
  · rwa [hid]
  · rw [hid, List.map_append]
    refine List.Nodup.append hn (List.nodup_singleton _) ?_
    simp only [List.map_cons, List.map_nil, List.disjoint_singleton, List.mem_map]
    rintro ⟨i, hi, heq⟩
    exact (hπ _ _ heq).elim (hfresh i hi).left (hfresh i hi).right

theorem Task.Step.extends (h : Task.Step svc x s w t new resp s') : s.Extends s' := by
  have hid := h.identities
  cases h
  case note hr _ _ | offerToken hr _ => exact .of_same rfl hr hid rfl
  case put => exact ⟨fun _ _ h => h, Nat.le_refl _, fun _ _ => .refl _, List.Subset.refl _, fun _ => List.Subset.refl _⟩
  all_goals exact .of_same rfl .refl hid rfl

theorem Call.Step.extends (h : Call.Step svc x s k k' s') : s.Extends s' := by
  cases h
  case accept conn header auth hconn hauth =>
    refine ⟨fun conn' auth' h => ?_, Nat.le_refl _, fun _ _ => .refl _, List.Subset.refl _, fun _ => List.Subset.refl _⟩
    have hne : conn' ≠ conn := by
      rintro rfl
      simp [hconn] at h
    simpa [Function.update_of_ne hne] using h
  case mismatch hm hfinds => exact hfinds.extends.trans (.of_same rfl .refl rfl rfl)
  case start hm hw hfinds => exact hfinds.extends.trans (Server.new_extends _ _)
  case task ht => exact ht.extends
  case respond | send => exact s.deliver_extends _ _ _
  case close conn | remove conn st hst => exact s.removeConn_extends conn
  case disconnect hf hg => exact .of_same rfl .refl (hf.identities hg.identity) rfl
  case commit customerID pipelines =>
    refine ⟨fun _ _ h => h, Nat.le_refl _, fun _ _ => .refl _, List.Subset.refl _, fun customerID' => ?_⟩
    by_cases hc : customerID' = customerID
    · subst hc
      simp
    · simp [Function.update_of_ne hc]
  case assign hf => exact .of_same rfl .refl (hf.identities fun _ => rfl) rfl
  case drain hr _ => exact .of_same rfl hr rfl rfl
  case touch => exact .of_same rfl .refl Fleet.identities_touchAgents rfl
  case stop | look | notFound | conflict | notDisconnected | notify | listen | noRender | render | snapshot | pushed |
      pass | notAssigned | notSent | notTouched =>
    exact .of_same rfl .refl rfl rfl

def Call.Refers (s : Server) : Call → Prop
  | work w _ => w.st < s.registry.next
  | _ => True

theorem Call.Step.indexed (h : Call.Step svc x s k k' s') (hr : s.registry.Indexed) (hk : k.Refers s) :
    s'.registry.Indexed := by
  cases h
  case mismatch hm hfinds => exact hfinds.registry_eq ▸ hr
  case start hm hw hfinds => exact (hfinds.registry_eq ▸ hr).new _
  case task ht =>
    cases ht
    case note ht _ _ | offerToken ht _ => exact hr.touched ht
    case put => exact hr.put hk
    all_goals exact hr
  case respond => exact s.registry_deliver _ _ _ ▸ hr
  case close conn | remove conn st hst => exact hr.removeConn conn
  case drain ht _ => exact hr.touched ht
  all_goals exact hr

theorem Call.Step.conns {st : AgentConn} (h : Call.Step svc x s k k' s') (hr : s.registry.Indexed) (hst : st ∈ s'.registry.conns) :
    (∃ st₀ ∈ s.registry.conns, st₀.Same st) ∨ ∃ w ts, k = .work w (.put :: ts) ∧ st = w.agent s := by
  obtain ⟨e, he, rfl⟩ := List.mem_map.mp hst
  have hold (he : e ∈ s.registry.byUID) :
      (∃ st₀ ∈ s.registry.conns, st₀.Same (s'.registry.heap e.2)) ∨
        ∃ w ts, k = .work w (.put :: ts) ∧ s'.registry.heap e.2 = w.agent s :=
    .inl ⟨_, List.mem_map_of_mem he, h.extends.heap e.2 (hr e he).left⟩
  cases h
  case mismatch hm hfinds | start hm hw hfinds => exact hold (hfinds.registry_eq ▸ he)
  case task w t ts new resp ht =>
    cases ht
    case note hr _ _ | offerToken hr _ => exact hold (hr.byUID ▸ he)
    case put =>
      obtain rfl | he := List.mem_cons.mp he
      · exact .inr ⟨w, ts, rfl, rfl⟩
      · exact hold (List.mem_of_mem_filter he)
    all_goals exact hold he
  case respond => exact hold (s.registry_deliver _ _ _ ▸ he)
  case close conn | remove conn _ _ => exact hold (Registry.byUID_removeConn_subset conn he)
  case drain hr _ => exact hold (hr.byUID ▸ he)
  all_goals exact hold he

-- What is known about every state stays known if it lasts, and if it is known about each new one.
theorem Call.Step.states {P : Server → AgentConn → Prop}
    (hP : ∀ {s s' st st'}, s.Extends s' → AgentConn.Same st st' → P s st → P s' st') (h : Call.Step svc x s k k' s')
    (hnew : ∀ {conn auth msg now known newConn st s₁}, Call.Finds x s k conn auth msg now known newConn st s₁ →
      ¬auth.mismatches st.agentID → P s₁ (st.attach conn msg now))
    (hold : ∀ ref < s.registry.next, P s (s.registry.heap ref)) :
    ∀ ref < s'.registry.next, P s' (s'.registry.heap ref) := by
  have hext := h.extends
  have hkept : ∀ ref < s.registry.next, P s' (s'.registry.heap ref) :=
    fun ref href => hP hext (hext.heap ref href) (hold ref href)
  have hsame (hn : s'.registry.next = s.registry.next) : ∀ ref < s'.registry.next, P s' (s'.registry.heap ref) :=
    fun ref href => hkept ref (hn ▸ href)
  cases h
  case mismatch hm hfinds => exact hsame (congrArg Registry.next hfinds.registry_eq)
  case start conn auth msg now known newConn st s₁ w hm hw hfinds =>
    intro ref href
    obtain hlt | rfl := Nat.lt_succ_iff_lt_or_eq.mp href
    · exact hkept ref (hfinds.registry_eq ▸ hlt)
    · have hp := hP (s₁.new_extends (st.attach conn msg now)) (.refl _) (hnew hfinds hm)
      simpa only [Registry.heap_new_self] using hp
  case task ht =>
    cases ht
    case note hr _ _ | offerToken hr _ => exact hsame hr.next
    all_goals exact hkept
  case respond => exact hsame (congrArg Registry.next (s.registry_deliver _ _ _))
  case close conn | remove conn st hst => exact hsame (Registry.next_removeConn conn)
  case drain hr _ => exact hsame hr.next
  all_goals exact hkept

end Extends

section Reliable

def Draw.reliable (x : Draw) : Draw :=
  { x with fail := false }

def reliable [Runtime] (svc : Pipelines.Service) : Interleave.System Request Call Server Draw :=
  { handler svc with step := fun x => Call.step svc x.reliable }

end Reliable
end Opamp
