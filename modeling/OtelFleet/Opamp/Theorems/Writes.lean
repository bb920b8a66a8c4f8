import OtelFleet.Opamp.Theorems.Grounded

-- What exactly a step writes to the rows of agents, and what it does to the registry.
namespace Opamp

open Store (UUID Hash Fleet Agent Write)

section Fleet

theorem startWork_fleet : (startWork s conn auth msg now known newConn st).2.fleet = s.fleet := by
  unfold startWork
  split_ifs
  all_goals rfl

variable [Runtime] (x : Draw) (s : Server) (w : Work)

def Task.write? (t : Task) : Option Write :=
  let id := (w.agent s).agentID
  match t with
  | updateDescription d json =>
    let caps := if w.msg.capabilities ≠ 0 then some w.msg.capabilities else none
    some
      { agentID := id
        change := fun a =>
          { a with
            name := d.name
            agentVersion := d.version
            description := some json
            capabilities := caps.orElse fun _ => a.capabilities }
        event := none }
  | setConnected =>
    some
      { agentID := id
        change := fun a => { a with connected := true, lastSeenAt := Fleet.latest a.lastSeenAt w.now }
        event := some (.connected, []) }
  | setAckedConfig hash =>
    some { agentID := id, change := fun a => { a with ackedConfigHash := hash }, event := none }
  | setStatus rcs =>
    some
      { agentID := id
        change := fun a => { a with remoteConfigStatus := rcs.status, remoteConfigError := statusError rcs }
        event := (statusEvent rcs).map fun e => (e, statusDetail rcs) }
  | setEffectiveConfig body =>
    some
      { agentID := id
        change := fun a => { a with reportedConfigYAML := some body, reportedConfigHash := Runtime.sha256 body }
        event := none }
  | setHealth h json flip =>
    some
      { agentID := id
        change := fun a => { a with health := some json, healthy := some h.healthy }
        event := flip.map fun e => (e, []) }
  | setAssignedConfig desired =>
    some { agentID := id, change := fun a => { a with assignedConfigHash := Runtime.sha256 desired }, event := none }
  | setAgentToken =>
    x.token.map fun gen =>
      { agentID := id
        change := fun a =>
          { a with tokenPrefix := some gen.keyPrefix, tokenHash := gen.hash, tokenIssuedAt := some x.now }
        event := none }
  | _ => none

def Call.write? : Call → Option Write
  | work w (t :: _) => t.write? x s w
  | setDisconnected st =>
    let time := if st.lastSeen = 0 then x.now else st.lastSeen
    some
      { agentID := st.agentID
        change := fun a => { a with connected := false, lastSeenAt := Fleet.latest a.lastSeenAt time }
        event := some (.disconnected, []) }
  | push _ desired (st :: _) =>
    if st.accepts acceptsRemoteConfig then
      some
        { agentID := st.agentID
          change := fun a => { a with assignedConfigHash := Runtime.sha256 desired }
          event := none }
    else none
  | _ => none

inductive Call.Stores : Call → Fleet → Prop where
  | same {k} : x.fail ∨ k.write? x s = none → Call.Stores k s.fleet
  | write {k wr} : ¬x.fail → k.write? x s = some wr → Call.Stores k (s.fleet.write wr)
  | enroll {conn auth msg now d agent f} : s.fleet.Enrolled f (newAgent x.id auth msg d) agent →
      f.events = s.fleet.events ++ [⟨x.id, .enrolled, [("token", toString auth.tokenID)]⟩] →
      Call.Stores (.enroll conn auth msg now d) f
  | touch {seen} : Call.Stores (.touch seen) (s.fleet.touchAgents seen)

variable {x s w}

theorem Call.Stores.of_store
    (hk : k.write? x s = some wr) (hop : op s.fleet = s.fleet.updateAgentWith wr.agentID wr.change wr.event)
    (h : s.store x conn wr.agentID op = some s') : Call.Stores x s k s'.fleet := by
  unfold Server.store at h
  split_ifs at h with hfail
  rw [hop] at h
  split at h
  case h_1 => cases h
  case h_2 f hf =>
    cases h
    rw [← Fleet.write_of_ok hf]
    exact .write hfail hk

theorem Call.Stores.of_store_eq_none (hk : k.write? x s = some wr)
    (hop : op s.fleet = s.fleet.updateAgentWith wr.agentID wr.change wr.event)
    (h : s.store x conn wr.agentID op = none) : Call.Stores x s k s.fleet := by
  unfold Server.store at h
  split_ifs at h with hfail
  · exact .same (.inl hfail)
  · rw [hop] at h
    split at h
    case h_1 e he =>
      have hw : Call.Stores x s k (s.fleet.write wr) := .write hfail hk
      rwa [Fleet.write_of_error he] at hw
    case h_2 => cases h

theorem Call.Stores.tryStore
    (hk : k.write? x s = some wr) (hop : op s.fleet = s.fleet.updateAgentWith wr.agentID wr.change wr.event) :
    Call.Stores x s k (s.tryStore x conn wr.agentID op).fleet := by
  unfold Server.tryStore
  cases hs : s.store x conn wr.agentID op
  case none => exact .of_store_eq_none hk hop hs
  case some s' => exact .of_store hk hop hs

theorem Task.run_stores (t : Task) (ts : List Task) : Call.Stores x s (.work w (t :: ts)) (t.run svc x s w).2.2.fleet := by
  have hk (wr : Write) (hw : t.write? x s w = some wr) : Call.write? x s (.work w (t :: ts)) = some wr := hw
  cases t
  case updateDescription d json | setAckedConfig hash | setEffectiveConfig body | setAssignedConfig desired =>
    exact .tryStore (hk _ rfl) Fleet.updateAgent_eq
  case setConnected => exact .tryStore (hk _ rfl) rfl
  case setStatus rcs | setHealth h json flip =>
    simp only [Task.run]
    split
    case h_1 hs => exact .of_store_eq_none (hk _ rfl) rfl hs
    case h_2 s' hs =>
      have hstores : Call.Stores x s _ s'.fleet := .of_store (hk _ rfl) rfl hs
      split_ifs
      all_goals exact hstores
  case setAgentToken =>
    simp only [Task.run]
    split
    case h_1 hgen => exact .same (.inr (by simp [Call.write?, Task.write?, hgen]))
    case h_2 gen hgen =>
      split_ifs with hfail
      · exact .same (.inl hfail)
      · have hw : Call.Stores x s (.work w (.setAgentToken :: ts)) _ :=
          .write hfail (hk _ (by simp only [Task.write?, hgen]; rfl))
        rwa [← Fleet.setAgentToken_eq_write] at hw
  case put | noteStatus | noteHealth | offerToken => exact .same (.inr rfl)
  case remoteConfigStatus | checkStatus | health | renderConfig | offerConfig | checkToken =>
    simp only [Task.run]
    repeat' split
    all_goals exact .same (.inr rfl)

theorem Call.step_stores (k : Call) : Call.Stores x s k (k.step svc x s).2.fleet := by
  have hsame (hk : k.write? x s = none) {f : Fleet} (hf : f = s.fleet) : Call.Stores x s k f := hf ▸ .same (.inr hk)
  have hwrite {wr : Write} (hk : k.write? x s = some wr) {conn : ConnID} {op : Fleet → Except Store.FleetError Fleet}
      (hop : op s.fleet = s.fleet.updateAgentWith wr.agentID wr.change wr.event) :
      Call.Stores x s k (s.tryStore x conn wr.agentID op).fleet := .tryStore hk hop
  cases k
  case work w ts =>
    cases ts
    case nil => exact hsame rfl (s.fleet_deliver _ _ _)
    case cons t ts => exact t.run_stores ts
  case setDisconnected st => exact hwrite rfl rfl
  case push customerID desired rest =>
    cases rest
    case nil => exact hsame rfl rfl
    case cons st rest =>
      simp only [Call.step]
      split
      case isTrue h => exact hsame (by simp [Call.write?, h]) rfl
      case isFalse h => exact hwrite (if_pos (not_not.mp h)) Fleet.updateAgent_eq
  case enroll conn auth msg now d =>
    simp only [Call.step]
    split
    · exact hsame rfl rfl
    · split
      case h_1 agent f hf =>
        rw [startWork_fleet]
        exact .enroll (Fleet.enrollAgent_enrolled hf) (Fleet.enrollAgent_events hf)
      all_goals exact hsame rfl rfl
  case touch seen =>
    simp only [Call.step]
    split_ifs
    · exact hsame rfl rfl
    · exact .touch
  case receive | lookup | send =>
    simp only [Call.step]
    repeat' split
    all_goals exact hsame rfl (by first | rfl | exact startWork_fleet)
  case connect | close | listen | render =>
    simp only [Call.step]
    repeat' split
    all_goals exact hsame rfl rfl
  all_goals exact hsame rfl rfl

theorem Call.Stores.eq_write (h : Call.Stores x s k f) (hwr : k.write? x s = some wr) :
    f = if x.fail then s.fleet else s.fleet.write wr := by
  cases h
  case same h =>
    obtain hfail | hnone := h
    · rw [if_pos hfail]
    · rw [hnone] at hwr
      cases hwr
  case write wr' hfail hwr' =>
    rw [if_neg hfail, Option.some.inj (hwr.symm.trans hwr')]
  case enroll | touch => cases hwr

theorem Task.fleet_run {t : Task} (ht : t.write? x s w = none) : (t.run svc x s w).2.2.fleet = s.fleet := by
  have hstores : Call.Stores x s (.work w [t]) (t.run svc x s w).2.2.fleet := t.run_stores []
  generalize (t.run svc x s w).2.2.fleet = f at hstores
  cases hstores
  case same => rfl
  case write wr hfail hwr =>
    have hnone : Call.write? x s (.work w [t]) = none := ht
    rw [hnone] at hwr
    cases hwr

theorem Call.fleet_step {k : Call} (hwr : k.write? x s = some wr) :
    (k.step svc x s).2.fleet = if x.fail then s.fleet else s.fleet.write wr :=
  (Call.step_stores k).eq_write hwr

theorem Task.agentID_write? {t : Task} (h : t.write? x s w = some wr) : wr.agentID = (w.agent s).agentID := by
  cases t
  case setAgentToken =>
    obtain ⟨gen, -, rfl⟩ := Option.map_eq_some_iff.mp h
    rfl
  all_goals
    simp only [Task.write?, Option.some.injEq, reduceCtorEq] at h
    try
      subst h
      rfl

theorem Task.identity_write? {t : Task} (h : t.write? x s w = some wr) (a : Agent) :
    (wr.change a).identity = a.identity := by
  cases t
  case setAgentToken =>
    obtain ⟨gen, -, rfl⟩ := Option.map_eq_some_iff.mp h
    rfl
  all_goals
    simp only [Task.write?, Option.some.injEq, reduceCtorEq] at h
    try
      subst h
      rfl

theorem Call.identity_write? {k : Call} (h : k.write? x s = some wr) (a : Agent) :
    (wr.change a).identity = a.identity := by
  unfold Call.write? at h
  split at h
  case h_1 => exact Task.identity_write? h a
  case h_2 =>
    cases h
    rfl
  case h_3 =>
    split_ifs at h
    cases h
    rfl
  case h_4 => cases h

theorem Call.Stores.column {α : Type} {π : Agent → α} (h : Call.Stores x s k f)
    (hk : ∀ wr, k.write? x s = some wr → ∀ a, π (wr.change a) = π a)
    (hseen : ∀ a time, π { a with lastSeenAt := time } = π a) :
    f.column π = s.fleet.column π ∨
      ∃ a : Store.NewAgent, ∃ now, (∀ b ∈ s.fleet.agents, b.id ≠ a.id) ∧
        f.column π = s.fleet.column π ++ [(a.id, π (a.row now))] := by
  cases h
  case same => exact .inl rfl
  case write wr hfail hwr => exact .inl (Fleet.column_write (Call.identity_write? hwr) (hk wr hwr))
  case enroll agent hf hevents =>
    obtain ⟨now, rfl⟩ := hf.row
    refine .inr ⟨_, now, hf.newID, ?_⟩
    unfold Fleet.column
    rw [hf.agents, List.map_append]
    rfl
  case touch => exact .inl (Fleet.column_touchAgents hseen)

end Fleet

section Registry

def Task.note? : Task → Option (AgentConn → AgentConn)
  | remoteConfigStatus rcs =>
    if rcs.lastRemoteConfigHash ≠ [] ∨ rcs.status = .unset then
      some fun a => { a with lastAckedHash := rcs.lastRemoteConfigHash }
    else none
  | noteStatus status => some fun a => { a with remoteConfigStatus := status }
  | noteHealth healthy => some fun a => { a with healthy := some healthy }
  | offerToken _ => some fun a => { a with tokenOffered := true }
  | _ => none

def Task.register (w : Work) (r : Registry) (t : Task) : Registry :=
  match t with
  | put => r.put w.st
  | t =>
    match t.note? with
    | some f => r.modifyBoth w.st f
    | none => r

theorem Task.register_cases (w : Work) (r : Registry) (t : Task) :
    t = .put ∧ t.register w r = r.put w.st ∨ (∃ f, t.note? = some f ∧ t.register w r = r.modifyBoth w.st f) ∨
      t ≠ .put ∧ t.note? = none ∧ t.register w r = r := by
  unfold Task.register
  split
  case h_1 => exact .inl ⟨rfl, rfl⟩
  case h_2 hput =>
    split
    case h_1 f hf => exact .inr (.inl ⟨f, hf, rfl⟩)
    case h_2 hnone => exact .inr (.inr ⟨hput, hnone, rfl⟩)

theorem Task.register_of_note? {t : Task} (h : t.note? = some f) : t.register w r = r.modifyBoth w.st f := by
  obtain ⟨rfl, -⟩ | ⟨f', hf, hr⟩ | ⟨-, hnone, -⟩ := t.register_cases w r
  · cases h
  · rw [hr, Option.some.inj (hf.symm.trans h)]
  · rw [hnone] at h
    cases h

theorem Task.same_note? {t : Task} (h : t.note? = some f) (st : AgentConn) : st.Same (f st) := by
  cases t
  case remoteConfigStatus rcs =>
    simp only [Task.note?] at h
    split_ifs at h
    cases h
    exact ⟨rfl, rfl, rfl, rfl, rfl⟩
  case noteStatus | noteHealth | offerToken =>
    cases h
    exact ⟨rfl, rfl, rfl, rfl, rfl⟩
  all_goals cases h

inductive Call.Registers (x : Draw) (s : Server) : Call → Registry → Prop where
  | task {w t ts} : Call.Registers x s (.work w (t :: ts)) (t.register w s.registry)
  | start {k conn auth msg now known newConn st s'} : Call.Finds x s k conn auth msg now known newConn st s' →
      Call.Registers x s k (s.registry.new (st.attach conn msg now)).2
  | close {conn} : Call.Registers x s (.close conn) (s.registry.removeConn conn).2
  | drain : Call.Registers x s .drain s.registry.drainDirtySeen.2
  | same {k} : (∀ w t ts, k ≠ .work w (t :: ts)) → (∀ conn, k ≠ .close conn) → Call.Registers x s k s.registry

variable {s : Server}

theorem Server.registry_tryStore {id : UUID} : (s.tryStore x conn id op).registry = s.registry := by
  obtain ⟨-, h⟩ | ⟨f, -, h⟩ := s.tryStore_cases x conn id op
  all_goals
    rw [h]
    try rfl

variable [Runtime]

theorem Task.registry_run (t : Task) : (t.run svc x s w).2.2.registry = t.register w s.registry := by
  cases t
  case updateDescription | setConnected | setAckedConfig | setEffectiveConfig | setAssignedConfig =>
    exact Server.registry_tryStore
  case remoteConfigStatus rcs =>
    simp only [Task.run, Task.register, Task.note?]
    by_cases hhash : rcs.lastRemoteConfigHash = []
    case pos =>
      by_cases hstatus : rcs.status = .unset
      all_goals simp [hhash, hstatus]
    case neg => simp [hhash]
  case setStatus rcs | setHealth h json flip =>
    simp only [Task.run]
    split
    case h_1 => rfl
    case h_2 s' hs =>
      obtain ⟨f, -, rfl⟩ := Server.store_eq_some hs
      split_ifs
      all_goals rfl
  case put | noteStatus | noteHealth | offerToken => rfl
  case checkStatus | health | renderConfig | offerConfig | checkToken | setAgentToken =>
    simp only [Task.run]
    repeat' split
    all_goals rfl

theorem Call.Step.registers (hs : Call.Step svc x s k k' s')
    (htask : ∀ w t ts, k ≠ .work w (t :: ts)) (hclose : ∀ conn, k ≠ .close conn) (hdrain : k ≠ .drain) :
    Call.Registers x s k s'.registry := by
  have hsame {r : Registry} (hr : r = s.registry) : Call.Registers x s k r := hr ▸ .same htask hclose
  cases hs
  case mismatch hm hfinds => exact hsame hfinds.registry_eq
  case start conn auth msg now known newConn st s₁ w hm hw hfinds =>
    have hstart : Call.Registers x s k (s.registry.new (st.attach conn msg now)).2 := .start hfinds
    rwa [← hfinds.registry_eq] at hstart
  case task => exact absurd rfl (htask _ _ _)
  case respond | send => exact hsame (s.registry_deliver _ _ _)
  case close | remove => exact absurd rfl (hclose _)
  case drain => exact absurd rfl hdrain
  all_goals exact hsame rfl

theorem Call.step_registers (k : Call) : Call.Registers x s k (k.step svc x s).2.registry := by
  have hs : Call.Step svc x s k _ _ := Call.step_spec k
  cases k
  case work w ts =>
    cases ts
    case nil => exact hs.registers (by simp) (by simp) (by simp)
    case cons t ts =>
      have hrun : (t.run svc x s w).2.2.registry = t.register w s.registry := t.registry_run
      exact hrun ▸ .task
  case close conn =>
    simp only [Call.step]
    repeat' split
    all_goals exact .close
  case drain => exact .drain
  all_goals exact hs.registers (by simp) (by simp) (by simp)

end Registry
end Opamp
