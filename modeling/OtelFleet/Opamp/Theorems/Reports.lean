import OtelFleet.Opamp.StatusLog
import OtelFleet.Opamp.Theorems.Topics
import OtelFleet.Opamp.Theorems.Enrollment

-- What is recorded about the statuses and the health that agents report.
namespace Opamp

open Store (UUID Hash Fleet Agent AgentEventType)
open Interleave (System Event Config)

section Webhooks

def Server.failures (s : Server) (id : UUID) : List (List (String × String)) :=
  (s.events.filter fun e => e.agentID = id ∧ e.eventType = .agentConfigFailed).map (·.detail)

variable {s s' : Server} {w : Work} {k : Call} {id : UUID}

theorem Server.failures_append {events : List FleetEvent} (h : s'.events = s.events ++ events) :
    s'.failures id =
      s.failures id ++ (events.filter fun e => e.agentID = id ∧ e.eventType = .agentConfigFailed).map (·.detail) := by
  unfold Server.failures
  rw [h, List.filter_append, List.map_append]

theorem Server.events_tryStore : (s.tryStore x conn id op).events = s.events := by
  obtain ⟨-, h⟩ | ⟨f, -, h⟩ := s.tryStore_cases x conn id op
  all_goals
    rw [h]
    try rfl

theorem Server.events_deliver : (s.deliver conn id resp).events = s.events := by
  obtain ⟨effects, he⟩ := s.deliver_eq conn id resp
  rw [he]

theorem startWork_events : (startWork s conn auth msg now known newConn st).2.events = s.events := by
  unfold startWork
  split_ifs
  all_goals rfl

def Call.Announces (s : Server) (k : Call) (events : List FleetEvent) : Prop :=
  ∀ e ∈ events, e.eventType = .agentConfigFailed → ∃ w rcs ts, k = .work w (.setStatus rcs :: ts) ∧ e.agentID = (w.agent s).agentID

variable [Runtime]

theorem Task.events_run (t : Task) (ts : List Task) :
    ∃ events, (t.run svc x s w).2.2.events = s.events ++ events ∧ Call.Announces s (.work w (t :: ts)) events := by
  have hnone {s' : Server} (h : s'.events = s.events) :
      ∃ events, s'.events = s.events ++ events ∧ Call.Announces s (.work w (t :: ts)) events :=
    ⟨[], by rw [h, List.append_nil], by simp [Call.Announces]⟩
  cases t
  case updateDescription | setConnected | setAckedConfig | setEffectiveConfig | setAssignedConfig =>
    exact hnone Server.events_tryStore
  case setStatus rcs =>
    simp only [Task.run]
    split
    case h_1 => exact hnone rfl
    case h_2 s' hs =>
      obtain ⟨f, -, rfl⟩ := Server.store_eq_some hs
      split_ifs
      · exact ⟨_, rfl, by simp [Call.Announces, Work.agent]⟩
      · exact hnone rfl
  case setHealth h json flip =>
    simp only [Task.run]
    split
    case h_1 => exact hnone rfl
    case h_2 s' hs =>
      obtain ⟨f, -, rfl⟩ := Server.store_eq_some hs
      split_ifs
      · exact ⟨_, rfl, by simp [Call.Announces]⟩
      · exact hnone rfl
  case put | noteStatus | noteHealth | offerToken => exact hnone rfl
  case remoteConfigStatus | checkStatus | health | renderConfig | offerConfig | checkToken | setAgentToken =>
    simp only [Task.run]
    repeat' split
    all_goals exact hnone rfl

theorem Call.events_step (k : Call) : ∃ events, (k.step svc x s).2.events = s.events ++ events ∧ k.Announces s events := by
  have hnone {s' : Server} (h : s'.events = s.events) : ∃ events, s'.events = s.events ++ events ∧ k.Announces s events :=
    ⟨[], by rw [h, List.append_nil], by simp [Call.Announces]⟩
  cases k
  case work w ts =>
    cases ts
    case nil => exact hnone Server.events_deliver
    case cons t ts => exact t.events_run ts
  case setDisconnected st =>
    refine ⟨[⟨.agentOffline, st.agentID, st.customerID, []⟩], ?_, by simp [Call.Announces]⟩
    simp only [Call.step, Server.emit, Server.events_tryStore]
  case push customerID desired rest =>
    cases rest
    case nil => exact hnone rfl
    case cons st rest =>
      simp only [Call.step]
      split
      · exact hnone rfl
      · exact hnone Server.events_tryStore
  case send =>
    simp only [Call.step]
    split_ifs
    · exact hnone rfl
    · exact hnone Server.events_deliver
  case receive | lookup | enroll =>
    simp only [Call.step]
    repeat' split
    all_goals exact hnone (by first | rfl | exact startWork_events)
  case connect | close | listen | render | touch =>
    simp only [Call.step]
    repeat' split
    all_goals exact hnone rfl
  all_goals exact hnone rfl

theorem Call.failures_step (hk : ∀ w rcs ts, k = .work w (.setStatus rcs :: ts) → (w.agent s).agentID ≠ id) :
    (k.step svc x s).2.failures id = s.failures id := by
  obtain ⟨events, hevents, hannounces⟩ : ∃ events, (k.step svc x s).2.events = s.events ++ events ∧ k.Announces s events :=
    Call.events_step k
  rw [Server.failures_append hevents, List.filter_eq_nil_iff.mpr, List.map_nil, List.append_nil]
  intro e he hcond
  simp only [decide_eq_true_eq] at hcond
  obtain ⟨w, rcs, ts, rfl, hid⟩ := hannounces e he hcond.right
  exact hk w rcs ts rfl (hid.symm.trans hcond.left)

end Webhooks

section Status

def isConfigEvent (e : AgentEventType) : Bool :=
  e = .configApplied ∨ e = .configFailed

theorem isConfigEvent_flipEvent (before : Option Bool) (healthy : Bool) :
    (flipEvent before healthy).any isConfigEvent = false := by
  unfold flipEvent
  split_ifs
  all_goals rfl

def Task.aboutStatus : Task → Bool
  | remoteConfigStatus _ | setAckedConfig _ | checkStatus .. | setStatus _ | noteStatus _ => true
  | setHealth _ _ flip => flip.any isConfigEvent
  | _ => false

def Task.isStatus : Task → Bool
  | remoteConfigStatus _ => true
  | _ => false

def statusAttempts (id : UUID) (x : Draw) (s : Server) : Call → List Attempt
  | .work w (.checkStatus rcs newHash :: _) =>
    if (w.agent s).agentID = id ∧ rcs.status = (w.agent s).remoteConfigStatus ∧ ¬(newHash ∧ terminal rcs.status) then
      [{ report := rcs, stored := true }]
    else []
  | .work w (.setStatus rcs :: _) =>
    if (w.agent s).agentID = id then [{ report := rcs, stored := !x.fail }] else []
  | _ => []

theorem stored_statusAttempts {id : UUID} (hx : ¬x.fail) : ∀ a ∈ statusAttempts id x s k, a.stored := by
  unfold statusAttempts
  split
  case h_1 =>
    split_ifs
    all_goals simp
  case h_2 =>
    split_ifs
    · simpa using hx
    · simp
  case h_3 => simp

variable [Runtime]

def statusTopic : Topic Reported where
  state st := (st.remoteConfigStatus, st.lastAckedHash)
  row a := (a.remoteConfigStatus, a.ackedConfigHash)
  initial := (.unset, [])
  isEvent := isConfigEvent
  about := Task.aboutStatus
  isFirst := Task.isStatus
  state_seen _ := rfl
  state_attach _ _ _ _ := rfl
  state_ofAgent _ _ _ _ := rfl
  state_ofNewAgent _ _ _ _ _ := rfl
  row_new _ _ := rfl
  row_seen _ _ := rfl
  row_connected _ _ _ := rfl
  row_assigned _ _ := rfl
  not_enrolled := rfl
  not_disconnected := rfl
  note {t f} ht hf st := by
    cases t
    case noteHealth | offerToken =>
      cases hf
      rfl
    case remoteConfigStatus | noteStatus => cases ht
    all_goals cases hf
  write {x s w t wr} ht hwr := by
    cases t
    case setAgentToken =>
      obtain ⟨gen, -, rfl⟩ := Option.map_eq_some_iff.mp hwr
      exact ⟨fun _ => rfl, by simp⟩
    case setHealth h json flip =>
      cases hwr
      refine ⟨fun _ => rfl, fun e he => ?_⟩
      obtain ⟨e', rfl, rfl⟩ := Option.map_eq_some_iff.mp he
      exact ht
    case updateDescription | setEffectiveConfig | setAssignedConfig | setConnected =>
      cases hwr
      exact ⟨fun _ => rfl, by simp [isConfigEvent]⟩
    case remoteConfigStatus | setAckedConfig | checkStatus | setStatus | noteStatus => cases ht
    all_goals cases hwr
  first {t} ht habout := by
    cases t
    case remoteConfigStatus => rfl
    case updateDescription | put | setConnected | setEffectiveConfig | health | renderConfig | checkToken => cases habout
    all_goals cases ht
  next {t t'} ht h := by
    cases h
    case setHealth => exact isConfigEvent_flipEvent _ _
    all_goals first | rfl | cases ht

variable {s : Server} {k k' : Call} {id : UUID} {b : Bool} {svc : Pipelines.Service}

inductive StatusLog.Handles (l : StatusLog) : Phase Reported → Prop where
  | acking (rcs) : Handles l ⟨[.setAckedConfig (l.acked rcs), .checkStatus rcs (l.isNew rcs)], (l.known.1, l.acked rcs), l.known⟩
  | checking (rcs) : Handles l ⟨[.checkStatus rcs (l.isNew rcs)], (l.known.1, l.acked rcs), (l.known.1, l.acked rcs)⟩
  -- Only what is not a repetition is stored.
  | storing {rcs} : ¬l.isRepeat rcs → Handles l ⟨[.setStatus rcs], (l.known.1, l.acked rcs), (l.known.1, l.acked rcs)⟩
  | noting (before) : Handles l ⟨[.noteStatus l.known.1], (before, l.known.2), l.known⟩

structure Follows (b : Bool) (id : UUID) (l : StatusLog) (s : Server) (k : Call) : Prop where
  reports : statusTopic.Follows b id l.Handles l.known l.events s k
  failures : s.failures id = l.failures

variable {l : StatusLog}

theorem statusAttempts_of_quiet (h : statusTopic.Quiet id s k) : statusAttempts id x s k = [] := by
  unfold statusAttempts
  split
  case h_1 w rcs newHash ts =>
    refine if_neg fun hcond => ?_
    cases h w _ ts rfl hcond.left
  case h_2 w rcs ts =>
    refine if_neg fun hid => ?_
    cases h w _ ts rfl hid
  case h_3 => rfl

variable {rcs : RemoteConfigReport}

theorem Task.run_remoteConfigStatus (svc : Pipelines.Service) (x : Draw) (rcs : RemoteConfigReport)
    (hknown : (w.agent s).lastAckedHash = l.known.2) :
    ∃ p, l.Handles p ∧ p.known = (l.known.1, l.acked rcs) ∧ p.kept = l.known ∧
      ((Task.remoteConfigStatus rcs).run svc x s w).1 = p.tasks ∧
      ((Task.remoteConfigStatus rcs).run svc x s w).2.1 = w.resp := by
  unfold Work.agent at hknown
  simp only [Task.run, hknown]
  by_cases hhash : rcs.lastRemoteConfigHash = []
  case pos =>
    have hnew : l.isNew rcs = false := by simp [StatusLog.isNew, hhash]
    by_cases hunset : rcs.status = .unset
    case pos =>
      have hacked : l.acked rcs = [] := by simp [StatusLog.acked, hunset, hhash]
      exact ⟨_, .acking rcs, rfl, rfl, by simp [hhash, hunset, hnew, hacked], by simp [hhash, hunset]⟩
    case neg =>
      have hacked : l.acked rcs = l.known.2 := by simp [StatusLog.acked, hunset, hhash]
      exact ⟨_, .checking rcs, rfl, by simp [hacked], by simp [hhash, hunset, hnew], by simp [hhash, hunset]⟩
  case neg =>
    have hacked : l.acked rcs = rcs.lastRemoteConfigHash := if_pos (.inl hhash)
    by_cases hsame : rcs.lastRemoteConfigHash = l.known.2
    case pos =>
      have hnew : l.isNew rcs = false := by simp [StatusLog.isNew, hsame]
      rw [hsame] at hacked hhash
      exact ⟨_, .checking rcs, rfl, by simp [hacked], by simp [hsame, hnew, hhash], by simp [hsame, hhash]⟩
    case neg =>
      have hnew : l.isNew rcs = true := by simp [StatusLog.isNew, hsame, hhash]
      exact ⟨_, .acking rcs, rfl, rfl, by simp [hsame, hnew, hacked, hhash], by simp [hhash]⟩

theorem Remembers.remoteConfigStatus (h : Remembers statusTopic.state s (.work w (.remoteConfigStatus rcs :: ts)) id l.known)
    (hG : s.Grounded) (hk : w.st < s.registry.next) (hid : (w.agent s).agentID = id) :
    Remembers statusTopic.state ((Call.work w (.remoteConfigStatus rcs :: ts)).step svc x s).2
      ((Call.work w (.remoteConfigStatus rcs :: ts)).step svc x s).1 id (l.known.1, l.acked rcs) := by
  by_cases hhash : rcs.lastRemoteConfigHash ≠ [] ∨ rcs.status = .unset
  case pos =>
    rw [show l.acked rcs = rcs.lastRemoteConfigHash from if_pos hhash]
    exact h.note hG hk (if_pos hhash) hid (fun v => (v.1, rcs.lastRemoteConfigHash)) (fun _ => rfl) rfl
  case neg =>
    rw [show l.acked rcs = l.known.2 from if_neg hhash]
    exact h.task hG hk statusTopic.state_seen (if_neg hhash)

theorem Task.failures_run {t : Task} (ht : ∀ rcs, t ≠ .setStatus rcs) : (t.run svc x s w).2.2.failures id = s.failures id := by
  have hk : ∀ w' rcs ts, Call.work w [t] = .work w' (.setStatus rcs :: ts) → (w'.agent s).agentID ≠ id := by
    rintro w' rcs ts hw
    cases hw
    exact absurd rfl (ht rcs)
  exact Call.failures_step hk

theorem Follows.step_report (h : statusTopic.At b id l.known l.known l.events s (.work w (.remoteConfigStatus rcs :: ts)))
    (hlog : s.failures id = l.failures) (hcalm : statusTopic.Calm ts) (hG : s.Grounded)
    (hk : (Call.work w (.remoteConfigStatus rcs :: ts)).Placed b s 0) (hid : (w.agent s).agentID = id) :
    Follows b id l ((Call.work w (.remoteConfigStatus rcs :: ts)).step svc x s).2
      ((Call.work w (.remoteConfigStatus rcs :: ts)).step svc x s).1 := by
  have hknown : (w.agent s).lastAckedHash = l.known.2 := congrArg (·.2) (h.state_eq hid)
  have hfleet : ((Task.remoteConfigStatus rcs).run svc x s w).2.2.fleet = s.fleet := Task.fleet_run rfl
  have hfailures : ((Task.remoteConfigStatus rcs).run svc x s w).2.2.failures id = s.failures id :=
    Task.failures_run (by simp)
  obtain ⟨p, hp, hknown', hkept, htasks, hresp⟩ := Task.run_remoteConfigStatus svc x rcs hknown
  refine ⟨.of_task hG hk hid hcalm (by rintro ⟨⟩) (.inl hp) (by rw [htasks]) hresp (by rw [hfleet]; exact h.stored.events)
    (fun hb => ?_) ?_, hfailures.trans hlog⟩
  · rw [hfleet, hkept]
    exact h.stored.row hb
  · rw [hknown']
    exact h.remembers.remoteConfigStatus hG hk.knows hid

theorem Follows.step_acking (h : statusTopic.At b id (l.known.1, l.acked rcs) l.known l.events s
      (.work w (.setAckedConfig (l.acked rcs) :: .checkStatus rcs (l.isNew rcs) :: ts)))
    (hlog : s.failures id = l.failures) (hcalm : statusTopic.Calm ts) (hG : s.Grounded)
    (hk : (Call.work w (.setAckedConfig (l.acked rcs) :: .checkStatus rcs (l.isNew rcs) :: ts)).Placed b s 0)
    (hid : (w.agent s).agentID = id) (hx : b → ¬x.fail) :
    Follows b id l ((Call.work w (.setAckedConfig (l.acked rcs) :: .checkStatus rcs (l.isNew rcs) :: ts)).step svc x s).2
      ((Call.work w (.setAckedConfig (l.acked rcs) :: .checkStatus rcs (l.isNew rcs) :: ts)).step svc x s).1 := by
  have hfailures : ((Task.setAckedConfig (l.acked rcs)).run svc x s w).2.2.failures id = s.failures id :=
    Task.failures_run (by simp)
  have hstores : Call.Stores x s (.work w [.setAckedConfig (l.acked rcs)])
      ((Task.setAckedConfig (l.acked rcs)).run svc x s w).2.2.fleet := Task.run_stores _ _
  have hevents : ((Task.setAckedConfig (l.acked rcs)).run svc x s w).2.2.fleet.eventsOf isConfigEvent id =
      s.fleet.eventsOf isConfigEvent id := by
    refine hstores.eventsOf rfl ?_
    rintro wr hwr - e he
    cases hwr
    cases he
  refine ⟨.of_task hG hk hid hcalm (by rintro ⟨⟩) (.inl (.checking rcs)) rfl rfl (hevents.trans h.stored.events) (fun hb => ?_)
    (h.remembers.task hG hk.knows statusTopic.state_seen rfl), hfailures.trans hlog⟩
  -- The row is written.
  rw [hstores.eq_write rfl, if_neg (hx hb), says_iff]
  intro v hv
  obtain ⟨a, ha, hida, rfl⟩ := (Fleet.mem_column_write fun _ => rfl).mp hv
  have hsaid := h.stored.row hb a ha hida
  rw [if_pos hid.symm]
  exact Prod.ext (congrArg (·.1) hsaid) rfl

theorem Follows.step_checking (h : statusTopic.At b id (l.known.1, l.acked rcs) (l.known.1, l.acked rcs) l.events s
      (.work w (.checkStatus rcs (l.isNew rcs) :: ts)))
    (hlog : s.failures id = l.failures) (hcalm : statusTopic.Calm ts) (hid : (w.agent s).agentID = id) :
    Follows b id (l.handleAll (statusAttempts id x s (.work w (.checkStatus rcs (l.isNew rcs) :: ts))))
      ((Call.work w (.checkStatus rcs (l.isNew rcs) :: ts)).step svc x s).2
      ((Call.work w (.checkStatus rcs (l.isNew rcs) :: ts)).step svc x s).1 := by
  have hstatus : (w.agent s).remoteConfigStatus = l.known.1 := congrArg (·.1) (h.state_eq hid)
  have hremembers {ts' : List Task} : Remembers statusTopic.state s (.work w ts') id (l.known.1, l.acked rcs) := by
    rintro ref ⟨href, hheld⟩
    refine h.remembers ref ⟨href, hheld.imp_right ?_⟩
    rintro ⟨w', ts'', hw, rfl⟩
    cases hw
    exact ⟨w, _, rfl, rfl⟩
  unfold Work.agent at hstatus
  by_cases hrepeat : l.isRepeat rcs
  case pos =>
    have hcond := StatusLog.isRepeat_iff.mp hrepeat
    have hattempts : statusAttempts id x s (.work w (.checkStatus rcs (l.isNew rcs) :: ts)) =
        [{ report := rcs, stored := true }] :=
      if_pos ⟨hid, hcond.left.trans hstatus.symm, hcond.right⟩
    rw [hattempts]
    simp only [Call.step, Task.run, hstatus, if_pos hcond]
    rw [show l.handleAll [_] = l.handle _ from rfl, StatusLog.handle_of_skip (.inl hrepeat)]
    refine ⟨.settled ?_ ⟨⟨h.stored.events, h.stored.row, h.stored.load, h.stored.absent⟩, hremembers⟩, hlog⟩
    rintro w' ts' hw -
    cases hw
    exact hcalm
  case neg =>
    have hcond := fun hcond => hrepeat (StatusLog.isRepeat_iff.mpr hcond)
    have hattempts : statusAttempts id x s (.work w (.checkStatus rcs (l.isNew rcs) :: ts)) = [] :=
      if_neg fun h => hcond ⟨h.right.left.trans hstatus, h.right.right⟩
    rw [hattempts]
    simp only [Call.step, Task.run, hstatus, if_neg hcond]
    have hp : l.Handles ⟨[.setStatus rcs], _, _⟩ := .storing hrepeat
    exact ⟨.busy hp hid hcalm ⟨h.stored, hremembers⟩, hlog⟩

theorem Follows.step_noting
    (h : statusTopic.At b id (before, l.known.2) l.known l.events s (.work w (.noteStatus l.known.1 :: ts)))
    (hlog : s.failures id = l.failures) (hcalm : statusTopic.Calm ts) (hG : s.Grounded)
    (hk : (Call.work w (.noteStatus l.known.1 :: ts)).Placed b s 0) (hid : (w.agent s).agentID = id) :
    Follows b id l ((Call.work w (.noteStatus l.known.1 :: ts)).step svc x s).2
      ((Call.work w (.noteStatus l.known.1 :: ts)).step svc x s).1 := by
  refine ⟨.of_task hG hk hid hcalm (by rintro ⟨⟩) (.inr rfl) rfl rfl h.stored.events h.stored.row ?_, hlog⟩
  exact h.remembers.note hG hk.knows rfl hid (fun v => (l.known.1, v.2)) (fun _ => rfl) rfl

theorem Task.run_setStatus (svc : Pipelines.Service) (x : Draw) (rcs : RemoteConfigReport) (hrow : ∃ a ∈ s.fleet.agents, a.id = (w.agent s).agentID) :
    (Task.setStatus rcs).run svc x s w = ([], w.resp, s) ∧ x.fail ∨
      ((Task.setStatus rcs).run svc x s w).1 = [.noteStatus rcs.status] ∧
        ((Task.setStatus rcs).run svc x s w).2.1 = w.resp ∧
        ((Task.setStatus rcs).run svc x s w).2.2.failures (w.agent s).agentID =
          s.failures (w.agent s).agentID ++ (StatusLog.failure? rcs).toList ∧ ¬x.fail := by
  obtain ⟨f, hf⟩ : ∃ f, s.fleet.setAgentRemoteConfigStatus (w.agent s).agentID rcs.status (statusError rcs)
    ((statusEvent rcs).map fun e => (e, statusDetail rcs)) = .ok f := Fleet.updateAgentWith_of_mem hrow
  unfold Work.agent at hf
  by_cases hfail : x.fail
  case pos => exact .inl ⟨by simp [Task.run, Server.store, hfail], hfail⟩
  case neg =>
    refine .inr ⟨by simp [Task.run, Server.store, hfail, hf], by simp [Task.run, Server.store, hfail, hf], ?_, hfail⟩
    simp only [Task.run, Server.store, hfail, hf]
    by_cases hstatus : rcs.status = .failed
    · simp [hstatus, StatusLog.failure?_eq, Server.failures, Server.emit, Server.effect, Work.agent]
    · simp [hstatus, StatusLog.failure?_eq, Server.failures, Server.effect]

theorem Follows.step_storing
    (h : statusTopic.At b id (l.known.1, l.acked rcs) (l.known.1, l.acked rcs) l.events s (.work w (.setStatus rcs :: ts)))
    (hrepeat : ¬l.isRepeat rcs) (hlog : s.failures id = l.failures) (hcalm : statusTopic.Calm ts) (hG : s.Grounded)
    (hk : (Call.work w (.setStatus rcs :: ts)).Placed b s 0) (hid : (w.agent s).agentID = id) :
    Follows b id (l.handleAll (statusAttempts id x s (.work w (.setStatus rcs :: ts))))
      ((Call.work w (.setStatus rcs :: ts)).step svc x s).2 ((Call.work w (.setStatus rcs :: ts)).step svc x s).1 := by
  have hattempts : statusAttempts id x s (.work w (.setStatus rcs :: ts)) = [{ report := rcs, stored := !x.fail }] :=
    if_pos hid
  have hstores : Call.Stores x s (.work w [.setStatus rcs]) ((Task.setStatus rcs).run svc x s w).2.2.fleet :=
    Task.run_stores _ _
  have hrow := (hG.states w.st hk.knows).row
  rw [hattempts, show l.handleAll [_] = l.handle _ from rfl]
  obtain ⟨hrun, hfail⟩ | ⟨hnew, hresp, hfailures, hfail⟩ := Task.run_setStatus svc x rcs hrow
  · rw [StatusLog.handle_of_skip (.inr (by simp [hfail]))]
    refine ⟨.of_task hG hk hid hcalm (by rintro ⟨⟩) (.inr rfl) (by rw [hrun]) (by rw [hrun])
      (by rw [hrun]; exact h.stored.events) (fun hb => by rw [hrun]; exact h.stored.row hb)
      (h.remembers.task hG hk.knows statusTopic.state_seen rfl), ?_⟩
    simp only [Call.step, hrun]
    exact hlog
  · rw [StatusLog.handle_of_stored hrepeat (by simp [hfail])]
    have hfleet := hstores.eq_write rfl
    rw [if_neg hfail] at hfleet
    refine ⟨.of_task hG hk hid hcalm (by rintro ⟨⟩) (.inl (.noting l.known.1)) (by rw [hnew]) hresp ?_ (fun hb => ?_)
      (h.remembers.task hG hk.knows statusTopic.state_seen rfl), by rw [← hid, ← hlog, ← hid]; exact hfailures⟩
    · have hevents : s.fleet.eventsOf isConfigEvent (w.agent s).agentID = l.events := by
        rw [hid]
        exact h.stored.events
      rw [hfleet, ← hid]
      refine (Fleet.eventsOf_write hrow).trans (congrArg₂ (· ++ ·) hevents ?_)
      cases hstatus : rcs.status
      all_goals simp [StatusLog.event?_eq, statusEvent, hstatus, statusTopic, isConfigEvent, Option.filter]
    · rw [hfleet, says_iff]
      intro v hv
      obtain ⟨a, ha, hida, rfl⟩ := (Fleet.mem_column_write fun _ => rfl).mp hv
      have hsaid := h.stored.row hb a ha hida
      rw [if_pos hid.symm]
      exact Prod.ext rfl (congrArg (·.2) hsaid)

theorem Follows.step (h : Follows b id l s k) (hG : s.Grounded) (hk : k.Placed b s 0) (hx : b → ¬x.fail) :
    Follows b id (l.handleAll (statusAttempts id x s k)) (k.step svc x s).2 (k.step svc x s).1 := by
  obtain ⟨hquiet, hcalm, hat⟩ | ⟨w, t, ts, rfl, ht, hid, hcalm, hat⟩ | ⟨w, ts, p, rfl, hp, hid, hcalm, hat⟩ := h.reports.cases
  · rw [statusAttempts_of_quiet hquiet]
    refine ⟨.of_quiet hquiet hcalm hat hG hk, (Call.failures_step ?_).trans h.failures⟩
    rintro w rcs ts rfl hid
    cases hquiet w _ ts rfl hid
  · cases t
    case remoteConfigStatus rcs => exact step_report hat h.failures hcalm hG hk hid
    all_goals cases ht
  · cases hp
    case acking rcs => exact step_acking hat h.failures hcalm hG hk hid hx
    case checking rcs => exact step_checking hat h.failures hcalm hid
    case storing rcs hrepeat => exact step_storing hat hrepeat h.failures hcalm hG hk hid
    case noting before => exact step_noting hat h.failures hcalm hG hk hid

def Server.statusLog (s : Server) (id : UUID) : StatusLog where
  known := statusTopic.recalled s id
  events := s.fleet.eventsOf isConfigEvent id
  failures := s.failures id

theorem follows_run (svc : Pipelines.Service) (id : UUID) (hc : Arranged b c) (hidle : (c.calls 0).isIdle)
    (hnot : b → ¬Registered c.shared id) (hD : ∀ x, D x → b → ¬x.fail) (hevents : ∀ e ∈ events, Orderly b D e) :
    Follows b id ((c.shared.statusLog id).handleAll ((handler svc).trace (statusAttempts id) c events))
      ((handler svc).run c events).shared (((handler svc).run c events).calls 0) := by
  have hok := System.meets_true (S := handler svc) c events
  refine (hc.run (I := Follows b id) ?_ ?_ ?_ ?_ ?_ hevents hok).right
  · exact fun l s r h => ⟨h.reports.begin r, h.failures⟩
  · exact fun l x s k h hG hk hx _ => h.step hG hk (hD x hx)
  · intro l x s k k' h hG hk i hi hk'
    refine ⟨h.reports.aside hG hk.knows hk'.knows (hk'.aside hi) hk'.stays, (Call.failures_step ?_).trans h.failures⟩
    rintro w rcs ts rfl
    exact absurd rfl (hk'.aside hi)
  · intro x s k hk
    exact statusAttempts_of_quiet (Topic.Quiet.of_not_isMessage hk)
  · exact ⟨.init hc.grounded hidle hnot, rfl⟩

variable {publicEndpoint : String} {fleet : Fleet} {pipelines : UUID → List Store.ActivePipeline}

theorem stored_of_reliable (svc : Pipelines.Service) (id : UUID) {c : Config Call Server} (hc : Arranged true c)
    (hevents : ∀ e ∈ events, Orderly true (¬·.fail) e) :
    ∀ a ∈ (handler svc).trace (statusAttempts id) c events, a.stored := by
  let J (shows : List Attempt) (c : Config Call Server) : Prop := Arranged true c ∧ ∀ a ∈ shows, a.stored
  have hinit : J [] c := ⟨hc, by simp⟩
  have hok := System.meets_true (S := handler svc) c events
  suffices hact : ∀ shows c e, J shows c → Orderly true (¬·.fail) e → System.Allows (fun _ _ => True) c e →
      J (shows ++ System.shown (statusAttempts id) c e) ((handler svc).act c e) from
    (System.run_traced hinit hact hevents hok).right
  rintro shows c e ⟨hc, hshows⟩ he -
  refine ⟨hc.act he, List.forall_mem_append.mpr ⟨hshows, ?_⟩⟩
  cases e
  case start => simp [System.shown]
  case run i x =>
    by_cases hi : i = 0
    · exact stored_statusAttempts (he hi)
    · rw [System.shown, statusAttempts_of_quiet (Topic.Quiet.of_not_isMessage ((hc.placed i).aside hi))]
      simp

section Messages

def Task.report? : Task → Option RemoteConfigReport
  | remoteConfigStatus rcs | checkStatus rcs _ | setStatus rcs => some rcs
  | _ => none

-- The reports that a call has still to handle.
def Call.reports : Call → List RemoteConfigReport
  | receive _ msg | lookup _ _ msg _ _ | enroll _ _ msg _ _ => msg.remoteConfigStatus.toList
  | work _ ts => ts.filterMap Task.report?
  | _ => []

-- The report that a message comes with.
def sent : Event Request Draw → List RemoteConfigReport
  | .start _ r => r.begin.reports
  | .run _ _ => []

omit [Runtime] in
theorem Work.filterMap_tasks (w : Work) : w.tasks.filterMap Task.report? = w.msg.remoteConfigStatus.toList := by
  simp only [Work.tasks, List.filterMap_append]
  cases w.msg.remoteConfigStatus
  all_goals
    dsimp only
    repeat' split
    all_goals rfl

omit [Runtime] in
theorem startWork_reports : (startWork s conn auth msg now known newConn st).1.reports.Sublist msg.remoteConfigStatus.toList := by
  unfold startWork
  split_ifs
  · exact List.nil_sublist _
  · rw [Call.reports, Work.filterMap_tasks]
    exact .refl _

omit [Runtime] in
theorem Call.reports_of_not_isMessage (h : ¬k.isMessage) : k.reports = [] := by
  cases k
  case receive | lookup | enroll | work => exact absurd rfl h
  all_goals rfl

theorem Task.reports_run (t : Task) (ts : List Task) :
    ((statusAttempts id x s (.work w (t :: ts))).map (·.report) ++ (t.run svc x s w).1.filterMap Task.report?).Sublist
      t.report?.toList := by
  have hnone (h : ∀ t', t.Leads t' → t'.report? = none) : (t.run svc x s w).1.filterMap Task.report? = [] :=
    List.filterMap_eq_nil_iff.mpr fun t' ht' => h t' (Task.leads_of_mem_run ht')
  cases t
  case remoteConfigStatus rcs =>
    simp only [statusAttempts, Task.run]
    split_ifs
    all_goals exact .refl _
  case checkStatus rcs newHash =>
    by_cases hskip : rcs.status = (w.agent s).remoteConfigStatus ∧ ¬(newHash ∧ terminal rcs.status)
    · rw [Work.agent] at hskip
      simp only [statusAttempts, Task.run, if_pos hskip]
      split_ifs
      · exact .refl _
      · exact List.nil_sublist _
    · rw [statusAttempts, if_neg fun h => hskip h.right]
      rw [Work.agent] at hskip
      simp only [Task.run, if_neg hskip]
      exact .refl _
  case setStatus rcs =>
    rw [hnone fun t' h => by cases h; rfl, statusAttempts]
    split_ifs
    all_goals simp [Task.report?]
  all_goals
    rw [hnone fun t' h => by cases h <;> rfl]
    exact List.nil_sublist _

theorem Call.reports_step (id : UUID) (k : Call) :
    ((statusAttempts id x s k).map (·.report) ++ (k.step svc x s).1.reports).Sublist k.reports := by
  cases k
  case receive | lookup | enroll =>
    simp only [statusAttempts, List.map_nil, List.nil_append, Call.step]
    repeat' split
    all_goals first | exact startWork_reports | exact .refl _ | exact List.nil_sublist _
  case work w ts =>
    cases ts
    case nil => exact List.nil_sublist _
    case cons t ts =>
      simp only [Call.step, Call.reports, List.filterMap_append]
      rw [← List.append_assoc]
      refine ((Task.reports_run t ts).append_right _).trans ?_
      cases ht : t.report? <;> simp [ht]
  all_goals
    rw [Call.reports_of_not_isMessage (Call.isMessage_step (by simp [Call.isMessage]))]
    exact List.nil_sublist _

-- What is handled has been sent, in this order.
theorem reports_sublist_sent {c : Config Call Server} (id : UUID) (hc : Arranged b c)
    (hevents : ∀ e ∈ events, Orderly b D e) :
    (((handler svc).trace (statusAttempts id) c events).map (·.report)).Sublist
      ((c.calls 0).reports ++ events.flatMap sent) := by
  induction events generalizing c
  case nil => exact List.nil_sublist _
  case cons e events hi =>
    obtain ⟨he, htail⟩ := List.forall_mem_cons.mp hevents
    have hrest : (((handler svc).trace (statusAttempts id) ((handler svc).act c e) events).map (·.report)).Sublist _ :=
      hi (hc.act he) htail
    have hskip := (List.sublist_append_right (sent e) (events.flatMap sent)).append_left (c.calls 0).reports
    rw [System.trace, List.map_append, List.flatMap_cons]
    cases e
    case start i r =>
      refine .trans hrest ?_
      simp only [System.act]
      split_ifs with hidle
      · by_cases h0 : i = 0
        · subst h0
          simp only [Function.update_self, Call.eq_idle hidle]
          exact .refl _
        · simp only [Function.update_of_ne (Ne.symm h0)]
          exact hskip
      · exact hskip
    case run i x =>
      by_cases h0 : i = 0
      · subst h0
        rw [System.calls_act_self] at hrest
        refine (hrest.append_left _).trans ?_
        rw [← List.append_assoc]
        exact (Call.reports_step id (c.calls 0)).append_right _
      · rw [System.calls_act_of_ne (Ne.symm h0)] at hrest
        rw [System.shown, statusAttempts_of_quiet (Topic.Quiet.of_not_isMessage ((hc.placed i).aside h0))]
        exact hrest

end Messages

def reportedBefore (fleet : Fleet) (id : UUID) : Reported :=
  match fleet.agents.find? (·.id = id) with
  | none => (.unset, [])
  | some a => (a.remoteConfigStatus, a.ackedConfigHash)

end Status

section Sample

def reportMessage (status : Store.RemoteConfigStatus) (hash : Hash) : AgentToServer :=
  { sampleMessage [1] 0 with
    agentDescription := none
    remoteConfigStatus := some { status := status, lastRemoteConfigHash := hash, errorMessage := "" } }

def reportOf (status : Store.RemoteConfigStatus) (hash : Hash) : List (Event Request Draw) :=
  callOf 0 (.message 1 (reportMessage status hash)) 9 0

def reportsRun : List (Event Request Draw) :=
  oneAgent ++ reportOf .applied [65] ++ callOf 0 (.close 1) 2 0 ++ reportOf .applied [65] ++ reportOf .failed [66]

end Sample
end Opamp
