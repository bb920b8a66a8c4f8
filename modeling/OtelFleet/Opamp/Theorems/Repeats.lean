import OtelFleet.Opamp.Theorems.Reports

-- What is recorded about reports that are repeated because the store fails.
namespace Opamp

open Store (UUID Fleet AgentEventType)
open Interleave (System Event Config)

section Health

def isHealthEvent (e : AgentEventType) : Bool :=
  e = .healthy ∨ e = .unhealthy

def Task.aboutHealth : Task → Bool
  | health _ | setHealth .. | noteHealth _ => true
  | _ => false

def Task.isHealth : Task → Bool
  | health _ => true
  | _ => false

def healthAttempts (id : UUID) (x : Draw) (s : Server) : Call → List HealthAttempt
  | .work w (.setHealth h _ _ :: _) =>
    if (w.agent s).agentID = id then [{ healthy := h.healthy, stored := !x.fail }] else []
  | _ => []

theorem Task.healthy_note? {t : Task} (ht : t.aboutHealth = false) (hf : t.note? = some f) (st : AgentConn) :
    (f st).healthy = st.healthy := by
  cases t
  case remoteConfigStatus rcs =>
    simp only [Task.note?] at hf
    split_ifs at hf
    cases hf
    rfl
  case noteStatus | offerToken =>
    cases hf
    rfl
  case noteHealth => cases ht
  all_goals cases hf

theorem Task.isHealth_of_isInitial {t : Task} (ht : t.isInitial) (habout : t.aboutHealth) : t.isHealth := by
  cases t
  case health => rfl
  case setHealth | noteHealth => cases ht
  all_goals cases habout

variable [Runtime]

theorem Task.healthy_write? {t : Task} (ht : t.aboutHealth = false) (hwr : t.write? x s w = some wr) :
    (∀ a, (wr.change a).healthy = a.healthy) ∧ ∀ e, wr.event = some e → isHealthEvent e.1 = false := by
  cases t
  case setAgentToken =>
    obtain ⟨gen, -, rfl⟩ := Option.map_eq_some_iff.mp hwr
    exact ⟨fun _ => rfl, by simp⟩
  case setStatus rcs =>
    cases hwr
    refine ⟨fun _ => rfl, fun e he => ?_⟩
    obtain ⟨e', he', rfl⟩ := Option.map_eq_some_iff.mp he
    unfold statusEvent at he'
    split at he' <;> cases he' <;> rfl
  case updateDescription | setEffectiveConfig | setAssignedConfig | setConnected | setAckedConfig =>
    cases hwr
    exact ⟨fun _ => rfl, by simp [isHealthEvent]⟩
  case setHealth => cases ht
  all_goals cases hwr

def healthTopic : Topic (Option Bool) where
  state st := st.healthy
  row a := a.healthy
  initial := none
  isEvent := isHealthEvent
  about := Task.aboutHealth
  isFirst := Task.isHealth
  state_seen _ := rfl
  state_attach _ _ _ _ := rfl
  state_ofAgent _ _ _ _ := rfl
  state_ofNewAgent _ _ _ _ _ := rfl
  row_new _ _ := rfl
  row_seen _ _ := rfl
  row_connected _ _ _ := rfl
  row_assigned _ _ := rfl
  not_enrolled := rfl
  not_disconnected := rfl
  note := Task.healthy_note?
  write := Task.healthy_write?
  first := Task.isHealth_of_isInitial
  next ht h := by cases h <;> first | rfl | cases ht

variable {s : Server} {id : UUID} {l : HealthLog} {h : ComponentHealth}

inductive HealthLog.Handles (l : HealthLog) : Phase (Option Bool) → Prop where
  | storing (h json) : Handles l ⟨[.setHealth h json (flipEvent l.known h.healthy)], l.known, l.known⟩
  | noting {healthy} (before) : l.known = some healthy → Handles l ⟨[.noteHealth healthy], before, l.known⟩

theorem healthAttempts_of_quiet (h : healthTopic.Quiet id s k) : healthAttempts id x s k = [] := by
  unfold healthAttempts
  split
  case h_1 w h' json flip ts =>
    refine if_neg fun hid => ?_
    cases h w _ ts rfl hid
  case h_2 => rfl

theorem Topic.Follows.step_health
    (hat : healthTopic.At b id l.known l.known l.events s (.work w (.health h :: ts))) (hcalm : healthTopic.Calm ts)
    (hG : s.Grounded) (hk : (Call.work w (.health h :: ts)).Placed b s 0) (hid : (w.agent s).agentID = id) :
    healthTopic.Follows b id l.Handles l.known l.events ((Call.work w (.health h :: ts)).step svc x s).2
      ((Call.work w (.health h :: ts)).step svc x s).1 := by
  have hfleet : ((Task.health h).run svc x s w).2.2.fleet = s.fleet := Task.fleet_run rfl
  have hstate : (s.registry.heap w.st).healthy = l.known := hat.state_eq hid
  obtain ⟨p, hp, hknown, hkept, htasks, hresp⟩ : ∃ p, (l.Handles p ∨ p = ⟨[], l.known, l.known⟩) ∧ p.known = l.known ∧
      p.kept = l.known ∧ ((Task.health h).run svc x s w).1 = p.tasks ∧ ((Task.health h).run svc x s w).2.1 = w.resp := by
    simp only [Task.run, hstate]
    split
    case h_1 => exact ⟨_, .inr rfl, rfl, rfl, rfl, rfl⟩
    case h_2 json _ => exact ⟨_, .inl (.storing h json), rfl, rfl, rfl, rfl⟩
  refine .of_task hG hk hid hcalm (by rintro ⟨⟩) hp (by rw [htasks]) hresp (by rw [hfleet]; exact hat.stored.events)
    (fun hb => ?_) ?_
  · rw [hfleet, hkept]
    exact hat.stored.row hb
  · rw [hknown]
    exact hat.remembers.task hG hk.knows healthTopic.state_seen rfl

theorem Task.run_setHealth (svc : Pipelines.Service) (x : Draw) (h : ComponentHealth) (json : String)
    (flip : Option AgentEventType) (hrow : ∃ a ∈ s.fleet.agents, a.id = (w.agent s).agentID) :
    (Task.setHealth h json flip).run svc x s w = ([], w.resp, s) ∧ x.fail ∨
      ((Task.setHealth h json flip).run svc x s w).1 = [.noteHealth h.healthy] ∧
        ((Task.setHealth h json flip).run svc x s w).2.1 = w.resp ∧ ¬x.fail := by
  obtain ⟨f, hf⟩ : ∃ f, s.fleet.setAgentHealth (w.agent s).agentID json h.healthy flip = .ok f :=
    Fleet.updateAgentWith_of_mem hrow
  unfold Work.agent at hf
  by_cases hfail : x.fail
  case pos => exact .inl ⟨by simp [Task.run, Server.store, hfail], hfail⟩
  case neg => exact .inr ⟨by simp [Task.run, Server.store, hfail, hf], by simp [Task.run, Server.store, hfail, hf], hfail⟩

theorem Topic.Follows.step_setHealth {json : String} (hat : healthTopic.At b id l.known l.known l.events s
      (.work w (.setHealth h json (flipEvent l.known h.healthy) :: ts))) (hcalm : healthTopic.Calm ts) (hG : s.Grounded)
    (hk : (Call.work w (.setHealth h json (flipEvent l.known h.healthy) :: ts)).Placed b s 0)
    (hid : (w.agent s).agentID = id) {l' : HealthLog} (hl' : l' = l.handle { healthy := h.healthy, stored := !x.fail }) :
    healthTopic.Follows b id l'.Handles l'.known l'.events
      ((Call.work w (.setHealth h json (flipEvent l.known h.healthy) :: ts)).step svc x s).2
      ((Call.work w (.setHealth h json (flipEvent l.known h.healthy) :: ts)).step svc x s).1 := by
  have hstores : Call.Stores x s (.work w [.setHealth h json (flipEvent l.known h.healthy)])
      ((Task.setHealth h json (flipEvent l.known h.healthy)).run svc x s w).2.2.fleet := Task.run_stores _ _
  have hrow := (hG.states w.st hk.knows).row
  obtain ⟨hrun, hfail⟩ | ⟨hnew, hresp, hfail⟩ := Task.run_setHealth svc x h json (flipEvent l.known h.healthy) hrow
  · rw [hl', show l.handle _ = l from if_neg (by simp [hfail])]
    refine .of_task hG hk hid hcalm (by rintro ⟨⟩) (.inr rfl) (by rw [hrun]) (by rw [hrun])
      (by rw [hrun]; exact hat.stored.events) (fun hb => by rw [hrun]; exact hat.stored.row hb)
      (hat.remembers.task hG hk.knows healthTopic.state_seen rfl)
  · rw [hl', show l.handle _ = _ from if_pos (by simp [hfail])]
    have hfleet := hstores.eq_write rfl
    rw [if_neg hfail] at hfleet
    refine .of_task hG hk hid hcalm (by rintro ⟨⟩) (.inl (.noting l.known rfl)) (by rw [hnew]) hresp ?_ (fun hb => ?_)
      (hat.remembers.task hG hk.knows healthTopic.state_seen rfl)
    · have hevents : s.fleet.eventsOf isHealthEvent (w.agent s).agentID = l.events := by
        rw [hid]
        exact hat.stored.events
      rw [hfleet, ← hid]
      refine (Fleet.eventsOf_write hrow).trans (congrArg₂ (· ++ ·) hevents ?_)
      unfold flipEvent
      split_ifs
      all_goals simp [healthTopic, isHealthEvent, Option.filter]
    · rw [hfleet, says_iff]
      intro v hv
      obtain ⟨a, ha, hida, rfl⟩ := (Fleet.mem_column_write fun _ => rfl).mp hv
      rw [if_pos hid.symm]
      rfl

theorem Topic.Follows.step_noteHealth {healthy : Bool} {before : Option Bool} (hknown : l.known = some healthy)
    (hat : healthTopic.At b id before l.known l.events s (.work w (.noteHealth healthy :: ts)))
    (hcalm : healthTopic.Calm ts) (hG : s.Grounded) (hk : (Call.work w (.noteHealth healthy :: ts)).Placed b s 0)
    (hid : (w.agent s).agentID = id) :
    healthTopic.Follows b id l.Handles l.known l.events ((Call.work w (.noteHealth healthy :: ts)).step svc x s).2
      ((Call.work w (.noteHealth healthy :: ts)).step svc x s).1 := by
  refine .of_task hG hk hid hcalm (by rintro ⟨⟩) (.inr rfl) rfl rfl hat.stored.events hat.stored.row ?_
  exact hat.remembers.note hG hk.knows rfl hid (fun _ => l.known) (fun _ => hknown.symm) rfl

theorem HealthLog.follows_step (hfollows : healthTopic.Follows b id l.Handles l.known l.events s k) (hG : s.Grounded)
    (hk : k.Placed b s 0) {l' : HealthLog} (hl' : l' = l.handleAll (healthAttempts id x s k)) :
    healthTopic.Follows b id l'.Handles l'.known l'.events (k.step svc x s).2 (k.step svc x s).1 := by
  obtain ⟨hquiet, hcalm, hat⟩ | ⟨w, t, ts, rfl, ht, hid, hcalm, hat⟩ | ⟨w, ts, p, rfl, hp, hid, hcalm, hat⟩ := hfollows.cases
  · rw [healthAttempts_of_quiet hquiet] at hl'
    subst hl'
    exact .of_quiet hquiet hcalm hat hG hk
  · cases t
    case health h =>
      subst hl'
      exact .step_health hat hcalm hG hk hid
    all_goals cases ht
  · cases hp
    case storing h json =>
      refine .step_setHealth hat hcalm hG hk hid ?_
      rw [hl']
      exact congrArg l.handleAll (if_pos hid)
    case noting healthy before hknown =>
      subst hl'
      exact .step_noteHealth hknown hat hcalm hG hk hid

def Server.healthLog (s : Server) (id : UUID) : HealthLog where
  known := healthTopic.recalled s id
  events := s.fleet.eventsOf isHealthEvent id

theorem healthLog_follows_run (svc : Pipelines.Service) (id : UUID) {c : Config Call Server} (hc : Arranged b c)
    (hidle : (c.calls 0).isIdle) (hnot : b → ¬Registered c.shared id) {D : Draw → Prop}
    {events : List (Event Request Draw)} (hevents : ∀ e ∈ events, Orderly b D e) :
    let l := (c.shared.healthLog id).handleAll ((handler svc).trace (healthAttempts id) c events)
    healthTopic.Follows b id l.Handles l.known l.events ((handler svc).run c events).shared
      (((handler svc).run c events).calls 0) := by
  have hok := System.meets_true (S := handler svc) c events
  refine (hc.run (I := fun l => healthTopic.Follows b id (HealthLog.Handles l) l.known l.events) ?_ ?_ ?_ ?_ ?_ hevents hok).right
  · exact fun l s r h => h.begin r
  · exact fun l x s k h hG hk _ _ => HealthLog.follows_step h hG hk rfl
  · exact fun l x s k k' h hG hk i hi hk' => h.aside hG hk.knows hk'.knows (hk'.aside hi) hk'.stays
  · exact fun x s k hk => healthAttempts_of_quiet (Topic.Quiet.of_not_isMessage hk)
  · exact .init hc.grounded hidle hnot

end Health

section Repeated

variable [Runtime] {svc : Pipelines.Service} {publicEndpoint : String} {fleet : Fleet}
  {pipelines : UUID → List Store.ActivePipeline}

theorem Arranged.of_idle (hids : (fleet.agents.map (·.id)).Nodup) (huids : (fleet.agents.map (·.instanceUID)).Nodup)
    (hnil : ∀ a ∈ fleet.agents, a.id ≠ Store.nilUUID) {events : List (Event Request Draw)} {b : Bool}
    (hidle : ∀ i,
      (((handler svc).run ((handler svc).init (newServer publicEndpoint fleet pipelines)) events).calls i).isIdle) :
    Arranged b ((handler svc).run ((handler svc).init (newServer publicEndpoint fleet pipelines)) events) where
  grounded := (handler_grounded.always (.init hids huids hnil) trivial events).left
  placed i := by
    rw [Call.eq_idle (hidle i)]
    exact ⟨trivial, trivial, fun _ => trivial, fun _ => by simp [Call.isMessage], fun _ => by simp [Call.isClose]⟩

-- A report that is repeated until it can be stored, while no connection is closed. A final status is recorded once if it
-- was not known before, or if the hash was not and the status could be stored at first: the hash is noted before the
-- status is stored. A health is recorded once if it was not known before.
theorem repeated_report_recorded_iff (hids : (fleet.agents.map (·.id)).Nodup) (huids : (fleet.agents.map (·.instanceUID)).Nodup)
    (hnil : ∀ a ∈ fleet.agents, a.id ≠ Store.nilUUID) {before events : List (Event Request Draw)}
    {c : Config Call Server}
    (hc : c = (handler svc).run ((handler svc).init (newServer publicEndpoint fleet pipelines)) before)
    (hidle : ∀ i, (c.calls i).isIdle) (hevents : ∀ e ∈ events, Orderly false (fun _ => True) e)
    (hend : (((handler svc).run c events).calls 0).isIdle) (id : UUID) :
    (∀ reported : Reported, terminal reported.1 →
        (∀ a ∈ (handler svc).trace (statusAttempts id) c events, a.report.reported = reported) →
        (∃ a ∈ (handler svc).trace (statusAttempts id) c events, a.stored) →
        ((∃ rcs : RemoteConfigReport, rcs.reported = reported ∧
            ((handler svc).run c events).shared.fleet.eventsOf isConfigEvent id =
              c.shared.fleet.eventsOf isConfigEvent id ++ (StatusLog.event? rcs).toList) ↔
          reported.1 ≠ (statusTopic.recalled c.shared id).1 ∨
            reported.2 ≠ [] ∧ reported.2 ≠ (statusTopic.recalled c.shared id).2 ∧
              ∀ a ∈ ((handler svc).trace (statusAttempts id) c events).head?, a.stored)) ∧
      ∀ healthy : Bool, (∀ a ∈ (handler svc).trace (healthAttempts id) c events, a.healthy = healthy) →
        (∃ a ∈ (handler svc).trace (healthAttempts id) c events, a.stored) →
        (((handler svc).run c events).shared.fleet.eventsOf isHealthEvent id =
            c.shared.fleet.eventsOf isHealthEvent id ++ [HealthLog.event healthy] ↔
          healthTopic.recalled c.shared id ≠ some healthy) := by
  have harranged : Arranged false c := by
    rw [hc] at hidle ⊢
    exact .of_idle hids huids hnil hidle
  constructor
  case left =>
    intro reported hterminal hsame hstored
    have hfollows := follows_run svc id harranged (hidle 0) (by simp) (by simp) hevents
    have hrecorded : ((handler svc).run c events).shared.fleet.eventsOf isConfigEvent id = _ := (hfollows.reports.idle hend).left
    rw [hrecorded]
    exact StatusLog.events_iff hterminal hsame hstored
  case right =>
    intro healthy hsame hstored
    have hfollows := healthLog_follows_run svc id harranged (hidle 0) (by simp) hevents
    have hrecorded : ((handler svc).run c events).shared.fleet.eventsOf isHealthEvent id = _ := (hfollows.idle hend).left
    rw [hrecorded]
    exact HealthLog.events_iff hsame hstored

end Repeated

section Sample

def failingDraw : Draw :=
  { sampleDraw 0 with fail := true }

def failingReport (status : Store.RemoteConfigStatus) (hash : Store.Hash) : List (Event Request Draw) :=
  callOf 0 (.message 1 (reportMessage status hash)) 5 0 ++ [.run 0 failingDraw, .run 0 (sampleDraw 0)]

def repeatedReport (status : Store.RemoteConfigStatus) (hash : Store.Hash) : List (Event Request Draw) :=
  failingReport status hash ++ reportOf status hash

def handledAfter [Runtime] (events : List (Event Request Draw)) : Config Call Server :=
  (handler sampleService).run ((handler sampleService).init (newServer "" sampleFleet fun _ => [])) events

theorem calls_handledAfter [Runtime] {events : List (Event Request Draw)} (hslots : ∀ e ∈ events, e.slot = 0)
    (hidle : ((handledAfter events).calls 0).isIdle) (i : Nat) : ((handledAfter events).calls i).isIdle := by
  by_cases hi : i = 0
  · rwa [hi]
  · have hcalls : (handledAfter events).calls i = .idle :=
      System.calls_run_of_unused fun e he => by rw [hslots e he]; exact Ne.symm hi
    rw [hcalls]
    rfl

def appliedOnce : List (Event Request Draw) :=
  oneAgent ++ reportOf .applied [65]

-- A failure that is reported after a config has been applied is recorded.
theorem repeated_failure_recorded :
    letI := sampleRuntime
    let c := handledAfter appliedOnce
    ∃ rcs : RemoteConfigReport, rcs.reported = (.failed, [66]) ∧
      ((handler sampleService).run c (repeatedReport .failed [66])).shared.fleet.eventsOf isConfigEvent 21 =
        c.shared.fleet.eventsOf isConfigEvent 21 ++ (StatusLog.event? rcs).toList := by
  have hidle := @calls_handledAfter sampleRuntime appliedOnce (by decide +kernel) (by decide +kernel)
  have h := @repeated_report_recorded_iff sampleRuntime sampleService "" sampleFleet (fun _ => []) (by decide) (by decide)
    (by decide) appliedOnce (repeatedReport .failed [66]) (@handledAfter sampleRuntime appliedOnce) rfl hidle (by decide +kernel)
    (by decide +kernel) 21
  exact (h.left (.failed, [66]) rfl (by decide +kernel) (by decide +kernel)).mpr (.inl (by decide +kernel))

-- A new config that is applied like the one before is not: its hash has been noted when its status cannot be stored.
theorem repeated_success_lost :
    letI := sampleRuntime
    let c := handledAfter appliedOnce
    (∀ i, (c.calls i).isIdle) ∧ (∀ e ∈ repeatedReport .applied [66], Orderly false (fun _ => True) e) ∧
      (((handler sampleService).run c (repeatedReport .applied [66])).calls 0).isIdle ∧
      ((handler sampleService).trace (statusAttempts 21) c (repeatedReport .applied [66])).map
          (fun a => (a.report.reported, a.stored)) =
        [((.applied, [66]), false), ((.applied, [66]), true)] ∧
      ¬∃ rcs : RemoteConfigReport, rcs.reported = (.applied, [66]) ∧
        ((handler sampleService).run c (repeatedReport .applied [66])).shared.fleet.eventsOf isConfigEvent 21 =
          c.shared.fleet.eventsOf isConfigEvent 21 ++ (StatusLog.event? rcs).toList := by
  have hidle := @calls_handledAfter sampleRuntime appliedOnce (by decide +kernel) (by decide +kernel)
  refine ⟨hidle, by decide +kernel, by decide +kernel, by decide +kernel, ?_⟩
  rintro ⟨rcs, hrcs, hevents⟩
  -- No event is gained.
  have hsame : ((@handler sampleRuntime sampleService).run (@handledAfter sampleRuntime appliedOnce)
      (repeatedReport .applied [66])).shared.fleet.eventsOf isConfigEvent 21 =
        (@handledAfter sampleRuntime appliedOnce).shared.fleet.eventsOf isConfigEvent 21 := by decide +kernel
  refine StatusLog.ne_append_event? ?_ _ (hsame.symm.trans hevents)
  rw [show rcs.status = .applied from congrArg (·.1) hrcs]
  rfl

end Sample
end Opamp
