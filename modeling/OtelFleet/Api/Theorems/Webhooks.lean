import OtelFleet.Api.Webhooks

open Store (UUID)
open Webhooks (Webhook Event AgentInfo Delivery matched buildPayload dispatch)

-- What channels tell about the agents of other customers, and to whom they are open.
namespace Api.Webhooks

-- A channel was created by someone who is limited to some of the given customers.
def Origin.Within (o : Origin) (customers : List UUID) : Prop :=
  ∃ created, o.created = some created ∧ created ⊆ customers

-- A step sends a channel nothing about customers that whoever changed it last is kept from, and shows
-- and changes no channel that was created outside the limits of the principal.
structure Isolated (s : State) (o : Outcome) : Prop where
  delivered : ∀ d ∈ o.deliveries, ∀ customers, (s.origin d.webhook.id).modified = some customers →
    ∃ c ∈ customers, d.payload.agent.customerID = some c
  unread : ∀ customers reply, o.answer = some (some customers, reply) → ∀ w ∈ s.hooks,
    ¬(s.origin w.id).Within customers → ∀ v ∈ reply.shown, v.id ≠ w.id
  unchanged : ∀ customers reply, o.answer = some (some customers, reply) → ∀ w ∈ s.hooks,
    ¬(s.origin w.id).Within customers → w ∈ o.state.hooks

def Request.Touches (out : Outside) (w : Webhook) : Request → Prop
  | list => True
  | create _ => False
  | update id body => w.id = id ∧ (body.update out).isOk
  | delete id => w.id = id
  | test _ => False

section Condition

variable [Runtime]

-- A limited principal only gets to channels that were created within its limits, and events only go to
-- the channels of principals who are not kept from them.
def Allowed (s : State) : Step → Prop
  | .call store now r request out _ =>
    ∀ who customers, admission store now r request = .ok who → scopeOf who = some customers →
      ∀ w ∈ s.hooks, request.Touches out w → (s.origin w.id).Within customers
  | .publish _ => True
  | .dispatch getAgent =>
    ∀ evt ∈ s.queue.head?, ∀ w ∈ matched s.hooks evt, ∀ customers, (s.origin w.id).modified = some customers →
      ∃ c ∈ customers, (buildPayload getAgent evt).agent.customerID = some c

end Condition

section Requests

variable {newID id : UUID}

theorem webhook?_of_mem (h : w ∈ hooks) (hid : w.id = id) : ∃ v, webhook? hooks id = some v ∧ v.id = id := by
  cases hf : webhook? hooks id
  case none => exact absurd hid (by simpa using List.find?_eq_none.mp hf w h)
  case some v => exact ⟨v, rfl, by simpa using List.find?_some hf⟩

theorem ne_of_webhook? (h : w ∈ hooks) (hf : webhook? hooks id = none) : w.id ≠ id := by
  intro hid
  have ⟨v, hv, _⟩ := webhook?_of_mem h hid
  rw [hf] at hv
  cases hv

theorem row_id {body : CreateBody} (h : body.row out newID createdBy = .ok w) : w.id = newID := by
  unfold CreateBody.row at h
  simp only [bind, Except.bind] at h
  repeat' split at h
  all_goals cases h
  all_goals rfl

theorem createWebhook_touches (out : Outside) (who : Option Principal) (newID : UUID) (body : CreateBody)
    (h : w ∈ hooks) :
    (∀ v ∈ (createWebhook out who newID body hooks).1.shown, v.id ≠ w.id) ∧
      w ∈ (createWebhook out who newID body hooks).2 := by
  unfold createWebhook
  cases hrow : body.row out newID (actorID who)
  case error => exact ⟨by simp [Reply.shown], h⟩
  case ok row =>
    dsimp only
    split_ifs with hid
    · exact ⟨by simp [Reply.shown], h⟩
    · refine ⟨fun v hv => ?_, List.mem_append_left _ h⟩
      rw [List.mem_singleton.mp hv]
      have hne := ne_of_webhook? h (Option.not_isSome_iff_eq_none.mp hid)
      exact fun he => hne (he.symm.trans (row_id hrow))

theorem updateWebhook_touches (h : w ∈ hooks) (body : UpdateBody) :
    w.id = id ∧ (body.update out).isOk ↔
      (∃ v ∈ (updateWebhook out id body hooks).1.shown, v.id = w.id) ∨
        w ∉ (updateWebhook out id body hooks).2 := by
  unfold updateWebhook
  cases hupd : body.update out
  case error => simp [Reply.shown, h, Except.isOk, Except.toBool]
  case ok upd =>
    simp only [Except.isOk, Except.toBool, and_true]
    cases hf : webhook? hooks id
    case none => simp [Reply.shown, h, ne_of_webhook? h hf]
    case some v =>
      have hv : v.id = id := by simpa using List.find?_some hf
      by_cases hid : w.id = id
      · exact iff_of_true hid (.inl ⟨_, List.mem_singleton.mpr rfl, hv.trans hid.symm⟩)
      · refine iff_of_false hid ?_
        rintro (⟨u, hu, he⟩ | hno)
        · rw [List.mem_singleton.mp hu] at he
          exact hid (he.symm.trans hv)
        · exact hno (List.mem_map.mpr ⟨w, h, if_neg hid⟩)

theorem deleteWebhook_touches (h : w ∈ hooks) :
    w.id = id ↔
      (∃ v ∈ (deleteWebhook id hooks).1.shown, v.id = w.id) ∨ w ∉ (deleteWebhook id hooks).2 := by
  unfold deleteWebhook
  cases hf : webhook? hooks id
  case none => simp [Reply.shown, h, ne_of_webhook? h hf]
  case some v => simp [Reply.shown, h]

theorem testWebhook_shown : (testWebhook out id hooks).shown = [] := by
  unfold testWebhook
  split <;> rfl

theorem touches_iff (h : w ∈ hooks) (request : Request) :
    request.Touches out w ↔
      (∃ v ∈ (respond out who newID hooks request).1.shown, v.id = w.id) ∨
        w ∉ (respond out who newID hooks request).2 := by
  cases request
  case list => exact iff_of_true trivial (.inl ⟨toWebhook w, List.mem_map_of_mem h, rfl⟩)
  case create body =>
    have ⟨hshown, hmem⟩ := createWebhook_touches out who newID body h
    exact iff_of_false id fun hor => hor.elim (fun ⟨v, hv, he⟩ => hshown v hv he) (· hmem)
  case update id body => exact updateWebhook_touches h body
  case delete id => exact deleteWebhook_touches h
  case test id =>
    refine iff_of_false not_false ?_
    simp [respond, testWebhook_shown, h]

end Requests

section Histories

theorem isolated_unanswered (h : o.answer = none) :
    Isolated s o ↔ ∀ d ∈ o.deliveries, ∀ customers, (s.origin d.webhook.id).modified = some customers →
      ∃ c ∈ customers, d.payload.agent.customerID = some c :=
  ⟨(·.delivered), fun hd => ⟨hd, by simp [h], by simp [h]⟩⟩

theorem isolated_answered (ha : o.answer = some (scope, reply)) (hd : o.deliveries = []) :
    Isolated s o ↔ ∀ customers, scope = some customers → ∀ w ∈ s.hooks,
      ((∃ v ∈ reply.shown, v.id = w.id) ∨ w ∉ o.state.hooks) → (s.origin w.id).Within customers := by
  constructor
  case mp =>
    rintro h customers rfl w hw (⟨v, hv, he⟩ | hno)
    · exact not_not.mp fun hout => h.unread customers reply ha w hw hout v hv he
    · exact not_not.mp fun hout => hno (h.unchanged customers reply ha w hw hout)
  case mpr =>
    intro h
    refine ⟨by simp [hd], ?_, ?_⟩
    · intro customers r hr w hw hout v hv he
      obtain ⟨rfl, rfl⟩ : scope = some customers ∧ reply = r := by simpa [ha] using hr
      exact hout (h customers rfl w hw (.inl ⟨v, hv, he⟩))
    · intro customers r hr w hw hout
      obtain ⟨rfl, rfl⟩ : scope = some customers ∧ reply = r := by simpa [ha] using hr
      exact not_not.mp fun hno => hout (h customers rfl w hw (.inr hno))

theorem recordOrigin_modified (h : ∀ id, (origin id).modified = none) (newID : UUID)
    (request : Request) (reply : Reply) (id : UUID) :
    (recordOrigin origin none newID request reply id).modified = none := by
  unfold recordOrigin
  split
  case _ =>
    by_cases hid : id = newID
    · simp [hid]
    · rw [Function.update_of_ne hid, h]
  case _ updated body _ _ =>
    split_ifs
    · by_cases hid : id = updated
      · simp [hid]
      · rw [Function.update_of_ne hid, h]
    · exact h id
  case _ => exact h id

variable [Runtime]

theorem step_isolated_iff (s : State) (e : Step) : Isolated s (s.step e) ↔ Allowed s e := by
  cases e
  case publish evt =>
    rw [isolated_unanswered rfl]
    exact iff_of_true (by simp [State.step]) trivial
  case dispatch getAgent =>
    cases hq : s.queue
    case nil =>
      rw [isolated_unanswered (by simp [State.step, hq])]
      simp [State.step, Allowed, hq]
    case cons evt queue =>
      rw [isolated_unanswered (by simp [State.step, hq])]
      simp [State.step, Allowed, hq, dispatch]
  case call store now r request out newID =>
    cases hadm : admission store now r request
    case error e =>
      have ha : (s.step (.call store now r request out newID)).answer = some (none, .error e) := by
        simp only [State.step, hadm]
      rw [isolated_answered ha (by simp only [State.step, hadm])]
      simp [Allowed, hadm]
    case ok who =>
      have ha : (s.step (.call store now r request out newID)).answer =
          some (scopeOf who, (respond out who newID s.hooks request).1) := by
        simp only [State.step, hadm]
      rw [isolated_answered ha (by simp only [State.step, hadm])]
      simp only [Allowed, hadm, State.step, Except.ok.injEq]
      constructor
      case mp =>
        rintro h _ customers rfl hscope w hw ht
        exact h customers hscope w hw ((touches_iff hw request).mp ht)
      case mpr =>
        intro h customers hscope w hw ht
        exact h who customers rfl hscope w hw ((touches_iff hw request).mpr ht)

def IsolatedAlong : State → List Step → Prop
  | _, [] => True
  | s, e :: es => Isolated s (s.step e) ∧ IsolatedAlong (s.step e).state es

def AllowedAlong : State → List Step → Prop
  | _, [] => True
  | s, e :: es => Allowed s e ∧ AllowedAlong (s.step e).state es

theorem isolatedAlong_iff (s : State) (es : List Step) : IsolatedAlong s es ↔ AllowedAlong s es := by
  induction es generalizing s
  case nil => rfl
  case cons e es hi => exact and_congr (step_isolated_iff s e) (hi _)

-- A step that no limited principal gets through with.
def Unlimited : Step → Prop
  | .call store now r request _ _ => ∀ who, admission store now r request = .ok who → scopeOf who = none
  | _ => True

theorem unlimited_allowed (h : Unlimited e) (hs : ∀ id, (s.origin id).modified = none) : Allowed s e := by
  cases e
  case call =>
    intro who customers hadm hscope
    rw [h who hadm] at hscope
    cases hscope
  case publish => trivial
  case dispatch =>
    intro evt _ w _ customers hw
    rw [hs w.id] at hw
    cases hw

theorem unlimited_modified {s : State} (h : Unlimited e) (hs : ∀ id, (s.origin id).modified = none)
    (id : UUID) : ((s.step e).state.origin id).modified = none := by
  cases e
  case call store now r request out newID =>
    cases hadm : admission store now r request
    case error =>
      simp only [State.step, hadm]
      exact hs id
    case ok who =>
      simp only [State.step, hadm, h who hadm]
      exact recordOrigin_modified hs newID request _ id
  case publish => exact hs id
  case dispatch getAgent =>
    simp only [State.step]
    split <;> exact hs id

theorem allowedAlong_of_unlimited {s : State} (h : ∀ e ∈ es, Unlimited e)
    (hs : ∀ id, (s.origin id).modified = none) : AllowedAlong s es := by
  induction es generalizing s
  case nil => trivial
  case cons e es hi =>
    have he := h e List.mem_cons_self
    exact ⟨unlimited_allowed he hs, hi (fun e he => h e (List.mem_cons_of_mem _ he)) (unlimited_modified he hs)⟩

theorem webhooks_isolated_iff (s : State) (es : List Step) :
    (IsolatedAlong s es ↔ AllowedAlong s es) ∧
      ((∀ id, (s.origin id).modified = none) → (∀ e ∈ es, Unlimited e) → IsolatedAlong s es) :=
  ⟨isolatedAlong_iff s es, fun hs h => (isolatedAlong_iff s es).mpr (allowedAlong_of_unlimited h hs)⟩

end Histories

section Sample

def office : GuardStore :=
  .of {
    customers := [1, 2]
    users := [
      { id := 3, email := "admin@example.com", role := .admin },
      { id := 5, email := "operator@example.com", role := .operator },
      { id := 6, email := "viewer@example.com", role := .viewer }]
    grants := [{ userID := 5, customerID := 1 }, { userID := 6, customerID := 1 }] }

def plainOutside : Outside where
  validateURL _ := none
  encryptClientSecret _ := .error internalError
  sendTest _ := (true, "receiver returned HTTP 200")

def callBy (userID : UUID) (request : Request) (newID : UUID) : Step :=
  .call office 0 { method := .get, path := "", session := some userID, validCSRF := true } request plainOutside newID

def offlineChannel : CreateBody where
  name := "Alerts"
  url := "https://alerts.example.com/hook"
  events := ["agent_offline"]

def offlineRow (id createdBy : UUID) : Webhook where
  id := id
  type := .generic
  name := "Alerts"
  url := "https://alerts.example.com/hook"
  events := [.agentOffline]
  secretEnc := []
  enabled := true
  createdBy := some createdBy

def offlineEvent : Event where
  eventType := .agentOffline
  agentID := 7
  customerID := 2
  detail := []
  occurredAt := 0

def blank : State where
  hooks := []
  origin _ := {}
  queue := []

-- The admin creates a channel, and the viewer who is limited to customer 1 gets neither to create one
-- nor to delete that of the admin.
def officeDay : List Step := [
  callBy 3 (.create offlineChannel) 10,
  callBy 6 (.create offlineChannel) 11,
  .publish offlineEvent,
  callBy 6 (.delete 10) 0,
  .dispatch fun _ => none]

theorem viewer_kept_from_channels :
    letI := Runtime.sample
    let s := officeDay.foldl (fun s e => (s.step e).state) blank
    s.hooks.map (·.id) = [10] ∧ IsolatedAlong blank officeDay := by
  refine ⟨by decide +kernel, (@webhooks_isolated_iff Runtime.sample blank _).right (fun _ => rfl) fun e he => ?_⟩
  simp only [officeDay, List.mem_cons, List.not_mem_nil, or_false] at he
  obtain rfl | rfl | rfl | rfl | rfl := he
  · rintro who ⟨⟩
    rfl
  · rintro who ⟨⟩
  · trivial
  · rintro who ⟨⟩
  · trivial

-- The operator creates a channel, which is told of the agent of customer 2, and deletes the channel of
-- the admin.
theorem operator_channel_not_isolated :
    letI := Runtime.sample
    let s := ((((blank.step (callBy 3 (.create offlineChannel) 10)).state.step
      (callBy 5 (.create offlineChannel) 11)).state.step (.publish offlineEvent)).state)
    let sent := s.step (.dispatch fun _ => none)
    let deleted := sent.state.step (callBy 5 (.delete 10) 0)
    (s.origin 11).modified = some [1] ∧
      sent.deliveries.map (fun d => (d.webhook.id, d.payload.agent.customerID)) = [(10, some 2), (11, some 2)] ∧
      (s.origin 10).created = none ∧ deleted.state.hooks.map (·.id) = [11] ∧
      ¬Isolated s sent ∧ ¬Isolated sent.state deleted := by
  refine ⟨by decide +kernel, by decide +kernel, by decide +kernel, by decide +kernel, fun h => ?_, fun h => ?_⟩
  · have ⟨c, hc, he⟩ := h.delivered
      { webhook := offlineRow 11 5, payload := buildPayload (fun _ => none) offlineEvent } (by decide +kernel) [1]
      (by decide +kernel)
    rw [List.mem_singleton.mp hc] at he
    cases he
  · have hrow : offlineRow 10 3 ∈ _ := h.unchanged [1] .noContent rfl (offlineRow 10 3) (by decide +kernel)
      (fun ⟨_, hc, _⟩ => by cases hc)
    revert hrow
    decide +kernel

end Sample

end Api.Webhooks
