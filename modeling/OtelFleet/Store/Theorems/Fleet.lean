import OtelFleet.Store.Fleet
import Mathlib.Tactic.Common

-- What the operations on the fleet do to its tables.
namespace Store

variable {f f' : Fleet} {id : UUID} {g : Agent → Agent}

def Agent.identity (a : Agent) : UUID × InstanceUID × Option UUID :=
  (a.id, a.instanceUID, a.customerID)

namespace Fleet

structure Assigned (f : Fleet) (id : UUID) (hash : Hash) : Prop where
  row : ∃ a ∈ f.agents, a.id = id
  hash : ∀ a ∈ f.agents, a.id = id → a.assignedConfigHash = hash

def identities (f : Fleet) : List (UUID × InstanceUID × Option UUID) :=
  f.agents.map (·.identity)

theorem mem_identities (ha : a ∈ f.agents) : a.identity ∈ f.identities :=
  List.mem_map_of_mem ha

def Owns (f : Fleet) (customerID agentID : UUID) : Prop :=
  ∃ a ∈ f.agents, a.id = agentID ∧ a.customerID = some customerID

theorem owns_iff : f.Owns customerID agentID ↔ ∃ uid, (agentID, uid, some customerID) ∈ f.identities := by
  constructor
  · rintro ⟨a, ha, rfl, hc⟩
    refine ⟨a.instanceUID, ?_⟩
    rw [← hc]
    exact mem_identities ha
  · rintro ⟨uid, h⟩
    obtain ⟨a, ha, hid⟩ := List.mem_map.mp h
    simp only [Agent.identity, Prod.mk.injEq] at hid
    exact ⟨a, ha, hid.left, hid.right.right⟩

structure Updated (f f' : Fleet) (id : UUID) (g : Agent → Agent) : Prop where
  customers : f'.customers = f.customers
  tokens : f'.tokens = f.tokens
  agents : f'.agents = f.agents.map fun a => if a.id = id then g a else a

theorem Updated.identities (h : f.Updated f' id g) (hg : ∀ a, (g a).identity = a.identity) :
    f'.identities = f.identities := by
  unfold Fleet.identities
  rw [h.agents, List.map_map]
  refine List.map_congr_left fun a _ => ?_
  simp only [Function.comp]
  split_ifs
  · exact hg a
  · rfl

theorem identities_touchAgents : (f.touchAgents seen).identities = f.identities := by
  unfold Fleet.identities touchAgents
  rw [List.map_map]
  refine List.map_congr_left fun a _ => ?_
  simp only [Function.comp]
  split
  all_goals rfl

theorem updateAgent_updated (h : f.updateAgent id g = .ok f') : f.Updated f' id g := by
  unfold updateAgent at h
  split_ifs at h
  cases h
  exact ⟨rfl, rfl, rfl⟩

theorem updateAgentWith_updated (h : f.updateAgentWith id g event = .ok f') : f.Updated f' id g := by
  unfold updateAgentWith at h
  cases hu : f.updateAgent id g
  case error e => simp [hu, Except.map] at h
  case ok f₁ =>
    obtain ⟨hc, ht, ha⟩ := updateAgent_updated hu
    simp only [hu, Except.map, Except.ok.injEq] at h
    subst h
    split
    all_goals exact ⟨hc, ht, ha⟩

theorem forall_ne_of_updateAgent (h : ∃ e, f.updateAgent id g = .error e) : ∀ a ∈ f.agents, a.id ≠ id := by
  obtain ⟨e, he⟩ := h
  unfold updateAgent at he
  split_ifs at he with hany
  simpa using hany

theorem setAgentToken_updated {hash : Hash} :
    f.Updated (f.setAgentToken id tokenPrefix hash time) id fun a =>
      { a with tokenPrefix := some tokenPrefix, tokenHash := hash, tokenIssuedAt := some time } :=
  ⟨rfl, rfl, rfl⟩

end Fleet

structure Fleet.Enrolled (f f' : Fleet) (a : NewAgent) (agent : Agent) : Prop where
  customers : f'.customers = f.customers
  tokens : f'.tokens =
    f.tokens.map fun t => if t.id = a.enrolledVia then { t with usedCount := t.usedCount + 1 } else t
  agents : f'.agents = f.agents ++ [agent]
  row : ∃ now, agent = a.row now
  newID : ∀ b ∈ f.agents, b.id ≠ a.id
  newUID : ∀ b ∈ f.agents, b.instanceUID ≠ a.instanceUID
  token : ∃ t ∈ f.tokens, t.id = a.enrolledVia

theorem Fleet.Enrolled.identities (h : f.Enrolled f' a agent) :
    f'.identities = f.identities ++ [(a.id, a.instanceUID, some a.customerID)] := by
  obtain ⟨now, hrow⟩ := h.row
  unfold Fleet.identities
  rw [h.agents, hrow, List.map_append]
  rfl

theorem Fleet.enrollAgent_enrolled (h : f.enrollAgent a now = .ok (agent, f')) : f.Enrolled f' a agent := by
  unfold enrollAgent at h
  split_ifs at h with hid huid hcustomer htoken
  simp only [Except.ok.injEq, Prod.mk.injEq] at h
  obtain ⟨rfl, rfl⟩ := h
  constructor
  case row => exact ⟨now, rfl⟩
  case newID => simpa using hid
  case newUID => simpa using huid
  case token => simpa using htoken
  all_goals rfl

theorem Fleet.enrollAgent_events (h : f.enrollAgent a now = .ok (agent, f')) :
    f'.events = f.events ++ [⟨a.id, .enrolled, [("token", toString a.enrolledVia)]⟩] := by
  unfold enrollAgent at h
  split_ifs at h
  simp only [Except.ok.injEq, Prod.mk.injEq] at h
  obtain ⟨-, rfl⟩ := h
  rfl

namespace Fleet.Assigned

variable {hash : Hash}

theorem map (h : f.Assigned id hash) (hf : f'.agents = f.agents.map m) (hid : ∀ a, (m a).id = a.id)
    (hm : ∀ a, a.id = id → (m a).assignedConfigHash = a.assignedConfigHash) : f'.Assigned id hash where
  row := by
    obtain ⟨a, ha, hida⟩ := h.row
    exact ⟨m a, by rw [hf]; exact List.mem_map_of_mem ha, (hid a).trans hida⟩
  hash b hb hidb := by
    rw [hf] at hb
    obtain ⟨a, ha, rfl⟩ := List.mem_map.mp hb
    have hida := (hid a).symm.trans hidb
    exact (hm a hida).trans (h.hash a ha hida)

theorem updated (h : f.Assigned id hash) (hu : f.Updated f' id' g) (hid : ∀ a, (g a).id = a.id)
    (hg : id = id' → ∀ a, (g a).assignedConfigHash = a.assignedConfigHash) : f'.Assigned id hash := by
  refine h.map hu.agents (fun a => ?_) fun a ha => ?_
  · split_ifs
    · exact hid a
    · rfl
  · split_ifs with ha'
    · exact hg (ha.symm.trans ha') a
    · rfl

theorem touched (h : f.Assigned id hash) (seen : List (UUID × Int)) : (f.touchAgents seen).Assigned id hash := by
  refine h.map rfl (fun a => ?_) fun a _ => ?_
  all_goals
    split
    all_goals rfl

theorem enrolled (h : f.Assigned id hash) (he : f.Enrolled f' a agent) : f'.Assigned id hash := by
  obtain ⟨b, hb, hid⟩ := h.row
  refine ⟨⟨b, by rw [he.agents]; exact List.mem_append_left _ hb, hid⟩, fun c hc hidc => ?_⟩
  rw [he.agents] at hc
  obtain hc | hc := List.mem_append.mp hc
  · exact h.hash c hc hidc
  · obtain rfl := List.mem_singleton.mp hc
    obtain ⟨now, rfl⟩ := he.row
    exact absurd (hid.trans hidc.symm) (he.newID b hb)

theorem of_updated (hu : f.Updated f' id fun a => { a with assignedConfigHash := hash })
    (hrow : ∃ a ∈ f.agents, a.id = id) : f'.Assigned id hash := by
  constructor
  case row =>
    obtain ⟨a, ha, hid⟩ := hrow
    refine ⟨{ a with assignedConfigHash := hash }, ?_, hid⟩
    rw [hu.agents]
    exact List.mem_map.mpr ⟨a, ha, if_pos hid⟩
  case hash =>
    intro b hb hidb
    rw [hu.agents] at hb
    obtain ⟨a, ha, rfl⟩ := List.mem_map.mp hb
    split_ifs at hidb ⊢
    · rfl
    · contradiction

end Fleet.Assigned

structure Write where
  agentID : UUID
  change : Agent → Agent
  event : Option (AgentEventType × List (String × String))

namespace Fleet

variable {w : Write}

def write (f : Fleet) (w : Write) : Fleet :=
  match f.updateAgentWith w.agentID w.change w.event with
  | .ok f => f
  | .error _ => f

theorem updateAgent_eq : f.updateAgent id g = f.updateAgentWith id g none := by
  unfold updateAgentWith
  cases f.updateAgent id g
  all_goals rfl

theorem write_of_ok (h : f.updateAgentWith w.agentID w.change w.event = .ok f') : f.write w = f' := by
  simp only [write, h]

theorem write_of_error (h : f.updateAgentWith w.agentID w.change w.event = .error e) : f.write w = f := by
  simp only [write, h]

theorem updateAgentWith_of_mem (h : ∃ a ∈ f.agents, a.id = id) : ∃ f', f.updateAgentWith id g event = .ok f' := by
  have hany : f.agents.any (·.id = id) := by simpa using h
  exact ⟨_, by simp only [updateAgentWith, updateAgent, hany, if_true, Except.map]; rfl⟩

theorem map_of_forall_ne (h : ∀ a ∈ f.agents, a.id ≠ id) :
    f.agents.map (fun a => if a.id = id then g a else a) = f.agents := by
  refine (List.map_congr_left fun a ha => ?_).trans (List.map_id _)
  exact if_neg (h a ha)

theorem agents_write (f : Fleet) (w : Write) :
    (f.write w).agents = f.agents.map fun a => if a.id = w.agentID then w.change a else a := by
  by_cases h : ∃ a ∈ f.agents, a.id = w.agentID
  case pos =>
    obtain ⟨f', hf'⟩ : ∃ f', f.updateAgentWith w.agentID w.change w.event = .ok f' := updateAgentWith_of_mem h
    rw [write_of_ok hf', (updateAgentWith_updated hf').agents]
  case neg =>
    have hne : ∀ a ∈ f.agents, a.id ≠ w.agentID := fun a ha hid => h ⟨a, ha, hid⟩
    have hany : ¬f.agents.any (·.id = w.agentID) := by simpa using hne
    rw [map_of_forall_ne hne]
    simp [write, updateAgentWith, updateAgent, hany, Except.map]

theorem events_write (h : ∃ a ∈ f.agents, a.id = w.agentID) :
    (f.write w).events = f.events ++ w.event.toList.map fun e => ⟨w.agentID, e.1, e.2⟩ := by
  have hany : f.agents.any (·.id = w.agentID) := by simpa using h
  simp only [write, updateAgentWith, updateAgent, hany, if_true, Except.map]
  cases w.event
  case none => simp
  case some e => rfl

theorem events_write_of_absent (h : ∀ a ∈ f.agents, a.id ≠ w.agentID) : (f.write w).events = f.events := by
  have hany : ¬f.agents.any (·.id = w.agentID) := by simpa using h
  simp [write, updateAgentWith, updateAgent, hany, Except.map]

def eventsOf (f : Fleet) (p : AgentEventType → Bool) (id : UUID) : List (AgentEventType × List (String × String)) :=
  (f.events.filter fun e => e.agentID = id ∧ p e.eventType).map fun e => (e.eventType, e.detail)

section Events

theorem eventsOf_append {events : List AgentEvent} (h : f'.events = f.events ++ events) :
    f'.eventsOf p id =
      f.eventsOf p id ++ (events.filter fun e => e.agentID = id ∧ p e.eventType).map fun e => (e.eventType, e.detail) := by
  unfold eventsOf
  rw [h, List.filter_append, List.map_append]

theorem eventsOf_write (h : ∃ a ∈ f.agents, a.id = w.agentID) :
    (f.write w).eventsOf p w.agentID = f.eventsOf p w.agentID ++ (w.event.filter (p ·.1)).toList := by
  rw [eventsOf_append (events_write h)]
  cases he : w.event
  case none => rfl
  case some e => cases hp : p e.1 <;> simp [hp, Option.filter]

theorem eventsOf_write_eq (h : w.agentID = id → ∀ e, w.event = some e → p e.1 = false) :
    (f.write w).eventsOf p id = f.eventsOf p id := by
  by_cases hrow : ∃ a ∈ f.agents, a.id = w.agentID
  case pos =>
    rw [eventsOf_append (events_write hrow), List.filter_eq_nil_iff.mpr, List.map_nil, List.append_nil]
    intro e he
    obtain ⟨e', he', rfl⟩ := List.mem_map.mp he
    have hevent (hid : w.agentID = id) : p e'.1 = false := h hid e' (Option.mem_toList.mp he')
    simpa using hevent
  case neg =>
    have hne : ∀ a ∈ f.agents, a.id ≠ w.agentID := fun a ha hid => hrow ⟨a, ha, hid⟩
    unfold eventsOf
    rw [events_write_of_absent hne]

end Events

def column {α : Type} (f : Fleet) (π : Agent → α) : List (UUID × α) :=
  f.agents.map fun a => (a.id, π a)

theorem mem_column : (id, v) ∈ f.column π ↔ ∃ a ∈ f.agents, a.id = id ∧ π a = v := by
  simp [column]

theorem column_map (hf : f'.agents = f.agents.map m) (hid : ∀ a, (m a).id = a.id)
    (hm : ∀ a, π (m a) = π a) : f'.column π = f.column π := by
  unfold column
  rw [hf, List.map_map]
  refine List.map_congr_left fun a _ => ?_
  simp only [Function.comp, hid, hm]

theorem column_write (hid : ∀ a, (w.change a).identity = a.identity) (hw : ∀ a, π (w.change a) = π a) :
    (f.write w).column π = f.column π := by
  refine column_map (agents_write f w) (fun a => ?_) fun a => ?_
  · split_ifs
    · exact congrArg (·.1) (hid a)
    · rfl
  · split_ifs
    · exact hw a
    · rfl

theorem mem_column_write (hid : ∀ a, (w.change a).identity = a.identity) :
    (id, v) ∈ (f.write w).column π ↔
      ∃ a ∈ f.agents, a.id = id ∧ π (if id = w.agentID then w.change a else a) = v := by
  rw [mem_column, agents_write]
  constructor
  · rintro ⟨b, hb, rfl, rfl⟩
    obtain ⟨a, ha, rfl⟩ := List.mem_map.mp hb
    have hida : (if a.id = w.agentID then w.change a else a).id = a.id := by
      split_ifs
      · exact congrArg (·.1) (hid a)
      · rfl
    exact ⟨a, ha, hida.symm, by rw [hida]⟩
  · rintro ⟨a, ha, rfl, rfl⟩
    refine ⟨_, List.mem_map_of_mem ha, ?_, rfl⟩
    split_ifs
    · exact congrArg (·.1) (hid a)
    · rfl

theorem column_touchAgents (hπ : ∀ a time, π { a with lastSeenAt := time } = π a) :
    (f.touchAgents seen).column π = f.column π := by
  refine column_map rfl (fun a => ?_) fun a => ?_
  · split
    all_goals rfl
  · split
    · exact hπ a _
    · rfl

theorem setAgentToken_eq_write {hash : Hash} :
    f.setAgentToken id tokenPrefix hash time =
      f.write
        ⟨id, fun a => { a with tokenPrefix := some tokenPrefix, tokenHash := hash, tokenIssuedAt := some time }, none⟩ := by
  by_cases h : ∃ a ∈ f.agents, a.id = id
  case pos =>
    have hany : f.agents.any (·.id = id) := by simpa using h
    simp only [write, updateAgentWith, updateAgent, hany, if_true, Except.map]
    rfl
  case neg =>
    have hne : ∀ a ∈ f.agents, a.id ≠ id := fun a ha hid => h ⟨a, ha, hid⟩
    have hany : ¬f.agents.any (·.id = id) := by simpa using hne
    unfold setAgentToken
    rw [map_of_forall_ne hne]
    simp [write, updateAgentWith, updateAgent, hany, Except.map]

end Fleet
end Store
