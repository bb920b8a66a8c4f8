import OtelFleet.Webhooks.Queue

open Interleave (Carried System Config)
open System (shown)

-- Which events the queue loses, and in which order the others leave it.
namespace Webhooks.Queue

section Ops

def enqueued (trace : List Op) : List Event :=
  trace.filterMap Op.enqueued?

def removed (trace : List Op) : List Event :=
  trace.filterMap Op.removed?

def dispatched (trace : List Op) : List Event :=
  trace.filterMap Op.dispatched?

theorem enqueued_append (t t' : List Op) : enqueued (t ++ t') = enqueued t ++ enqueued t' :=
  List.filterMap_append

theorem removed_append (t t' : List Op) : removed (t ++ t') = removed t ++ removed t' :=
  List.filterMap_append

theorem dispatched_sublist_removed (trace : List Op) : (dispatched trace).Sublist (removed trace) := by
  induction trace
  case nil => exact .slnil
  case cons op trace hi =>
    cases op
    case enqueued evt => exact hi
    case dropped evt n => exact hi.cons evt
    case dispatched evt => exact hi.cons_cons evt

end Ops

section Steps

theorem removed_ops_append (queue : List Event) (k : Call) :
    removed (ops () queue k) ++ (step () queue k).2 = queue ++ enqueued (ops () queue k) := by
  cases k
  case idle => simp [ops, step, removed, enqueued]
  case publishing evt =>
    simp only [ops, step]
    split_ifs <;> simp [removed, enqueued, Op.removed?, Op.enqueued?]
  all_goals cases queue <;> simp [ops, step, removed, enqueued, Op.removed?, Op.enqueued?]

def Call.event? : Call → Option Event
  | .publishing evt | .crowded evt => some evt
  | _ => none

theorem enqueued_ops_append (queue : List Event) (k : Call) :
    enqueued (ops () queue k) ++ (step () queue k).1.event?.toList = k.event?.toList := by
  cases k
  case idle => rfl
  case publishing evt =>
    simp only [ops, step]
    split_ifs <;> simp [enqueued, Op.enqueued?, Call.event?]
  all_goals cases queue <;> simp [ops, step, enqueued, Op.enqueued?, Call.event?]

theorem length_step_le (h : queue.length ≤ queueSize) : (step () queue k).2.length ≤ queueSize := by
  cases k
  case idle => exact h
  case publishing evt =>
    simp only [step]
    split_ifs with hroom
    · rw [List.length_append]
      exact hroom
    · exact h
  all_goals
    simp only [step, List.length_tail]
    omega

theorem step_eq_crowded (h : (step () queue k).1 = .crowded evt) :
    queueSize ≤ queue.length ∧ (step () queue k).2 = queue := by
  cases k
  case publishing evt' =>
    simp only [step] at h ⊢
    split_ifs at h ⊢ with hroom
    · exact ⟨by omega, rfl⟩
  all_goals cases h

theorem dropped_mem_ops (h : .dropped evt n ∈ ops () queue k) :
    (∃ evt', k = .crowded evt') ∧ n = queue.length ∧ queue ≠ [] := by
  cases k
  case crowded evt' =>
    simp only [ops, List.mem_map, Option.mem_toList, Op.dropped.injEq] at h
    obtain ⟨evt, hhead, -, rfl⟩ := h
    refine ⟨⟨evt', rfl⟩, rfl, ?_⟩
    rintro rfl
    cases hhead
  case publishing evt' =>
    simp only [ops] at h
    split_ifs at h <;> simp at h
  all_goals simp [ops] at h

end Steps

section Runs

theorem removed_trace_append (c : Config) (events : Schedule) :
    removed (system.trace ops c events) ++ (system.run c events).shared =
      c.shared ++ enqueued (system.trace ops c events) := by
  induction events generalizing c
  case nil => simp [System.trace, removed, enqueued]
  case cons e es hi =>
    have hstep : removed (shown ops c e) ++ (system.act c e).shared = c.shared ++ enqueued (shown ops c e) := by
      cases e
      case start i r =>
        simp only [shown, System.act]
        split_ifs <;> simp [removed, enqueued]
      case run i x => exact removed_ops_append c.shared (c.calls i)
    rw [System.trace, removed_append, enqueued_append, System.run_cons, List.append_assoc, hi,
      ← List.append_assoc, hstep, List.append_assoc]

theorem length_run (c : Config) (events : Schedule) :
    (removed (system.trace ops c events)).length + (system.run c events).shared.length =
      c.shared.length + (enqueued (system.trace ops c events)).length := by
  simpa using congrArg List.length (removed_trace_append c events)

theorem length_run_le (events : Schedule) : (system.run empty events).shared.length ≤ queueSize := by
  refine (System.Stable.always (S := system) (G := fun queue => queue.length ≤ queueSize)
    (L := fun _ _ => True) ?_ (Nat.zero_le _) trivial events).left
  exact ⟨fun _ _ _ => trivial, fun _ _ _ h _ _ => length_step_le h, fun _ _ _ _ _ _ => trivial,
    fun _ _ _ _ _ _ _ _ => trivial⟩

theorem carried_act (h : Carried Call.event? c.calls pending) (e : Interleave.Event Role Unit) :
    ∃ pending', Carried Call.event? (system.act c e).calls pending' ∧
      (enqueued (shown ops c e) ++ pending').Perm (pending ++ begunBy c e) := by
  cases e
  case start i r =>
    by_cases hidle : (c.calls i).isIdle
    case pos =>
      have hact : (system.act c (.start i r)).calls = Function.update c.calls i r.begin :=
        congrArg Config.calls (if_pos hidle)
      have hnone : (c.calls i).event? = none := by
        cases hk : c.calls i <;> simp_all [Call.isIdle, Call.event?]
      obtain ⟨rest, hrest, hcarried⟩ := h.update i r.begin
      refine ⟨_, hact ▸ hcarried, ?_⟩
      rw [hnone] at hrest
      have hbegun : begunBy c (.start i r) = r.begin.event?.toList := by
        cases r
        case publish evt => exact if_pos hidle
        case run => rfl
      rw [hbegun]
      change (r.begin.event?.toList ++ rest).Perm _
      exact List.perm_append_comm.trans (hrest.symm.append_right _)
    case neg =>
      have hact : system.act c (.start i r) = c := if_neg hidle
      have hbegun : begunBy c (.start i r) = [] := by
        cases r
        case publish evt => exact if_neg hidle
        case run => rfl
      refine ⟨pending, by rwa [hact], ?_⟩
      rw [hbegun, List.append_nil]
      rfl
  case run i x =>
    obtain ⟨rest, hrest, hcarried⟩ := h.update i (step () c.shared (c.calls i)).1
    refine ⟨_, hcarried, ?_⟩
    change (enqueued (ops () c.shared (c.calls i)) ++ _).Perm (pending ++ [])
    rw [← List.append_assoc, enqueued_ops_append, List.append_nil]
    exact hrest.symm

theorem enqueued_perm (h : Carried Call.event? c.calls pending) (events : Schedule) :
    ∃ pending', (enqueued (system.trace ops c events) ++ pending').Perm (pending ++ published c events) := by
  induction events generalizing c pending
  case nil => exact ⟨pending, by simp [System.trace, enqueued, published]⟩
  case cons e es hi =>
    obtain ⟨carried, hcarried, hfirst⟩ := carried_act h e
    obtain ⟨pending', hrest⟩ := hi hcarried
    refine ⟨pending', ?_⟩
    rw [System.trace, enqueued_append, published, List.append_assoc, ← List.append_assoc pending]
    refine (hrest.append_left _).trans ?_
    rw [← List.append_assoc]
    exact hfirst.append_right _

theorem enqueued_subperm (events : Schedule) :
    (enqueued (system.trace ops empty events)).Subperm (published empty events) := by
  have hnone : Carried Call.event? empty.calls [] := ⟨[], .nil, fun _ _ => rfl, .rfl⟩
  obtain ⟨pending, h⟩ := enqueued_perm hnone events
  exact (List.sublist_append_left _ _).subperm.trans h.subperm

theorem dispatched_sublist (events : Schedule) :
    (dispatched (system.trace ops empty events)).Sublist (enqueued (system.trace ops empty events)) := by
  refine (dispatched_sublist_removed _).trans ?_
  have h := removed_trace_append empty events
  rw [show empty.shared ++ _ = enqueued (system.trace ops empty events) from List.nil_append _] at h
  rw [← h]
  exact List.sublist_append_left _ _

-- A publisher whom nobody gets in the way of drops the oldest event when the queue is full.
theorem shared_publish_alone (hidle : (c.calls i).isIdle) (hlen : c.shared.length ≤ queueSize) (evt : Event) :
    (system.run c [.start i (.publish evt), .run i (), .run i (), .run i ()]).shared = publish c.shared evt := by
  have hstart : system.act c (.start i (.publish evt)) =
      { c with calls := Function.update c.calls i (.publishing evt) } := if_pos hidle
  simp only [System.run_cons, System.run_nil, hstart, publish]
  simp only [System.act, system, Function.update_self, step]
  by_cases hroom : c.shared.length < queueSize
  case pos => simp [hroom]
  case neg =>
    have hpos : 0 < queueSize := by decide
    have htail : c.shared.length - 1 < queueSize := by omega
    simp [hroom, htail]

end Runs

section Overflow

-- What the queue is to guarantee.
structure Orderly (events : Schedule) : Prop where
  -- Events are dropped from a full queue only.
  overflow : ∀ evt n, .dropped evt n ∈ system.trace ops empty events → n = queueSize
  -- Events are dispatched no more often than they are published, and in the order in which they are put in.
  once : (dispatched (system.trace ops empty events)).Subperm (published empty events)
  order : (dispatched (system.trace ops empty events)).Sublist (enqueued (system.trace ops empty events))

-- A publisher has just found out that there is no room.
def FindsFull (c : Config) (i : Nat) : Prop :=
  ∃ evt, (system.act c (.run i ())).calls i = .crowded evt

-- Whenever a publisher finds the queue full and then finds something to drop, others have put in as many events
-- as they have taken out in the meantime.
def Balanced (events : Schedule) : Prop :=
  ∀ pre i mid post, events = pre ++ .run i () :: (mid ++ .run i () :: post) → .run i () ∉ mid →
    FindsFull (system.run empty pre) i → (system.run empty (pre ++ .run i () :: mid)).shared ≠ [] →
      (enqueued (system.trace ops (system.run empty (pre ++ [.run i ()])) mid)).length =
        (removed (system.trace ops (system.run empty (pre ++ [.run i ()])) mid)).length

theorem length_after_wait (h : FindsFull (system.run empty pre) i) (mid : Schedule) :
    (removed (system.trace ops (system.run empty (pre ++ [.run i ()])) mid)).length +
        (system.run empty (pre ++ .run i () :: mid)).shared.length =
      queueSize + (enqueued (system.trace ops (system.run empty (pre ++ [.run i ()])) mid)).length := by
  obtain ⟨evt, hevt⟩ := h
  have hafter : system.run empty (pre ++ [.run i ()]) = system.act (system.run empty pre) (.run i ()) :=
    System.run_append pre [.run i ()]
  have hfull : (system.run empty (pre ++ [.run i ()])).shared.length = queueSize := by
    rw [System.calls_act_self] at hevt
    obtain ⟨hge, hsame⟩ := step_eq_crowded hevt
    have hle := length_run_le pre
    rw [hafter, show (system.act (system.run empty pre) (.run i ())).shared = _ from hsame]
    omega
  have hlen := length_run (system.run empty (pre ++ [.run i ()])) mid
  rw [hfull, ← System.run_append, List.append_assoc] at hlen
  exact hlen

theorem crowded_after_wait
    (h : (system.act (system.run empty pre) (.run i ())).calls i = .crowded evt) (hmid : .run i () ∉ mid) :
    (system.run empty (pre ++ .run i () :: mid)).calls i = .crowded evt := by
  rw [System.run_append, System.run_cons, System.calls_run_of_busy _ fun _ => hmid, h]
  rw [h]
  rfl

-- The queue is orderly when nobody gets in the way of those who make room.
theorem orderly_iff (events : Schedule) : Orderly events ↔ Balanced events := by
  constructor
  case mp =>
    rintro h pre i mid post rfl hmid hfull hne
    have hlen := length_after_wait hfull mid
    obtain ⟨evt, hevt⟩ := hfull
    have hcall := crowded_after_wait hevt hmid
    obtain ⟨oldest, queue, hq⟩ := List.exists_cons_of_ne_nil hne
    have hdrop : .dropped oldest (queue.length + 1) ∈
        system.trace ops empty (pre ++ .run i () :: (mid ++ .run i () :: post)) := by
      refine System.mem_trace.mpr ⟨pre ++ .run i () :: mid, .run i (), post, by simp, ?_⟩
      simp [shown, hcall, hq, ops]
    have hn := h.overflow _ _ hdrop
    rw [hq, List.length_cons] at hlen
    omega
  case mpr =>
    intro h
    refine ⟨fun evt n hdrop => ?_, ?_, dispatched_sublist events⟩
    · obtain ⟨before, e, post, rfl, hshown⟩ := System.mem_trace.mp hdrop
      cases e
      case start => cases hshown
      case run i x =>
        obtain ⟨⟨waiting, hcall⟩, rfl, hne⟩ := dropped_mem_ops hshown
        have hbegin : ∀ r, system.begin r ≠ .crowded waiting := by rintro (_ | _) <;> nofun
        have hfirst : empty.calls i ≠ .crowded waiting := nofun
        obtain ⟨pre, ⟨⟩, mid, rfl, hmid, hlast⟩ := System.exists_last_run hfirst hbegin hcall
        have hlen := length_after_wait ⟨waiting, hlast⟩ mid
        have hsame := h pre i mid post (by simp) (hmid ()) ⟨waiting, hlast⟩ hne
        change (system.run empty (pre ++ .run i () :: mid)).shared.length = queueSize
        omega
    · exact (dispatched_sublist events).subperm.trans (enqueued_subperm events)

end Overflow

section Samples

def sampleEvent (n : Int) : Event where
  eventType := .agentOffline
  agentID := 1
  customerID := 1
  detail := []
  occurredAt := n

def fill : Schedule :=
  (List.range queueSize).flatMap fun n => [.start 0 (.publish (sampleEvent n)), .run 0 ()]

def hasty : Schedule :=
  fill ++ [.start 0 (.publish (sampleEvent queueSize)), .run 0 (), .start 1 .run, .run 1 (), .run 0 ()]

theorem hasty_drop : .dropped (sampleEvent 1) 255 ∈ system.trace ops empty hasty ∧ ¬Orderly hasty := by
  have hdrop : .dropped (sampleEvent 1) 255 ∈ system.trace ops empty hasty := by decide +kernel
  exact ⟨hdrop, fun h => absurd (h.overflow _ _ hdrop) (by decide)⟩

end Samples

end Webhooks.Queue
