import Mathlib.Data.List.Basic
import Mathlib.Tactic.IntervalCases

-- The listener that takes notifications from the database to a handler.
namespace Pgnotify

variable {α : Type}

-- Where the loop stands: it acquires a connection and listens, waits for a notification, runs the
-- handler on one, or sleeps before the next attempt, for a number of seconds.
inductive Phase (α : Type) where
  | connecting
  | listening
  | handling (payload : α)
  | waiting (delay : Nat)
  | stopped

inductive Entry (α : Type) where
  | notified (payload : α)
  | handled (payload : α)

structure Listener (α : Type) where
  phase : Phase α := .connecting
  -- The delay in seconds before the next attempt.
  backoff : Nat := 1
  -- Whether the database has a session that listens, and what was sent to it and is not received yet.
  alive : Bool := false
  inbox : List α := []
  -- For the record, what was notified and handled, and how often an attempt or a session has failed.
  log : List (Entry α) := []
  failures : Nat := 0

inductive Event (α : Type) where
  -- A notification is committed.
  | notify (payload : α)
  -- A connection is acquired and listens, unless that fails.
  | connect (ok : Bool)
  -- The wait returns the next notification, and the handler is called.
  | receive
  | handled
  -- The connection drops. Some of what was sent may still arrive.
  | drop (kept : Nat)
  -- The wait returns an error.
  | fail
  | elapse
  | cancel

def Listener.retry (s : Listener α) : Listener α :=
  { s with
    phase := .waiting s.backoff
    backoff := if s.backoff < 30 then s.backoff * 2 else s.backoff
    failures := s.failures + 1 }

-- An event that cannot happen in a state is ignored.
def Listener.next (s : Listener α) : Event α → Listener α
  | .notify payload =>
    { s with
      log := s.log ++ [.notified payload]
      -- Only a session that listens when the notification commits is sent it.
      inbox := if s.alive then s.inbox ++ [payload] else s.inbox }
  | .connect ok =>
    match s.phase with
    | .connecting => if ok then { s with phase := .listening, alive := true, inbox := [] } else s.retry
    | _ => s
  | .receive =>
    match s.phase, s.inbox with
    | .listening, payload :: rest =>
      { s with phase := .handling payload, inbox := rest, log := s.log ++ [.handled payload] }
    | _, _ => s
  | .handled =>
    match s.phase with
    | .handling _ => { s with phase := .listening }
    | _ => s
  | .drop kept => if s.alive then { s with alive := false, inbox := s.inbox.take kept } else s
  | .fail =>
    -- The wait never ends without an error, so the loop does not get to reset the delay.
    match s.phase with
    | .listening => if s.inbox.isEmpty ∧ ¬s.alive then s.retry else s
    | _ => s
  | .elapse =>
    match s.phase with
    | .waiting _ => { s with phase := .connecting }
    | _ => s
  | .cancel => { s with phase := .stopped, alive := false }

def Listener.run (s : Listener α) (events : List (Event α)) : Listener α :=
  events.foldl Listener.next s

structure Listener.Idle (s : Listener α) : Prop where
  listening : s.phase = .listening
  alive : s.alive
  received : s.inbox = []

-- The handler has run since the last notification with this payload.
def Served (log : List (Entry α)) (payload : α) : Prop :=
  ∀ before after, log = before ++ .notified payload :: after → .notified payload ∉ after →
    .handled payload ∈ after

-- Nothing is notified while no session listens, and nothing is on its way when a connection drops.
def Lossless (s : Listener α) : List (Event α) → Prop
  | [] => True
  | event :: events =>
    (match event with
      | .notify _ => s.alive = true
      | .drop kept => s.inbox.length ≤ kept
      | _ => True) ∧ Lossless (s.next event) events

section Delivery

structure Delivering (s : Listener α) : Prop where
  pending : ∀ payload before after, s.log = before ++ .notified payload :: after →
    .notified payload ∉ after → .handled payload ∈ after ∨ payload ∈ s.inbox
  -- Between two sessions there is nothing left to receive.
  between : s.phase = .connecting ∨ (∃ delay, s.phase = .waiting delay) → s.inbox = [] ∧ s.alive = false

theorem eq_concat_cases (h : l ++ [x] = before ++ y :: after) :
    (after = [] ∧ x = y ∧ l = before) ∨ ∃ rest, after = rest ++ [x] ∧ l = before ++ y :: rest := by
  obtain rfl | ⟨rest, z, rfl⟩ := after.eq_nil_or_concat
  · have ⟨hl, hx⟩ := List.append_inj' h rfl
    exact .inl ⟨rfl, by simpa using hx, hl⟩
  · have h : l ++ [x] = (before ++ y :: rest) ++ [z] := by simpa using h
    have ⟨hl, hx⟩ := List.append_inj' h rfl
    exact .inr ⟨rest, by simp_all, hl⟩

theorem Delivering.notify (h : Delivering s) (ha : s.alive = true) (payload : α) :
    Delivering (s.next (.notify payload)) where
  pending p before after hl hn := by
    simp only [Listener.next, ha, if_true, List.mem_append, List.mem_singleton]
    obtain ⟨rfl, he, rfl⟩ | ⟨rest, rfl, hlog⟩ := eq_concat_cases hl
    · cases he
      exact .inr (.inr rfl)
    · simp only [List.mem_append, not_or] at hn ⊢
      obtain hd | hd := h.pending p before rest hlog hn.left
      · exact .inl (.inl hd)
      · exact .inr (.inl hd)
  between hp := by
    have hb := (h.between hp).right
    rw [ha] at hb
    cases hb

theorem Delivering.receive (h : Delivering s) : Delivering (s.next .receive) := by
  simp only [Listener.next]
  split
  case _ payload inbox hp hi =>
    refine ⟨fun p before after hl hn => ?_, nofun⟩
    obtain ⟨_, he, _⟩ | ⟨rest, rfl, hlog⟩ := eq_concat_cases hl
    · cases he
    · simp only [List.mem_append, not_or, List.mem_singleton, Entry.handled.injEq] at hn ⊢
      obtain hd | hd := h.pending p before rest hlog hn.left
      · exact .inl (.inl hd)
      · rw [hi] at hd
        exact (List.mem_cons.mp hd).imp .inr id
  case _ => exact h

theorem Delivering.next (h : Delivering s) (hok : Lossless s [event]) : Delivering (s.next event) := by
  cases event
  case notify payload => exact h.notify hok.left payload
  case receive => exact h.receive
  case connect ok =>
    simp only [Listener.next]
    split
    case _ hp =>
      have ⟨hi, ha⟩ := h.between (.inl hp)
      cases ok
      case false => exact ⟨h.pending, fun _ => ⟨hi, ha⟩⟩
      case true => exact ⟨hi ▸ h.pending, nofun⟩
    case _ => exact h
  case handled =>
    simp only [Listener.next]
    split
    case _ => exact ⟨h.pending, nofun⟩
    case _ => exact h
  case drop kept =>
    simp only [Listener.next]
    split_ifs
    case pos =>
      have hk : s.inbox.take kept = s.inbox := List.take_of_length_le hok.left
      exact ⟨fun p before after hl hn => hk.symm ▸ h.pending p before after hl hn,
        fun hp => ⟨hk.trans (h.between hp).left, rfl⟩⟩
    case neg => exact h
  case fail =>
    simp only [Listener.next]
    split
    case _ =>
      split_ifs with hi
      · have hb : s.inbox = [] ∧ s.alive = false := by simpa using hi
        exact ⟨h.pending, fun _ => hb⟩
      · exact h
    case _ => exact h
  case elapse =>
    simp only [Listener.next]
    split
    case _ delay hp => exact ⟨h.pending, fun _ => h.between (.inr ⟨delay, hp⟩)⟩
    case _ => exact h
  case cancel => exact ⟨h.pending, nofun⟩

theorem Delivering.run (h : Delivering s) (hok : Lossless s events) : Delivering (s.run events) := by
  induction events generalizing s
  case nil => exact h
  case cons event events hi => exact hi (h.next ⟨hok.left, trivial⟩) hok.right

theorem Delivering.init : @Delivering α {} where
  pending _ before _ hl := by simp at hl
  between _ := ⟨rfl, rfl⟩

end Delivery

section Backoff

theorem double_min (n : Nat) :
    (if min (2 ^ n) 32 < 30 then min (2 ^ n) 32 * 2 else min (2 ^ n) 32) = min (2 ^ (n + 1)) 32 := by
  by_cases hn : n < 5
  case pos => interval_cases n <;> rfl
  case neg =>
    have h : 2 ^ 5 ≤ 2 ^ n := Nat.pow_le_pow_right (by decide) (by omega)
    rw [pow_succ, if_neg (by omega)]
    omega

def Grown (s : Listener α) : Prop :=
  s.backoff = min (2 ^ s.failures) 32

theorem Grown.retry (h : Grown s) : Grown s.retry := by
  have := double_min s.failures
  rw [Grown] at h
  rw [← h] at this
  exact this

theorem Grown.next (h : Grown s) (event : Event α) : Grown (s.next event) := by
  cases event <;> simp only [Listener.next]
  case notify | cancel => exact h
  case connect ok =>
    split
    case _ => split_ifs <;> [exact h; exact h.retry]
    case _ => exact h
  case fail =>
    split
    case _ => split_ifs <;> [exact h.retry; exact h]
    case _ => exact h
  all_goals split <;> exact h

theorem Grown.run (h : Grown s) (events : List (Event α)) : Grown (s.run events) := by
  induction events generalizing s
  case nil => exact h
  case cons event events hi => exact hi (h.next event)

end Backoff

-- After a run without losses everything is served once the listener is idle, and the delay after a drop
-- is one second exactly if nothing has ever failed before.
theorem listen_delivers_and_retries (events : List (Event α)) :
    let s := Listener.run {} events
    (Lossless {} events → s.Idle → ∀ payload, Served s.log payload) ∧
      (s.phase = .listening → s.inbox = [] → s.alive = false →
        (s.next .fail).phase = .waiting (min (2 ^ s.failures) 32) ∧
          (min (2 ^ s.failures) 32 = 1 ↔ s.failures = 0)) := by
  refine ⟨fun hok hidle payload before after hl hn => ?_, fun hp hi ha => ⟨?_, ?_⟩⟩
  · have hpending := (Delivering.init.run hok).pending payload before after hl hn
    rw [hidle.received] at hpending
    exact hpending.resolve_right List.not_mem_nil
  · have hg : Grown (@Listener.run α {} events) := Grown.run (show Grown {} from rfl) events
    simp only [Listener.next, hp, hi, ha, List.isEmpty_nil]
    rw [← hg]
    rfl
  · generalize (@Listener.run α {} events).failures = n
    cases n
    case zero => simp
    case succ n =>
      have : 2 ≤ 2 ^ (n + 1) := Nat.le_self_pow (by omega) 2
      omega

def firstSession : List (Event Nat) :=
  [.connect true, .notify 7, .receive, .handled, .drop 0]

def twoSessions : List (Event Nat) :=
  firstSession ++ [.fail, .elapse, .connect true, .notify 7, .notify 8, .receive, .handled, .receive, .handled]

theorem twoSessions_delivered :
    let s := Listener.run {} twoSessions
    s.log = [.notified 7, .handled 7, .notified 7, .notified 8, .handled 7, .handled 8] ∧
      (∀ payload, Served s.log payload) ∧
      ((Listener.run {} (twoSessions ++ [.drop 0])).next .fail).phase = .waiting 2 := by
  refine ⟨rfl, ?_, ((listen_delivers_and_retries (twoSessions ++ [.drop 0])).right rfl rfl rfl).left⟩
  exact (listen_delivers_and_retries twoSessions).left
    ⟨trivial, rfl, trivial, trivial, Nat.le_refl 0, trivial, trivial, trivial, rfl, rfl, trivial, trivial, trivial,
      trivial, trivial⟩ ⟨rfl, rfl, rfl⟩

-- A notification is committed before the listener is back, and the next drop finds the delay doubled.
theorem notification_lost :
    let s := Listener.run {} (firstSession ++ [.notify 7, .fail, .elapse, .connect true])
    s.Idle ∧ ¬Served s.log 7 ∧ ((s.next (.drop 0)).next .fail).phase = .waiting 2 := by
  refine ⟨⟨rfl, rfl, rfl⟩, fun h => ?_, rfl⟩
  have := h [.notified 7, .handled 7] [] rfl List.not_mem_nil
  cases this

end Pgnotify
