import Mathlib.Tactic.Common

-- Programs over a backend whose calls may fail. A call is one transaction: it takes the state of the
-- backend to the next one and has a result, or it fails and leaves the state as it is.
namespace Faults

-- The failures that lie ahead are given call by call. The calls beyond them do not fail.
structure Backend (σ ε : Type) where
  state : σ
  faults : List (Option ε) := []
  -- The states that the calls so far have left behind.
  past : List σ := []

abbrev Calls (σ ε : Type) := StateM (Backend σ ε)

variable {σ ε α β : Type}

def Backend.fault (b : Backend σ ε) : Option ε :=
  b.faults.headD none

def Backend.Clear (b : Backend σ ε) (n : Nat) : Prop :=
  ∀ f ∈ b.faults.take n, f = none

def Backend.after (b : Backend σ ε) (s : σ) : Backend σ ε where
  state := s
  faults := b.faults.tail
  past := b.past ++ [s]

def call (op : σ → Except ε (α × σ)) : Calls σ ε (Except ε α) := fun b =>
  match b.fault with
  | some e => (.error e, b.after b.state)
  | none =>
    match op b.state with
    | .error e => (.error e, b.after b.state)
    | .ok (x, s) => (.ok x, b.after s)

def change (f : σ → Except ε σ) : Calls σ ε (Except ε Unit) :=
  call fun s => (f s).map ((), ·)

def ask (f : σ → Except ε α) : Calls σ ε (Except ε α) := fun b =>
  match b.fault with
  | some e => (.error e, b.after b.state)
  | none => (f b.state, b.after b.state)

section Runs

variable {b : Backend σ ε}

@[simp]
theorem run_pure : (pure x : Calls σ ε α) b = (x, b) :=
  rfl

@[simp]
theorem run_bind (p : Calls σ ε α) (f : α → Calls σ ε β) : (p >>= f) b = f (p b).1 (p b).2 :=
  rfl

@[simp]
theorem ask_state (f : σ → Except ε α) : (ask f b).2 = b.after b.state := by
  unfold ask
  split <;> rfl

theorem ask_of_none (h : b.fault = none) : ask f b = (f b.state, b.after b.state) := by
  simp only [ask, h]

theorem ask_of_some (h : b.fault = some e) : ask f b = (.error e, b.after b.state) := by
  simp only [ask, h]

theorem call_of_none (h : b.fault = none) (hop : op b.state = .ok (x, s)) : call op b = (.ok x, b.after s) := by
  simp only [call, h, hop]

theorem Backend.clear_succ : b.Clear (n + 1) ↔ b.fault = none ∧ (b.after s).Clear n := by
  simp only [Clear, fault, after]
  cases b.faults <;> simp

theorem Backend.clear_one : b.Clear 1 ↔ b.fault = none := by
  rw [clear_succ (s := b.state)]
  simp [Clear]

theorem call_cases (op : σ → Except ε (α × σ)) (b : Backend σ ε) :
    (∃ e, call op b = (.error e, b.after b.state) ∧
      ∀ x s, ¬(b.fault = none ∧ op b.state = .ok (x, s))) ∨
    ∃ x s, b.fault = none ∧ op b.state = .ok (x, s) ∧ call op b = (.ok x, b.after s) := by
  cases hf : b.fault
  case some e => exact .inl ⟨e, by simp only [call, hf], by simp⟩
  case none =>
    cases hop : op b.state
    case error e => exact .inl ⟨e, by simp only [call, hf, hop], by simp⟩
    case ok r => exact .inr ⟨r.1, r.2, rfl, rfl, by simp only [call, hf, hop]⟩

theorem change_cases (f : σ → Except ε σ) (b : Backend σ ε) :
    (∃ e, change f b = (.error e, b.after b.state) ∧ ∀ s, ¬(b.fault = none ∧ f b.state = .ok s)) ∨
    ∃ s, b.fault = none ∧ f b.state = .ok s ∧ change f b = (.ok (), b.after s) := by
  have hmap (s : σ) : (f b.state).map ((), ·) = .ok ((), s) ↔ f b.state = .ok s := by
    cases f b.state <;> simp [Except.map]
  obtain ⟨e, hc, hno⟩ | ⟨_, s, hf, hop, hc⟩ := call_cases (fun s => (f s).map ((), ·)) b
  · exact .inl ⟨e, hc, fun s h => hno () s ⟨h.left, (hmap s).mpr h.right⟩⟩
  · exact .inr ⟨s, hf, (hmap s).mp hop, hc⟩

-- Programs that leave the state as it is, whatever fails.
def Reads (p : Calls σ ε α) : Prop :=
  ∀ b, (p b).2.state = b.state

theorem reads_pure : Reads (pure x : Calls σ ε α) :=
  fun _ => rfl

theorem reads_ask (f : σ → Except ε α) : Reads (ask f) := by
  intro b
  rw [ask_state]
  rfl

theorem Reads.bind (hp : Reads p) (hf : ∀ x, Reads (f x)) : Reads (p >>= f) := by
  intro b
  rw [run_bind, hf, hp]

-- Programs that keep what their calls keep.
def Keeps (I : σ → Prop) (p : Calls σ ε α) : Prop :=
  ∀ b, I b.state → I (p b).2.state

theorem Reads.keeps (hp : Reads p) : Keeps I p := by
  intro b hb
  rw [hp b]
  exact hb

theorem Keeps.bind (hp : Keeps I p) (hf : ∀ x, Keeps I (f x)) : Keeps I (p >>= f) :=
  fun b hb => hf _ _ (hp b hb)

theorem keeps_call {op : σ → Except ε (α × σ)} (h : ∀ s x s', I s → op s = .ok (x, s') → I s') : Keeps I (call op) := by
  intro b hb
  obtain ⟨e, hc, _⟩ | ⟨x, s, _, hop, hc⟩ := call_cases op b
  · rw [hc]
    exact hb
  · rw [hc]
    exact h b.state x s hb hop

theorem keeps_change {f : σ → Except ε σ} (h : ∀ s s', I s → f s = .ok s' → I s') : Keeps I (change f) := by
  intro b hb
  obtain ⟨e, hc, _⟩ | ⟨s, _, hop, hc⟩ := change_cases f b
  · rw [hc]
    exact hb
  · rw [hc]
    exact h b.state s hb hop

end Runs

end Faults
