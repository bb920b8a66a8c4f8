import Mathlib.Algebra.Order.Field.Basic
import Mathlib.Tactic.Linarith
import Mathlib.Tactic.Ring

-- Tokens that are refilled at a rate up to a capacity, and how many can be spent in a window of time.
namespace TokenBucket

variable {K : Type} [Field K] [LinearOrder K] [IsStrictOrderedRing K]

-- An account of what was spent in the window from `a` to `b`, if `credit` can still be spent at `time`.
structure Balanced (capacity rate a b spent time credit : K) : Prop where
  bound : spent ≤ capacity + rate * (b - a)
  early : time < a → spent = 0
  within : a ≤ time → time ≤ b → spent + credit ≤ capacity + rate * (time - a)

variable {capacity rate a b spent time credit : K}

theorem Balanced.start (hcap : 0 ≤ capacity) (hrate : 0 ≤ rate) (hab : a ≤ b) (hcredit : credit ≤ capacity) :
    Balanced capacity rate a b 0 time credit where
  bound := add_nonneg hcap (mul_nonneg hrate (sub_nonneg.mpr hab))
  early _ := rfl
  within ha _ := by
    have := mul_nonneg hrate (sub_nonneg.mpr ha)
    linarith

theorem Balanced.refill (h : Balanced capacity rate a b spent time credit) (hrate : 0 ≤ rate)
    (htime : time ≤ time') (hcap : credit' ≤ capacity) (hcredit : credit' ≤ credit + rate * (time' - time)) :
    Balanced capacity rate a b spent time' credit' where
  bound := h.bound
  early ht := h.early (htime.trans_lt ht)
  within ha hb := by
    obtain hlt | hle := lt_or_ge time a
    case inl =>
      have := mul_nonneg hrate (sub_nonneg.mpr ha)
      rw [h.early hlt]
      linarith
    case inr =>
      calc spent + credit'
        _ ≤ spent + credit + rate * (time' - time) := by linarith
        _ ≤ capacity + rate * (time - a) + rate * (time' - time) := by linarith [h.within hle (htime.trans hb)]
        _ = capacity + rate * (time' - a) := by ring

theorem Balanced.spend (h : Balanced capacity rate a b spent time credit) (hrate : 0 ≤ rate)
    (hcredit : n ≤ credit) :
    Balanced capacity rate a b (spent + if a ≤ time ∧ time ≤ b then n else 0) time (credit - n) where
  bound := by
    split_ifs with hin
    · have := mul_le_mul_of_nonneg_left (sub_le_sub_right hin.right a) hrate
      linarith [h.within hin.left hin.right]
    · linarith [h.bound]
  early ht := by
    rw [h.early ht, if_neg fun hin => ht.not_ge hin.left, add_zero]
  within ha hb := by
    rw [if_pos ⟨ha, hb⟩]
    linarith [h.within ha hb]

section Ideal

structure Decision (K : Type) where
  time : K
  amount : K
  allowed : Bool
deriving DecidableEq

def creditAt (capacity rate : K) : Option (K × K) → K → K
  | none, _ => capacity
  | some (credit, time), now => min capacity (credit + rate * (now - time))

-- A bucket that starts full, refills at all times, and gives all or nothing.
def ideal (capacity rate : K) : Option (K × K) → List (K × K) → List (Decision K)
  | _, [] => []
  | level, (now, n) :: calls =>
    let credit := creditAt capacity rate level now
    if n ≤ credit then
      { time := now, amount := n, allowed := true } :: ideal capacity rate (some (credit - n, now)) calls
    else
      { time := now, amount := n, allowed := false } :: ideal capacity rate (some (credit, now)) calls

def accepted (ds : List (Decision K)) : List (K × K) :=
  (ds.filter (·.allowed)).map fun d => (d.time, d.amount)

omit [IsStrictOrderedRing K] in
theorem ideal_cons (capacity rate : K) (level : Option (K × K)) (now n : K) (calls : List (K × K)) :
    let credit := creditAt capacity rate level now
    ideal capacity rate level ((now, n) :: calls) =
      { time := now, amount := n, allowed := n ≤ credit } ::
        ideal capacity rate (some (if n ≤ credit then credit - n else credit, now)) calls := by
  dsimp only
  rw [ideal]
  split_ifs with h <;> simp [h]

omit [IsStrictOrderedRing K] in
theorem creditAt_le (capacity rate : K) (level : Option (K × K)) (now : K) :
    creditAt capacity rate level now ≤ capacity := by
  cases level
  case none => exact le_rfl
  case some => exact min_le_left _ _

theorem creditAt_creditAt (hrate : 0 ≤ rate) (h : now ≤ later) :
    creditAt capacity rate (some (creditAt capacity rate level now, now)) later =
      creditAt capacity rate level later := by
  have hgain := mul_nonneg hrate (sub_nonneg.mpr h)
  cases level
  case none => exact min_eq_left (by simpa [creditAt] using hgain)
  case some p =>
    obtain ⟨credit, time⟩ := p
    have hsplit : rate * (later - time) = rate * (now - time) + rate * (later - now) := by ring
    simp only [creditAt, hsplit]
    obtain hle | hgt := le_total (credit + rate * (now - time)) capacity
    case inl => rw [min_eq_right hle, add_assoc]
    case inr => rw [min_eq_left hgt, min_eq_left (by linarith), min_eq_left (by linarith)]

omit [IsStrictOrderedRing K] in
theorem ideal_calls (capacity rate : K) (level : Option (K × K)) (calls : List (K × K)) :
    (ideal capacity rate level calls).map (fun d => (d.time, d.amount)) = calls := by
  induction calls generalizing level
  case nil => rfl
  case cons c calls hi =>
    rw [ideal_cons, List.map_cons, hi]

omit [IsStrictOrderedRing K] in
theorem mem_of_mem_accepted (h : c ∈ accepted (ideal capacity rate level calls)) : c ∈ calls := by
  rw [← ideal_calls capacity rate level calls]
  exact (List.filter_sublist.map _).subset h

omit [IsStrictOrderedRing K] in
theorem ideal_congr (h : ∀ c ∈ calls, creditAt capacity rate level c.1 = creditAt capacity rate level' c.1) :
    ideal capacity rate level calls = ideal capacity rate level' calls := by
  cases calls
  case nil => rfl
  case cons c calls => rw [ideal_cons, ideal_cons, h c List.mem_cons_self]

theorem ideal_accepted (hrate : 0 ≤ rate) (hcalls : calls.Pairwise fun c d => c.1 ≤ d.1) :
    ideal capacity rate level (accepted (ideal capacity rate level calls)) =
      (ideal capacity rate level calls).filter (·.allowed) := by
  induction calls generalizing level
  case nil => rfl
  case cons c calls hi =>
    obtain ⟨hc, hcalls⟩ := List.pairwise_cons.mp hcalls
    rw [ideal]
    split_ifs with hn
    case pos =>
      rw [List.filter_cons_of_pos rfl, accepted, List.filter_cons_of_pos rfl, List.map_cons, ideal]
      dsimp only
      rw [if_pos hn]
      exact congrArg _ (hi hcalls)
    case neg =>
      rw [List.filter_cons_of_neg (by simp), accepted, List.filter_cons_of_neg (by simp), ← accepted]
      refine (ideal_congr fun d hd => ?_).trans (hi hcalls)
      exact (creditAt_creditAt hrate (hc d (mem_of_mem_accepted hd))).symm

omit [IsStrictOrderedRing K] in
theorem ideal_of_neg (hcap : capacity < 0) (hcalls : ∀ c ∈ calls, 0 ≤ c.2) :
    ideal capacity rate level calls = calls.map fun c => { time := c.1, amount := c.2, allowed := false } := by
  induction calls generalizing level
  case nil => rfl
  case cons c calls hi =>
    have hn : ¬c.2 ≤ creditAt capacity rate level c.1 := by
      have hle := creditAt_le capacity rate level c.1
      exact not_le.mpr ((hle.trans_lt hcap).trans_le (hcalls c List.mem_cons_self))
    rw [ideal_cons, hi fun d hd => hcalls d (List.mem_cons_of_mem _ hd), decide_eq_false hn, List.map_cons]

end Ideal

end TokenBucket
