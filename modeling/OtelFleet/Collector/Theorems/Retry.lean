import OtelFleet.Collector.Theorems.Ideal

-- Whether a batch gets through when it is sent again after the delay that was asked for.
namespace Tenantquota

variable {r : Registry} {now : Int} {req : Request}

def after : Registry → List (Int × Request) → Registry
  | r, [] => r
  | r, (now, req) :: calls => after (r.take now req).2 calls

def missingTime (r : Registry) (now : Int) (req : Request) : ℚ :=
  (req.n - (r.refilled now req).tokens) / req.limit * 1000000000

section Hint

theorem trunc_of_nonneg (h : 0 ≤ x) : trunc x = ⌊x⌋ :=
  if_pos h

theorem retryHint_eq (h : retryHint deficit rate < 30 * second) (hpos : 0 ≤ deficit / rate * 1000000000) :
    retryHint deficit rate = max ⌊deficit / rate * 1000000000⌋ (second / 10) := by
  unfold retryHint at h ⊢
  rw [trunc_of_nonneg hpos] at h ⊢
  unfold second at h ⊢
  dsimp only at h ⊢
  split_ifs at h ⊢ <;> omega

theorem le_max_floor_iff {x : ℚ} : x ≤ (max ⌊x⌋ m : Int) ↔ x ≤ m ∨ x = ⌊x⌋ := by
  rw [Int.cast_max, le_max_iff, or_comm]
  exact or_congr_right ⟨fun h => le_antisymm h (Int.floor_le x), fun h => h.le⟩

end Hint

theorem enough_iff {n tokens rate : ℚ} (hrate : 0 < rate) {d : Int} :
    (n - tokens) / rate * 1000000000 ≤ d ↔ n ≤ tokens + rate * seconds d := by
  rw [div_mul_eq_mul_div, div_le_iff₀ hrate, seconds]
  constructor <;> intro h <;> linarith

section Between

theorem maybeGC_keeps (hb : r.buckets tenant = some b)
    (h : now - b.lastSeen < idleTimeout) : (r.maybeGC now).buckets tenant = some b := by
  obtain heq | ⟨-, heq⟩ := maybeGC_cases r now
  case inl => rw [heq, hb]
  case inr =>
    rw [heq]
    simp only [Registry.sweep, hb]
    exact Option.filter_some_pos (by simpa using h)

theorem after_keeps (hb : r.buckets tenant = some b)
    (h : ∀ c ∈ calls, c.2.tenant ≠ tenant ∧ c.1 - b.lastSeen < idleTimeout) :
    (after r calls).buckets tenant = some b := by
  induction calls generalizing r
  case nil => exact hb
  case cons c calls hi =>
    obtain ⟨htenant, htime⟩ := h c List.mem_cons_self
    refine hi ?_ fun d hd => h d (List.mem_cons_of_mem _ hd)
    rw [take_other r c.1 htenant, maybeGC_keeps hb htime]

theorem refilled_again (hb : (r.maybeGC now).buckets req.tenant = some b) (htime : b.lastSeen ≤ now)
    (hrate : b.rate = req.limit) :
    (r.refilled now req).tokens =
      min (req.limit * r.burstSeconds) (b.tokens + req.limit * seconds (now - b.lastSeen)) := by
  unfold Registry.refilled Registry.bucket
  rw [hb]
  dsimp only
  rw [Option.getD_some, Bucket.refill_tokens_eq htime, hrate, seconds_sub]

theorem after_burstSeconds (r : Registry) (calls : List (Int × Request)) :
    (after r calls).burstSeconds = r.burstSeconds := by
  induction calls generalizing r
  case nil => rfl
  case cons c calls hi => exact (hi _).trans (take_burstSeconds r c.1 c.2)

end Between

-- A batch that would fit, and is sent again after the delay, gets through if the time that is missing
-- is at most a tenth of a second or a whole number of nanoseconds.
theorem retry_iff (hlimit : 1 ≤ req.limit) (hn : req.n ≤ req.limit * r.burstSeconds)
    (hrejected : (r.take now req).1.allowed = false)
    (hhint : (r.take now req).1.retryAfter < 30 * second) (between : List (Int × Request))
    (hbetween : ∀ c ∈ between, c.2.tenant ≠ req.tenant ∧ c.1 ≤ now + (r.take now req).1.retryAfter) :
    ((after (r.take now req).2 between).take (now + (r.take now req).1.retryAfter) req).1.allowed ↔
      missingTime r now req ≤ 100000000 ∨ missingTime r now req = ⌊missingTime r now req⌋ := by
  have hrate : (0 : ℚ) < req.limit := by exact_mod_cast hlimit
  set b := r.refilled now req with hbdef
  have hmissing : ¬(req.n : ℚ) ≤ b.tokens := by simpa [take_allowed] using hrejected
  have hpos : 0 ≤ missingTime r now req :=
    mul_nonneg (div_nonneg (sub_nonneg.mpr (not_le.mp hmissing).le) hrate.le) (by norm_num)
  set d := (r.take now req).1.retryAfter with hd
  have hdelay : d = max ⌊missingTime r now req⌋ (second / 10) := by
    have hretry : d = retryHint (req.n - b.tokens) req.limit := by
      rw [hd, Registry.take, if_neg hmissing]
    rw [hretry] at hhint ⊢
    exact retryHint_eq hhint hpos
  have hd0 : 0 ≤ d := by
    rw [hdelay]
    exact le_max_of_le_right (by decide)
  have hshort : d < idleTimeout := hhint.trans (by decide)
  have hkept : (r.take now req).2.buckets req.tenant = some b := by
    rw [take_own, if_neg hmissing]
  have hafter := after_keeps hkept fun c hc => ⟨(hbetween c hc).1, by
    have := (hbetween c hc).2
    rw [refilled_lastSeen]
    omega⟩
  set r' := after (r.take now req).2 between with hr'
  have hburst : r'.burstSeconds = r.burstSeconds := by rw [hr', after_burstSeconds, take_burstSeconds]
  have hgc : (r'.maybeGC (now + d)).buckets req.tenant = some b :=
    maybeGC_keeps hafter (by rw [refilled_lastSeen]; omega)
  have htokens := refilled_again hgc (by rw [refilled_lastSeen]; omega) (refilled_rate r now req)
  rw [refilled_lastSeen, add_sub_cancel_left, hburst] at htokens
  have henough : missingTime r now req ≤ d ↔ req.n ≤ b.tokens + req.limit * seconds d := enough_iff hrate
  rw [take_allowed, htokens, decide_eq_true_iff, le_min_iff, and_iff_right hn, ← henough, hdelay, le_max_floor_iff]
  norm_num [second]

section Sample

def retried (limit : Int) (n : Nat) : Request :=
  { tenant := "cust_acme", limit := limit, n := n }

def usedUp (limit : Int) (n : Nat) : Registry :=
  ((newRegistry 1).take 0 (retried limit n)).2

-- One item at two items a second is half a second.
theorem half_second_later :
    ((usedUp 2 2).take 0 (retried 2 1)).1 = { allowed := false, retryAfter := 500000000 } ∧
      ((after ((usedUp 2 2).take 0 (retried 2 1)).2 []).take (0 + ((usedUp 2 2).take 0 (retried 2 1)).1.retryAfter)
        (retried 2 1)).1.allowed := by
  refine ⟨by decide +kernel, ?_⟩
  exact (retry_iff (by decide) (by decide +kernel) (by decide +kernel) (by decide +kernel) [] (by decide)).mpr
    (.inr (by decide +kernel))

-- One item at three items a second is a third of a second, which is cut off after nine digits.
theorem third_second_later :
    ((usedUp 3 3).take 0 (retried 3 1)).1 = { allowed := false, retryAfter := 333333333 } ∧
      (((usedUp 3 3).take 0 (retried 3 1)).2.take 333333333 (retried 3 1)).1.allowed = false := by
  decide +kernel

end Sample

end Tenantquota
