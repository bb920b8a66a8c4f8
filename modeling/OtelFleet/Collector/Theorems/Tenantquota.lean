import OtelFleet.Collector.Tenantquota
import OtelFleet.Lib.TokenBucket
import Mathlib.Data.Rat.Cast.Order
import Mathlib.Tactic.NormNum

-- How many items of a tenant get through in a window of time.
namespace Tenantquota

open TokenBucket (Balanced)
open Interleave (Event)

section Seconds

theorem seconds_sub (t t' : Int) : seconds (t - t') = seconds t - seconds t' := by
  simp [seconds, sub_div]

theorem seconds_le_iff : seconds t ≤ seconds t' ↔ t ≤ t' := by
  unfold seconds
  rw [div_le_div_iff_of_pos_right (by norm_num)]
  exact Int.cast_le

theorem seconds_pos_iff : 0 < seconds t ↔ 0 < t := by
  rw [← not_le, ← not_le, ← seconds_le_iff]
  simp [seconds]

end Seconds

section Refill

variable {b : Bucket} {rate capacity : ℚ}

theorem Bucket.refill_tokens_le : (b.refill now rate capacity).tokens ≤ capacity := by
  simp only [Bucket.refill]
  split_ifs with _ h
  all_goals first | exact le_rfl | exact not_lt.mp ‹_›

theorem Bucket.refill_tokens (h : b.lastSeen ≤ now) (hrate : 0 ≤ b.rate) :
    (b.refill now rate capacity).tokens ≤ b.tokens + b.rate * (seconds now - seconds b.lastSeen) := by
  have hdt : 0 ≤ b.rate * (seconds now - seconds b.lastSeen) :=
    mul_nonneg hrate (sub_nonneg.mpr (seconds_le_iff.mpr h))
  simp only [Bucket.refill, seconds_sub]
  split_ifs <;> linarith

end Refill

section Condition

variable (tenant : String)

def Bucket.FullAt (b : Bucket) (now : Int) : Prop :=
  b.capacity ≤ b.tokens + b.rate * seconds (now - b.lastSeen)

-- No call of the tenant comes too late to the lock: its time is not before the one that the bucket was
-- last used at or, if the bucket is gone, the one of the last sweep.
def InTime (log : List Taken) (r : Registry) (now : Int) : Prop :=
  (∀ b ∈ r.buckets tenant, b.lastSeen ≤ now) ∧
    (r.buckets tenant = none → (∃ t ∈ log, t.request.tenant = tenant) → r.lastGC ≤ now)

-- A sweep does not remove the bucket of the tenant before it is full again.
def SweptFull (r : Registry) (now : Int) : Prop :=
  ∀ b ∈ r.buckets tenant, (r.maybeGC now).buckets tenant = none → b.FullAt now

-- The tenant has a constant limit, and its calls come to the lock in time.
def Orderly (limit : Int) (s : State) : Call → Prop
  | .idle | .sample _ => True
  | .lock req now => SweptFull tenant s.registry now ∧
      (req.tenant = tenant → req.limit = limit ∧ InTime tenant s.log (s.registry.maybeGC now) now)

instance (b : Bucket) (now : Int) : Decidable (b.FullAt now) :=
  inferInstanceAs <| Decidable <| _ ≤ _

instance (log : List Taken) (r : Registry) (now : Int) : Decidable (InTime tenant log r now) :=
  inferInstanceAs <| Decidable <| (∀ b ∈ r.buckets tenant, _) ∧ (_ → _ → _)

instance (r : Registry) (now : Int) : Decidable (SweptFull tenant r now) :=
  inferInstanceAs <| Decidable <| ∀ b ∈ r.buckets tenant, _ → _

instance (limit : Int) (s : State) : (k : Call) → Decidable (Orderly tenant limit s k)
  | .idle | .sample _ => isTrue trivial
  | .lock _ _ => inferInstanceAs <| Decidable <| _ ∧ (_ → _ ∧ _)

end Condition

section Invariant

variable {tenant : String} {limit a b : Int} {log : List Taken}

-- The account of the tenant is balanced, at the time of its bucket or else of the last sweep.
structure Tracked (tenant : String) (limit a b : Int) (log : List Taken) (r : Registry) : Prop where
  rate : ∀ bucket ∈ r.buckets tenant, bucket.rate = limit
  capacity : ∀ bucket ∈ r.buckets tenant, bucket.capacity = limit * r.burstSeconds
  used : ∀ bucket ∈ r.buckets tenant, Balanced (limit * r.burstSeconds) limit (seconds a) (seconds b)
    (admitted log tenant a b) (seconds bucket.lastSeen) bucket.tokens
  unused : r.buckets tenant = none → (∃ t ∈ log, t.request.tenant = tenant) →
    Balanced (limit * r.burstSeconds) limit (seconds a) (seconds b) (admitted log tenant a b)
      (seconds r.lastGC) (limit * r.burstSeconds)

theorem admitted_concat (log : List Taken) (t : Taken) :
    admitted (log ++ [t]) tenant a b = admitted log tenant a b + if t.admits tenant a b then t.request.n else 0 := by
  unfold admitted
  rw [List.filter_append, List.map_append, List.sum_append]
  split_ifs with h <;> simp [h]

theorem admitted_of_unseen (h : ¬∃ t ∈ log, t.request.tenant = tenant) : admitted log tenant a b = 0 := by
  have hnil : log.filter (Taken.admits tenant a b) = [] := by
    rw [List.filter_eq_nil_iff]
    intro t ht hadm
    simp only [Taken.admits, decide_eq_true_eq] at hadm
    exact h ⟨t, ht, hadm.left⟩
  simp [admitted, hnil]

section Sweep

variable {r : Registry}

theorem maybeGC_cases (r : Registry) (now : Int) :
    r.maybeGC now = r ∨ r.lastGC ≤ now ∧ r.maybeGC now = r.sweep now := by
  unfold Registry.maybeGC
  split_ifs with h
  · exact .inl rfl
  · refine .inr ⟨?_, rfl⟩
    unfold gcInterval second at h
    omega

@[simp]
theorem maybeGC_burstSeconds : (r.maybeGC now).burstSeconds = r.burstSeconds := by
  obtain h | ⟨-, h⟩ := maybeGC_cases r now <;> rw [h]
  rfl

theorem mem_sweep (h : bucket ∈ (r.sweep now).buckets tenant) : bucket ∈ r.buckets tenant :=
  (Option.mem_filter_iff.mp h).left

theorem lastSeen_le_of_sweep (hb : bucket ∈ r.buckets tenant) (h : (r.sweep now).buckets tenant = none) :
    bucket.lastSeen ≤ now := by
  have hidle : idleTimeout ≤ now - bucket.lastSeen := by
    simpa using Option.filter_eq_none_iff.mp h bucket hb
  unfold idleTimeout second at hidle
  omega

theorem Tracked.maybeGC (h : Tracked tenant limit a b log r) (hlimit : 0 < limit)
    (hswept : SweptFull tenant r now) : Tracked tenant limit a b log (r.maybeGC now) := by
  have hrate : (0 : ℚ) ≤ limit := by exact_mod_cast hlimit.le
  unfold SweptFull at hswept
  obtain heq | ⟨hgc, heq⟩ := maybeGC_cases r now
  case inl => rwa [heq]
  case inr =>
    rw [heq] at hswept ⊢
    refine ⟨fun _ hb => h.rate _ (mem_sweep hb), fun _ hb => h.capacity _ (mem_sweep hb),
      fun _ hb => h.used _ (mem_sweep hb), ?_⟩
    intro hnone hseen
    cases hb : r.buckets tenant
    -- The account stood full at the sweep before.
    case none =>
      refine (h.unused hb hseen).refill hrate (seconds_le_iff.mpr hgc) le_rfl ?_
      exact le_add_of_nonneg_right (mul_nonneg hrate (sub_nonneg.mpr (seconds_le_iff.mpr hgc)))
    case some bucket =>
      have hfull := hswept bucket hb hnone
      rw [Bucket.FullAt, h.capacity bucket hb, h.rate bucket hb, seconds_sub] at hfull
      exact (h.used bucket hb).refill hrate (seconds_le_iff.mpr (lastSeen_le_of_sweep hb hnone)) le_rfl hfull

end Sweep

section Take

variable {r : Registry} {now : Int}

theorem Tracked.refill (h : Tracked tenant limit a b log r) (hlimit : 0 < limit) (hburst : 0 < r.burstSeconds)
    (hab : a ≤ b) (htime : InTime tenant log r now) :
    Balanced (limit * r.burstSeconds) limit (seconds a) (seconds b) (admitted log tenant a b) (seconds now)
      ((r.bucket tenant now limit (limit * r.burstSeconds)).refill now limit (limit * r.burstSeconds)).tokens := by
  have hrate : (0 : ℚ) ≤ limit := by exact_mod_cast hlimit.le
  unfold Registry.bucket
  cases hb : r.buckets tenant
  case some bucket =>
    have htime := htime.left bucket hb
    have htokens : (bucket.refill now limit (limit * r.burstSeconds)).tokens ≤ _ :=
      bucket.refill_tokens htime (by rw [h.rate bucket hb]; exact hrate)
    rw [h.rate bucket hb] at htokens
    exact (h.used bucket hb).refill hrate (seconds_le_iff.mpr htime) Bucket.refill_tokens_le htokens
  case none =>
    by_cases hseen : ∃ t ∈ log, t.request.tenant = tenant
    case pos =>
      have hgc := seconds_le_iff.mpr (htime.right hb hseen)
      refine (h.unused hb hseen).refill hrate hgc Bucket.refill_tokens_le (Bucket.refill_tokens_le.trans ?_)
      exact le_add_of_nonneg_right (mul_nonneg hrate (sub_nonneg.mpr hgc))
    case neg =>
      rw [admitted_of_unseen hseen, Nat.cast_zero]
      exact .start (mul_nonneg hrate hburst.le) hrate (seconds_le_iff.mpr hab) Bucket.refill_tokens_le

theorem take_cases (r : Registry) (now : Int) (req : Request) :
    req.n ≤ (r.refilled now req).tokens ∧ (r.take now req).1.allowed ∧
      (r.take now req).2 = (r.maybeGC now).setBucket req.tenant
        { r.refilled now req with tokens := (r.refilled now req).tokens - req.n } ∨ (r.take now req).1.allowed = false ∧
      (r.take now req).2 = (r.maybeGC now).setBucket req.tenant (r.refilled now req) := by
  simp only [Registry.take]
  split_ifs with h
  · exact .inl ⟨h, rfl, rfl⟩
  · exact .inr ⟨rfl, rfl⟩

section Fields

variable (r now) (req : Request) (bucket : Bucket)

@[simp]
theorem refilled_rate : (r.refilled now req).rate = req.limit :=
  rfl

theorem refilled_capacity : (r.refilled now req).capacity = req.limit * r.burstSeconds :=
  rfl

@[simp]
theorem refilled_lastSeen : (r.refilled now req).lastSeen = now :=
  rfl

@[simp]
theorem setBucket_burstSeconds : (r.setBucket tenant bucket).burstSeconds = r.burstSeconds :=
  rfl

@[simp]
theorem setBucket_self : (r.setBucket tenant bucket).buckets tenant = some bucket :=
  Function.update_self _ _ _

theorem setBucket_of_ne (h : other ≠ tenant) : (r.setBucket tenant bucket).buckets other = r.buckets other :=
  Function.update_of_ne h _ _

end Fields

theorem Tracked.other (h : Tracked tenant limit a b log (r.maybeGC now)) (hne : req.tenant ≠ tenant) :
    Tracked tenant limit a b (log ++ [⟨req, now, (r.take now req).1⟩]) (r.take now req).2 := by
  have hadm : admitted (log ++ [⟨req, now, (r.take now req).1⟩]) tenant a b = admitted log tenant a b := by
    simp [admitted_concat, Taken.admits, hne]
  have hseen : (∃ t ∈ log ++ [⟨req, now, (r.take now req).1⟩], t.request.tenant = tenant) →
      ∃ t ∈ log, t.request.tenant = tenant := by
    simp [hne]
  obtain ⟨bucket, heq⟩ : ∃ bucket, (r.take now req).2 = (r.maybeGC now).setBucket req.tenant bucket := by
    obtain ⟨-, -, heq⟩ | ⟨-, heq⟩ := take_cases r now req
    all_goals exact ⟨_, heq⟩
  have hbuckets := setBucket_of_ne (r.maybeGC now) bucket hne.symm
  rw [heq]
  constructor
  case rate => simpa only [hbuckets] using h.rate
  case capacity => simpa only [hbuckets, setBucket_burstSeconds] using h.capacity
  case used => simpa only [hbuckets, hadm, setBucket_burstSeconds] using h.used
  case unused =>
    rw [hadm, hbuckets]
    exact fun hnone hs => h.unused hnone (hseen hs)

theorem Tracked.setBucket {bucket : Bucket} (hrate : bucket.rate = limit)
    (hcap : bucket.capacity = limit * r.burstSeconds)
    (hbal : Balanced (limit * r.burstSeconds) limit (seconds a) (seconds b) (admitted log tenant a b)
      (seconds bucket.lastSeen) bucket.tokens) : Tracked tenant limit a b log (r.setBucket tenant bucket) := by
  constructor
  case unused => simp
  all_goals
    intro bucket' hb
    obtain rfl : bucket = bucket' := by simpa using hb
    assumption

theorem Tracked.own (h : Tracked tenant limit a b log (r.maybeGC now)) (hlimit : 0 < limit)
    (hburst : 0 < r.burstSeconds) (hab : a ≤ b) {req : Request} (htenant : req.tenant = tenant)
    (hreq : req.limit = limit) (htime : InTime tenant log (r.maybeGC now) now) :
    Tracked tenant limit a b (log ++ [⟨req, now, (r.take now req).1⟩]) (r.take now req).2 := by
  have hrate : (0 : ℚ) ≤ limit := by exact_mod_cast hlimit.le
  have hbal : Balanced (limit * r.burstSeconds) limit (seconds a) (seconds b) (admitted log tenant a b)
      (seconds now) (r.refilled now req).tokens := by
    simpa [Registry.refilled, htenant, hreq] using h.refill hlimit (by simpa using hburst) hab htime
  obtain ⟨hn, hallowed, heq⟩ | ⟨hallowed, heq⟩ := take_cases r now req
  case inl =>
    rw [heq, htenant]
    refine .setBucket (by simp [hreq]) (by simp [refilled_capacity, hreq]) ?_
    rw [admitted_concat]
    simpa [Taken.admits, htenant, hallowed, seconds_le_iff] using hbal.spend hrate hn
  case inr =>
    rw [heq, htenant]
    refine .setBucket (by simp [hreq]) (by simp [refilled_capacity, hreq]) ?_
    rw [admitted_concat]
    simpa [Taken.admits, hallowed] using hbal

theorem Tracked.take (h : Tracked tenant limit a b log r) (hlimit : 0 < limit) (hburst : 0 < r.burstSeconds)
    (hab : a ≤ b) (hswept : SweptFull tenant r now)
    (hreq : req.tenant = tenant → req.limit = limit ∧ InTime tenant log (r.maybeGC now) now) :
    Tracked tenant limit a b (log ++ [⟨req, now, (r.take now req).1⟩]) (r.take now req).2 := by
  have hgc := h.maybeGC hlimit hswept
  by_cases htenant : req.tenant = tenant
  case pos => exact hgc.own hlimit hburst hab htenant (hreq htenant).left (hreq htenant).right
  case neg => exact hgc.other htenant

theorem take_burstSeconds (r : Registry) (now : Int) (req : Request) :
    (r.take now req).2.burstSeconds = r.burstSeconds := by
  obtain ⟨-, -, heq⟩ | ⟨-, heq⟩ := take_cases r now req
  all_goals simp [heq]

theorem Tracked.bound (h : Tracked tenant limit a b log r) (hlimit : 0 < limit) (hburst : 0 < r.burstSeconds)
    (hab : a ≤ b) : (admitted log tenant a b : ℚ) ≤ limit * r.burstSeconds + limit * seconds (b - a) := by
  have hrate : (0 : ℚ) ≤ limit := by exact_mod_cast hlimit.le
  have hsec := seconds_le_iff.mpr hab
  rw [seconds_sub]
  cases hb : r.buckets tenant
  case some bucket => exact (h.used bucket hb).bound
  case none =>
    by_cases hseen : ∃ t ∈ log, t.request.tenant = tenant
    case pos => exact (h.unused hb hseen).bound
    case neg =>
      rw [admitted_of_unseen hseen]
      have := mul_nonneg hrate hburst.le
      have := mul_nonneg hrate (sub_nonneg.mpr hsec)
      simp only [Nat.cast_zero]
      linarith

end Take

theorem takes_stable (hlimit : 0 < limit) (hab : a ≤ b) (hburst : 0 < burst) :
    takes.Stable (Orderly tenant limit)
      (fun s => s.registry.burstSeconds = burst ∧ Tracked tenant limit a b s.log s.registry) fun _ _ => True where
  begin _ _ _ := trivial
  shared elapsed s k h _ hok := by
    obtain ⟨rfl, h⟩ := h
    cases k
    case idle | sample => exact ⟨rfl, h⟩
    case lock req now =>
      exact ⟨take_burstSeconds _ _ _, h.take hlimit hburst hab hok.left hok.right⟩
  own _ _ _ _ _ _ := trivial
  other _ _ _ _ _ _ _ _ := trivial

end Invariant

def runOf (cfg : Config) (clock : Int) (events : List (Event Request Nat)) : State :=
  (takes.run (takes.init (initial cfg clock)) events).shared

def WithinQuota (cfg : Config) (limit : Int) (log : List Taken) (tenant : String) (a b : Int) : Prop :=
  (admitted log tenant a b : ℚ) ≤ limit * cfg.burstSeconds + limit * seconds (b - a)

instance (cfg : Config) (limit : Int) (log : List Taken) (tenant : String) (a b : Int) :
    Decidable (WithinQuota cfg limit log tenant a b) :=
  inferInstanceAs <| Decidable <| _ ≤ _

theorem quota_bound (cfg : Config) (hcfg : cfg.validate = none) (clock : Int) (tenant : String) (limit : Int)
    (hlimit : 0 < limit) (events : List (Event Request Nat))
    (h : takes.Meets (Orderly tenant limit) (takes.init (initial cfg clock)) events) (a b : Int) (hab : a ≤ b) :
    WithinQuota cfg limit (runOf cfg clock events).log tenant a b := by
  have hburst : 0 < cfg.burstSeconds := by simpa [Config.validate] using hcfg
  have hinit : Tracked tenant limit a b (initial cfg clock).log (initial cfg clock).registry :=
    ⟨by simp [initial, newRegistry], by simp [initial, newRegistry], by simp [initial, newRegistry],
      by simp [initial]⟩
  have hrun := (takes_stable hlimit hab hburst).run (c := takes.init (initial cfg clock)) ⟨rfl, hinit⟩
    (fun _ => trivial) h
  obtain ⟨heq, htracked⟩ := hrun.left
  have hbound := htracked.bound hlimit (heq ▸ hburst) hab
  rwa [heq] at hbound

section Sample

def batch (n : Nat) : Request :=
  { tenant := "cust_acme", limit := 1, n := n }

def promptCall (slot elapsed n : Nat) : List (Event Request Nat) :=
  [.start slot (batch n), .run slot (elapsed * 1000000000), .run slot 0]

def steadyRun : List (Event Request Nat) :=
  promptCall 0 1 2 ++ promptCall 1 1 1 ++ promptCall 2 0 1 ++ promptCall 3 2 2

def steadyLog : List Taken :=
  (runOf ⟨2⟩ 0 steadyRun).log

-- A burst of two seconds and then one item a second.
theorem steadyRun_bounded :
    steadyLog.map (·.result.allowed) = [true, true, false, true] ∧
      admitted steadyLog "cust_acme" second (4 * second) = 5 ∧
      WithinQuota ⟨2⟩ 1 steadyLog "cust_acme" second (4 * second) := by
  refine ⟨by decide +kernel, by decide +kernel, ?_⟩
  exact quota_bound ⟨2⟩ (by decide +kernel) 0 "cust_acme" 1 (by decide) steadyRun (by decide +kernel) second
    (4 * second) (by decide)

-- The first call samples its time and then waits for the lock, which the second one takes before it.
def overtakenLog : List Taken :=
  (runOf ⟨2⟩ 0 <| [.start 0 (batch 1), .run 0 1000000000] ++ promptCall 1 9 2 ++ [.run 0 0] ++ promptCall 2 0 2).log

-- A bucket that needs twenty minutes to refill is removed after ten minutes.
def sweptLog : List Taken :=
  (runOf ⟨1200⟩ 0 <| promptCall 0 1000 1200 ++ promptCall 1 600 1200).log

-- The first call sets the bucket back by nine seconds, which are then refilled a second time. In the
-- other run, the removal of the bucket refills it early.
theorem quota_exceeded :
    overtakenLog.map (fun t => (t.now, t.result.allowed)) =
        [(10 * second, true), (1 * second, false), (10 * second, true)] ∧
      ¬WithinQuota ⟨2⟩ 1 overtakenLog "cust_acme" (10 * second) (10 * second) ∧
      sweptLog.map (fun t => (t.now, t.result.allowed)) = [(1000 * second, true), (1600 * second, true)] ∧
      ¬WithinQuota ⟨1200⟩ 1 sweptLog "cust_acme" (1000 * second) (1600 * second) := by
  decide +kernel

end Sample
end Tenantquota
