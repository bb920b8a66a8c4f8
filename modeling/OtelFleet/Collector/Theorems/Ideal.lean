import OtelFleet.Collector.Theorems.Tenantquota

-- The registry decides as an ideal bucket of each tenant does.
namespace Tenantquota

open TokenBucket (Decision creditAt creditAt_le ideal accepted)

-- Calls one after the other, each with the time that it samples.
def serve : Registry → List (Int × Request) → List Taken
  | _, [] => []
  | r, (now, req) :: calls =>
    { request := req, now := now, result := (r.take now req).1 } :: serve (r.take now req).2 calls

-- The clock does not go back, and every tenant has a limit of its own.
structure Sequential (limit : String → Int) (calls : List (Int × Request)) : Prop where
  clock : calls.Pairwise fun c d => c.1 ≤ d.1
  limits : ∀ c ∈ calls, c.2.limit = limit c.2.tenant

def ownCalls (tenant : String) (calls : List (Int × Request)) : List (ℚ × ℚ) :=
  (calls.filter (·.2.tenant = tenant)).map fun c => (seconds c.1, (c.2.n : ℚ))

def ownDecisions (tenant : String) (log : List Taken) : List (Decision ℚ) :=
  (log.filter (·.request.tenant = tenant)).map fun t =>
    { time := seconds t.now, amount := t.request.n, allowed := t.result.allowed }

def allowedCalls (log : List Taken) : List (Int × Request) :=
  (log.filter (·.result.allowed)).map fun t => (t.now, t.request)

section Simulation

variable {limit t now : Int} {burst : ℚ} {level : Option (ℚ × ℚ)} {r : Registry}

-- A bucket of the registry stands for the level of the ideal bucket. Where there is none, the ideal
-- bucket is full from then on.
inductive Refines (limit : Int) (burst : ℚ) (t : Int) : Option Bucket → Option (ℚ × ℚ) → Prop where
  | used (b : Bucket) (time : b.lastSeen ≤ t) (rate : b.rate = limit) (tokens : 0 ≤ b.tokens) :
      Refines limit burst t (some b) (some (b.tokens, seconds b.lastSeen))
  | full {level : Option (ℚ × ℚ)}
      (h : ∀ now, t ≤ now → creditAt (limit * burst) limit level (seconds now) = limit * burst) :
      Refines limit burst t none level

theorem Refines.later (h : Refines limit burst t bucket? level) (ht : t ≤ now) :
    Refines limit burst now bucket? level := by
  cases h
  case used b time rate tokens => exact .used b (time.trans ht) rate tokens
  case full h => exact .full fun now' hnow => h now' (ht.trans hnow)

theorem full_of_idle (hlimit : 0 ≤ limit) (hburst : burst ≤ 600) {b : Bucket} (htokens : 0 ≤ b.tokens)
    (hidle : idleTimeout ≤ now - b.lastSeen) (hnow : now ≤ now') :
    creditAt (limit * burst) limit (some (b.tokens, seconds b.lastSeen)) (seconds now') = limit * burst := by
  have hrate : (0 : ℚ) ≤ limit := by exact_mod_cast hlimit
  have htime : (600 : ℚ) ≤ seconds now' - seconds b.lastSeen := by
    have hsec : seconds idleTimeout ≤ seconds (now' - b.lastSeen) := seconds_le_iff.mpr (by omega)
    rw [seconds_sub] at hsec
    refine le_trans ?_ hsec
    norm_num [seconds, idleTimeout, second]
  have hgain := mul_le_mul_of_nonneg_left (hburst.trans htime) hrate
  exact min_eq_left (by linarith)

theorem Refines.maybeGC (h : Refines limit burst t (r.buckets tenant) level) (ht : t ≤ now) (hlimit : 0 ≤ limit)
    (hburst : burst ≤ 600) : Refines limit burst now ((r.maybeGC now).buckets tenant) level := by
  have hlater := h.later ht
  obtain heq | ⟨-, heq⟩ := maybeGC_cases r now
  case inl => rwa [heq]
  case inr =>
    rw [heq]
    simp only [Registry.sweep]
    generalize r.buckets tenant = bucket? at hlater
    cases hlater
    case used b time rate tokens =>
      by_cases hidle : idleTimeout ≤ now - b.lastSeen
      · rw [Option.filter_some_neg (by simpa using hidle)]
        exact .full fun now' hnow => full_of_idle hlimit hburst tokens hidle hnow
      · rw [Option.filter_some_pos (by simpa using hidle)]
        exact .used b time rate tokens
    case full h => exact .full h

theorem Bucket.refill_tokens_eq {b : Bucket} (h : b.lastSeen ≤ now) (rate capacity : ℚ) :
    (b.refill now rate capacity).tokens =
      min capacity (b.tokens + b.rate * (seconds now - seconds b.lastSeen)) := by
  have htokens : (if 0 < seconds (now - b.lastSeen) then b.tokens + seconds (now - b.lastSeen) * b.rate
      else b.tokens) = b.tokens + b.rate * (seconds now - seconds b.lastSeen) := by
    rw [← seconds_sub]
    split_ifs with hpos
    · ring
    · have hzero : now - b.lastSeen = 0 := by
        rw [seconds_pos_iff] at hpos
        omega
      simp [hzero, seconds]
  simp only [Bucket.refill, htokens]
  split_ifs with hcap
  · exact (min_eq_left hcap.le).symm
  · exact (min_eq_right (not_lt.mp hcap)).symm

theorem Refines.refilled (h : Refines limit burst now ((r.maybeGC now).buckets req.tenant) level)
    (hreq : req.limit = limit) (hr : r.burstSeconds = burst) :
    (r.refilled now req).tokens = creditAt (limit * burst) limit level (seconds now) := by
  unfold Registry.refilled Registry.bucket
  rw [hreq, hr]
  dsimp only
  generalize (r.maybeGC now).buckets req.tenant = bucket? at h
  cases h
  case used b time rate tokens => rw [Option.getD_some, Bucket.refill_tokens_eq time, rate, creditAt]
  case full h =>
    rw [Option.getD_none, Bucket.refill_tokens_eq le_rfl, h now le_rfl]
    simp

theorem Refines.credit_nonneg (h : Refines limit burst t bucket? level) (hlimit : 0 ≤ limit) (hburst : 0 ≤ burst)
    (ht : t ≤ now) : 0 ≤ creditAt (limit * burst) limit level (seconds now) := by
  have hrate : (0 : ℚ) ≤ limit := by exact_mod_cast hlimit
  cases h
  case used b time rate tokens =>
    have hgain := mul_nonneg hrate (sub_nonneg.mpr (seconds_le_iff.mpr (time.trans ht)))
    exact le_min (mul_nonneg hrate hburst) (by linarith)
  case full h =>
    rw [h now ht]
    exact mul_nonneg hrate hburst

end Simulation

section Decisions

variable {burst : ℚ}

theorem Sequential.tail (h : Sequential limit (c :: calls)) : Sequential limit calls where
  clock := (List.pairwise_cons.mp h.clock).2
  limits d hd := h.limits d (List.mem_cons_of_mem _ hd)

theorem take_allowed (r : Registry) (now : Int) (req : Request) :
    (r.take now req).1.allowed = decide (req.n ≤ (r.refilled now req).tokens) := by
  simp only [Registry.take]
  split_ifs with h <;> simp [h]

theorem take_other (r : Registry) (now : Int) (h : req.tenant ≠ tenant) :
    (r.take now req).2.buckets tenant = (r.maybeGC now).buckets tenant := by
  obtain ⟨-, -, heq⟩ | ⟨-, heq⟩ := take_cases r now req
  all_goals rw [heq, setBucket_of_ne _ _ h.symm]

theorem take_own (r : Registry) (now : Int) (req : Request) :
    (r.take now req).2.buckets req.tenant = some { r.refilled now req with
      tokens := if req.n ≤ (r.refilled now req).tokens then (r.refilled now req).tokens - req.n
        else (r.refilled now req).tokens } := by
  simp only [Registry.take]
  split_ifs
  all_goals exact setBucket_self _ _

theorem Refines.take {limit : Int} {r : Registry}
    (h : Refines limit burst now ((r.maybeGC now).buckets req.tenant) level) (hlimit : 0 ≤ limit) (h0 : 0 ≤ burst)
    (hr : r.burstSeconds = burst) (hreq : req.limit = limit) :
    let credit := creditAt (limit * burst) limit level (seconds now)
    (r.take now req).1.allowed = decide (req.n ≤ credit) ∧
    Refines limit burst now ((r.take now req).2.buckets req.tenant)
      (some (if req.n ≤ credit then credit - req.n else credit, seconds now)) := by
  intro credit
  have htokens : (r.refilled now req).tokens = credit := h.refilled hreq hr
  rw [take_allowed, take_own, htokens]
  refine ⟨rfl, .used _ le_rfl (by simp [hreq]) ?_⟩
  dsimp only
  split_ifs with hn
  · exact sub_nonneg.mpr hn
  · exact h.credit_nonneg hlimit h0 le_rfl

-- By induction on the calls, with the bucket of the tenant standing for its ideal bucket.
theorem serve_ideal (hlimit : 0 ≤ limit tenant) (h0 : 0 ≤ burst) (h600 : burst ≤ 600) {r : Registry}
    {level : Option (ℚ × ℚ)} (hr : r.burstSeconds = burst) (hs : Sequential limit calls)
    (ht : ∀ c ∈ calls, t ≤ c.1) (h : Refines (limit tenant) burst t (r.buckets tenant) level) :
    ownDecisions tenant (serve r calls) =
      ideal (limit tenant * burst) (limit tenant) level (ownCalls tenant calls) := by
  induction calls generalizing r level t
  case nil => rfl
  case cons c calls hi =>
    obtain ⟨now, req⟩ := c
    have hrest : ∀ c ∈ calls, now ≤ c.1 := (List.pairwise_cons.mp hs.clock).1
    have hr' : (r.take now req).2.burstSeconds = burst := by rw [take_burstSeconds, hr]
    have hgc := h.maybeGC (ht _ List.mem_cons_self) hlimit h600
    by_cases htenant : req.tenant = tenant
    case neg =>
      have hother := take_other r now htenant
      simpa [ownDecisions, ownCalls, serve, htenant] using hi hr' hs.tail hrest (hother ▸ hgc)
    case pos =>
      subst htenant
      obtain ⟨hallowed, hnext⟩ := hgc.take hlimit h0 hr (hs.limits _ List.mem_cons_self)
      have hcalls : ownCalls req.tenant ((now, req) :: calls) =
          (seconds now, (req.n : ℚ)) :: ownCalls req.tenant calls := by
        simp [ownCalls]
      rw [hcalls, TokenBucket.ideal_cons, ← hi hr' hs.tail hrest hnext, ← hallowed]
      simp [ownDecisions, serve]

theorem refilled_tokens_le (r : Registry) (now : Int) (req : Request) :
    (r.refilled now req).tokens ≤ req.limit * r.burstSeconds :=
  Bucket.refill_tokens_le

theorem serve_calls (r : Registry) (calls : List (Int × Request)) :
    (serve r calls).map (fun t => (t.now, t.request)) = calls := by
  induction calls generalizing r
  case nil => rfl
  case cons c calls hi => rw [serve, List.map_cons, hi]

theorem serve_large (hr : r.burstSeconds = burst) (ht : taken ∈ serve r calls)
    (hn : taken.request.limit * burst < taken.request.n) : taken.result.allowed = false := by
  induction calls generalizing r
  case nil => cases ht
  case cons c calls hi =>
    obtain rfl | ht := List.mem_cons.mp ht
    · rw [take_allowed]
      exact decide_eq_false (not_le.mpr ((refilled_tokens_le r c.1 c.2).trans_lt (hr ▸ hn)))
    · exact hi ((take_burstSeconds r c.1 c.2).trans hr) ht

theorem Sequential.sublist (h : Sequential limit calls) (hsub : calls'.Sublist calls) : Sequential limit calls' where
  clock := h.clock.sublist hsub
  limits c hc := h.limits c (hsub.subset hc)

theorem allowedCalls_sublist (r : Registry) (calls : List (Int × Request)) :
    (allowedCalls (serve r calls)).Sublist calls := by
  conv => rhs; rw [← serve_calls r calls]
  exact List.filter_sublist.map _

theorem ownCalls_allowedCalls (log : List Taken) :
    ownCalls tenant (allowedCalls log) = accepted (ownDecisions tenant log) := by
  induction log
  case nil => rfl
  case cons t log hi =>
    simp only [ownCalls, allowedCalls, accepted, ownDecisions] at hi ⊢
    by_cases ha : t.result.allowed <;> by_cases ht : t.request.tenant = tenant <;> simp [ha, ht, hi]

theorem ownCalls_eq (r : Registry) (calls : List (Int × Request)) :
    ownCalls tenant calls =
      ((serve r calls).filter (·.request.tenant = tenant)).map fun t => (seconds t.now, (t.request.n : ℚ)) := by
  conv_lhs => rw [← serve_calls r calls]
  simp [ownCalls, List.filter_map, Function.comp_def]

theorem Sequential.limit_eq (h : Sequential limit calls) (ht : taken ∈ serve r calls) :
    taken.request.limit = limit taken.request.tenant := by
  have hcall : (taken.now, taken.request) ∈ calls := by
    rw [← serve_calls r calls]
    exact List.mem_map_of_mem ht
  exact h.limits _ hcall

theorem Sequential.ownCalls (h : Sequential limit calls) : (ownCalls tenant calls).Pairwise fun c d => c.1 ≤ d.1 := by
  refine List.pairwise_map.mpr ((h.clock.filter _).imp fun hle => ?_)
  exact seconds_le_iff.mpr hle

theorem nonneg_of_mem_ownCalls (h : c ∈ ownCalls tenant calls) : 0 ≤ c.2 := by
  obtain ⟨d, -, rfl⟩ := List.mem_map.mp h
  exact Nat.cast_nonneg _

theorem ownDecisions_eq (h0 : 0 < burst) (h600 : burst ≤ 600) (hs : Sequential limit calls) (tenant : String) :
    ownDecisions tenant (serve (newRegistry burst) calls) =
      ideal (limit tenant * burst) (limit tenant) none (ownCalls tenant calls) := by
  obtain hlimit | hlimit := le_or_gt 0 (limit tenant)
  case inl =>
    have hmin : ∃ t, ∀ c ∈ calls, t ≤ c.1 := by
      cases calls
      case nil => exact ⟨0, by simp⟩
      case cons c calls => exact ⟨c.1, by simpa using (List.pairwise_cons.mp hs.clock).1⟩
    obtain ⟨t, ht⟩ := hmin
    exact serve_ideal hlimit h0.le h600 rfl hs ht (.full fun _ _ => rfl)
  case inr =>
    have hcap : (limit tenant : ℚ) * burst < 0 := mul_neg_of_neg_of_pos (by exact_mod_cast hlimit) h0
    rw [TokenBucket.ideal_of_neg hcap fun c => nonneg_of_mem_ownCalls, ownCalls_eq (newRegistry burst), List.map_map]
    refine List.map_congr_left fun taken ht => ?_
    obtain ⟨hmem, htenant⟩ := List.mem_filter.mp ht
    have hreq : taken.request.limit = limit tenant := by
      rw [hs.limit_eq hmem, of_decide_eq_true htenant]
    have hlarge : (taken.request.limit : ℚ) * burst < taken.request.n :=
      hreq ▸ hcap.trans_le (Nat.cast_nonneg _)
    rw [serve_large rfl hmem hlarge]
    rfl

theorem ideal_again (h0 : 0 < burst) (hs : Sequential limit calls)
    (hd : d ∈ ideal (limit tenant * burst) (limit tenant) none
      (accepted (ideal (limit tenant * burst) (limit tenant) none (ownCalls tenant calls)))) : d.allowed := by
  obtain hlimit | hlimit := le_or_gt 0 (limit tenant)
  case inl =>
    rw [TokenBucket.ideal_accepted (by exact_mod_cast hlimit) hs.ownCalls] at hd
    exact (List.mem_filter.mp hd).2
  case inr =>
    have hcap : (limit tenant : ℚ) * burst < 0 := mul_neg_of_neg_of_pos (by exact_mod_cast hlimit) h0
    have hnone : accepted ((ownCalls tenant calls).map fun c =>
        ({ time := c.1, amount := c.2, allowed := false } : Decision ℚ)) = [] := by
      simp [accepted, List.filter_map, Function.comp_def]
    rw [TokenBucket.ideal_of_neg hcap fun c => nonneg_of_mem_ownCalls, hnone] at hd
    cases hd

end Decisions

-- For every tenant the decisions are those of its ideal bucket. Therefore they depend on its own calls
-- only; they stay as they are when the calls that are rejected are not made at all; and a batch that is
-- larger than a full bucket is never let through.
theorem take_refines_ideal {burst : ℚ} (h0 : 0 < burst) (h600 : burst ≤ 600) (limit : String → Int)
    (calls : List (Int × Request)) (hs : Sequential limit calls) :
    let log := serve (newRegistry burst) calls
    (∀ tenant, ownDecisions tenant log =
      ideal (limit tenant * burst) (limit tenant) none (ownCalls tenant calls)) ∧
    (∀ tenant calls', Sequential limit calls' → ownCalls tenant calls' = ownCalls tenant calls →
      ownDecisions tenant (serve (newRegistry burst) calls') = ownDecisions tenant log) ∧
    (∀ t ∈ serve (newRegistry burst) (allowedCalls log), t.result.allowed) ∧
    ∀ t ∈ log, limit t.request.tenant * burst < t.request.n → t.result.allowed = false := by
  intro log
  have hideal := ownDecisions_eq h0 h600 hs
  refine ⟨hideal, fun tenant calls' hs' hown => ?_, fun t ht => ?_, fun t ht hn => ?_⟩
  · rw [ownDecisions_eq h0 h600 hs', hown, hideal]
  · have hs' := hs.sublist (allowedCalls_sublist (newRegistry burst) calls)
    have hagain := ownDecisions_eq h0 h600 hs' t.request.tenant
    rw [ownCalls_allowedCalls, hideal] at hagain
    have hd : { time := seconds t.now, amount := t.request.n, allowed := t.result.allowed } ∈
        ownDecisions t.request.tenant (serve (newRegistry burst) (allowedCalls log)) :=
      List.mem_map_of_mem (List.mem_filter.mpr ⟨ht, decide_eq_true rfl⟩)
    rw [hagain] at hd
    exact ideal_again h0 hs hd
  · exact serve_large rfl ht (hs.limit_eq ht ▸ hn)

section Sample

def sampleCall (tenant : String) (at_ : Int) (n : Nat) : Int × Request :=
  (at_ * second, { tenant := tenant, limit := 1, n := n })

def sampleCalls : List (Int × Request) := [
  sampleCall "cust_acme" 0 2,
  sampleCall "cust_acme" 1 2,
  sampleCall "cust_bolt" 1 2,
  sampleCall "cust_acme" 2 2,
  sampleCall "cust_bolt" 700 1,
  sampleCall "cust_acme" 700 2]

theorem sampleCalls_ideal :
    ownDecisions "cust_acme" (serve (newRegistry 2) sampleCalls) =
        ideal (1 * 2) 1 none (ownCalls "cust_acme" sampleCalls) ∧
      (ownDecisions "cust_acme" (serve (newRegistry 2) sampleCalls)).map (·.allowed) = [true, false, true, true] := by
  have hs : Sequential (fun _ => 1) sampleCalls := ⟨by decide, by decide⟩
  refine ⟨?_, by decide +kernel⟩
  simpa using (take_refines_ideal (by norm_num) (by norm_num) (fun _ => 1) sampleCalls hs).1 "cust_acme"

end Sample

end Tenantquota
