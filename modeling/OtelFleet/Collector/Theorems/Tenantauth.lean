import OtelFleet.Collector.Tenantauth
import Mathlib.Algebra.Order.Group.Unbundled.Int
import Mathlib.Data.List.Infix
import Mathlib.Tactic.Linarith

-- How long a revoked key is still accepted.
namespace Tenantauth

open Interleave (Event)

def RPC.Grants (rpc : RPC) (data : AuthData) : Prop :=
  ∃ resp, rpc.answer = .valid resp ∧ data.tenantID = resp.clientID ∧ data.clientID = resp.clientID ∧
    data.customerID = resp.customerID ∧ data.rateLimitItemsPerSec = resp.rateLimitItemsPerSec.toNat

def Return.OwnFailed (r : Return) : Prop :=
  ∃ rpc ∈ r.own, ∃ err, rpc.answer = .failed err

theorem effectiveTTL_le (cfg : CacheConfig) (resp : ValidateAPIKeyResponse) : effectiveTTL cfg resp ≤ cfg.ttl := by
  simp only [effectiveTTL]
  split_ifs with _ hlt
  · exact hlt.le
  all_goals exact le_rfl

theorem Config.ttl_pos {cfg : Config} (h : cfg.validate = []) : 0 < cfg.cache.ttl := by
  by_contra httl
  simp [Config.validate, not_lt.mp httl] at h

variable {hash : String → String} {cfg : CacheConfig} {s s' : Gateway cfg} {k k' : Call}

section Steps

def SubCache (c c' : Lru String (CacheEntry × RPC) cfg.maxEntries.toNat) : Prop :=
  ∀ i ∈ c.items, i ∈ c'.items

inductive Call.Step (hash : String → String) (s : Gateway cfg) : Call → Call → Gateway cfg → Prop where
  | idle : Step hash s .idle .idle s
  | noKey {key} : Step hash s (.sample key) .idle
      (s.return ⟨⟨key, s.clock, s.returned.length⟩, none, none, .noKey, .error errNoKey⟩)
  | sample {key} : Step hash s (.sample key) (.lookup ⟨key, s.clock, s.returned.length⟩) s
  | miss {q c} : SubCache c s.cache → Step hash s (.lookup q) (.send q) { s with cache := c }
  | refuse {q c rpc} : SubCache c s.cache → Step hash s (.lookup q) .idle
      ({ s with cache := c }.return ⟨q, none, some rpc, .invalidKey, .error errInvalidKey⟩)
  | fresh {q c e rpc data} : SubCache c s.cache → (hash q.key, (e, rpc)) ∈ s.cache.items → e.data = some data →
      q.now < e.freshUntil →
      Step hash s (.lookup q) .idle ({ s with cache := c }.return ⟨q, none, some rpc, .ok, .ok data⟩)
  | send {q} : Step hash s (.send q) (.receive q s.clock) s
  | failed {q started err} : Step hash s (.receive q started) (.fallback q ⟨q.key, started, .failed err⟩ err)
      { s with rpcs := s.rpcs ++ [⟨q.key, started, .failed err⟩] }
  | invalid {q started} : Step hash s (.receive q started) (.deny q ⟨q.key, started, .invalid⟩)
      { s with rpcs := s.rpcs ++ [⟨q.key, started, .invalid⟩] }
  | valid {q started resp} : Step hash s (.receive q started) (.grant q ⟨q.key, started, .valid resp⟩ resp)
      { s with rpcs := s.rpcs ++ [⟨q.key, started, .valid resp⟩] }
  | stale {q own err c e rpc data} : SubCache c s.cache → (hash q.key, (e, rpc)) ∈ s.cache.items →
      e.data = some data → q.now < e.staleUntil →
      Step hash s (.fallback q own err) .idle
        ({ s with cache := c }.return ⟨q, some own, some rpc, .upstreamErrorStale, .ok data⟩)
  | reject {q own err c} : SubCache c s.cache →
      Step hash s (.fallback q own err) .idle
        ({ s with cache := c }.return ⟨q, some own, none, .upstreamErrorReject, .error (errUnavailable err)⟩)
  | deny {q rpc} : Step hash s (.deny q rpc) .idle
      ({ s with cache := s.cache.put (hash q.key) (negativeEntry cfg q.now, rpc) }.return
        ⟨q, some rpc, some rpc, .invalidKey, .error errInvalidKey⟩)
  | grant {q rpc resp} : Step hash s (.grant q rpc resp) .idle
      ({ s with cache := s.cache.put (hash q.key) (positiveEntry cfg q.now resp, rpc) }.return
        ⟨q, some rpc, some rpc, .ok, .ok (authData resp)⟩)

theorem subCache_get (key : String) : SubCache (s.cache.get key).2 s.cache :=
  fun _ => Lru.mem_of_mem_get

theorem Call.next_step (x : Draw) (k : Call) : Call.Step hash s k (k.next hash x s).1 (k.next hash x s).2 := by
  cases k
  case idle => exact .idle
  case sample key =>
    simp only [Call.next]
    split_ifs
    · exact .noKey
    · exact .sample
  case lookup q =>
    have hsub := subCache_get (s := s) (hash q.key)
    simp only [Call.next]
    cases hget : (s.cache.get (hash q.key)).1
    case none => exact .miss hsub
    case some r =>
      obtain ⟨e, rpc⟩ := r
      dsimp only
      split_ifs with hfresh
      · cases hdata : e.data
        case none => exact .refuse hsub
        case some data => exact .fresh hsub (Lru.mem_of_get hget) hdata hfresh
      · exact .miss hsub
  case send q => exact .send
  case receive q started =>
    obtain ⟨elapsed, answer⟩ := x
    cases answer
    case failed err => exact .failed
    case invalid => exact .invalid
    case valid resp => exact .valid
  case fallback q own err =>
    have hsub := subCache_get (s := s) (hash q.key)
    simp only [Call.next]
    cases hget : (s.cache.get (hash q.key)).1
    case none => exact .reject hsub
    case some r =>
      obtain ⟨e, rpc⟩ := r
      dsimp only
      cases hdata : e.data
      case none => exact .reject hsub
      case some data =>
        dsimp only
        split_ifs with hstale
        · exact .stale hsub (Lru.mem_of_get hget) hdata hstale
        · exact .reject hsub
  case deny q rpc => exact .deny
  case grant q rpc resp => exact .grant

def State.later {max : Nat} (s : State max) (elapsed : Nat) : State max :=
  { s with clock := s.clock + elapsed }

theorem Call.step_spec (x : Draw) (s : Gateway cfg) (k : Call) :
    Call.Step hash (s.later x.elapsed) k (k.step hash x s).1 (k.step hash x s).2 :=
  Call.next_step x k

structure State.Extends (s s' : Gateway cfg) : Prop where
  clock : s.clock ≤ s'.clock
  rpcs : s.rpcs ⊆ s'.rpcs
  returned : s.returned <+: s'.returned

theorem State.extends_later (elapsed : Nat) : s.Extends (s.later elapsed) :=
  ⟨Int.le_add_of_nonneg_right (Int.natCast_nonneg elapsed), List.Subset.refl _, List.prefix_refl _⟩

theorem State.Extends.trans (h : s.Extends s') (h' : s'.Extends s'') : s.Extends s'' :=
  ⟨h.clock.trans h'.clock, List.Subset.trans h.rpcs h'.rpcs, h.returned.trans h'.returned⟩

theorem Call.Step.extends (h : Call.Step hash s k k' s') : s.Extends s' := by
  cases h
  case idle | sample | miss | send =>
    exact ⟨le_rfl, List.Subset.refl _, List.prefix_refl _⟩
  case failed | invalid | valid =>
    exact ⟨le_rfl, List.subset_append_left _ _, List.prefix_refl _⟩
  all_goals exact ⟨le_rfl, List.Subset.refl _, List.prefix_append _ _⟩

theorem Call.step_extends (x : Draw) (s : Gateway cfg) (k : Call) : s.Extends (k.step hash x s).2 :=
  (s.extends_later x.elapsed).trans (Call.step_spec x s k).extends

end Steps

section Bound

-- What a call has sampled lies in the past, as do the RPCs of the calls that had returned by then.
structure Query.Sampled (s : Gateway cfg) (q : Query) : Prop where
  now : q.now ≤ s.clock
  before : q.before ≤ s.returned.length
  earlier : ∀ r ∈ s.returned.take q.before, ∀ rpc ∈ r.own, rpc.started ≤ q.now

structure Query.Owns (s : Gateway cfg) (q : Query) (rpc : RPC) : Prop extends q.Sampled s where
  mem : rpc ∈ s.rpcs
  key : rpc.key = q.key
  started : q.now ≤ rpc.started
  past : rpc.started ≤ s.clock

def Call.Local (s : Gateway cfg) : Call → Prop
  | idle | sample _ => True
  | lookup q | send q => q.Sampled s
  | receive q started => q.Sampled s ∧ q.now ≤ started ∧ started ≤ s.clock
  | fallback q rpc err => q.Owns s rpc ∧ rpc.answer = .failed err
  | deny q rpc => q.Owns s rpc ∧ rpc.answer = .invalid
  | grant q rpc resp => q.Owns s rpc ∧ rpc.answer = .valid resp

theorem Query.Sampled.mono {q : Query} (h : q.Sampled s) (he : s.Extends s') : q.Sampled s' where
  now := h.now.trans he.clock
  before := h.before.trans he.returned.length_le
  earlier := by
    obtain ⟨rs, hrs⟩ := he.returned
    rw [← hrs, List.take_append_of_le_length h.before]
    exact h.earlier

theorem Query.Owns.mono {q : Query} (h : q.Owns s rpc) (he : s.Extends s') : q.Owns s' rpc where
  toSampled := h.toSampled.mono he
  mem := he.rpcs h.mem
  key := h.key
  started := h.started
  past := h.past.trans he.clock

theorem Call.Local.mono (h : k.Local s) (he : s.Extends s') : k.Local s' := by
  cases k
  case idle | sample => trivial
  case lookup | send => exact Query.Sampled.mono h he
  case receive => exact ⟨h.left.mono he, h.right.left, h.right.right.trans he.clock⟩
  case fallback | deny | grant => exact ⟨h.left.mono he, h.right⟩

-- An entry is kept under the hash of its key, and one for a valid key does not outlive its answer.
structure Cached (hash : String → String) (s : Gateway cfg) (h : String) (e : CacheEntry) (rpc : RPC) : Prop where
  hash : h = hash rpc.key
  mem : rpc ∈ s.rpcs
  grants : ∀ data ∈ e.data, rpc.Grants data
  fresh : e.data.isSome → e.freshUntil ≤ rpc.started + cfg.ttl
  stale : e.data.isSome → e.staleUntil ≤ rpc.started + cfg.staleIfError

-- What an accepted call rests on: an answer that is recent, or one that is not as old as a call may
-- fall back on whose own RPC has failed.
structure Justified (hash : String → String) (s : Gateway cfg) (r : Return) (data : AuthData) (rpc : RPC) : Prop where
  basis : r.basis = some rpc
  mem : rpc ∈ s.rpcs
  hash : hash rpc.key = hash r.query.key
  grants : rpc.Grants data
  recent : r.query.now ≤ rpc.started ∨ r.query.now < rpc.started + cfg.ttl ∨
    r.OwnFailed ∧ r.query.now < rpc.started + cfg.staleIfError

structure State.Sound (hash : String → String) (s : Gateway cfg) : Prop where
  cached : ∀ i ∈ s.cache.items, Cached hash s i.1 i.2.1 i.2.2
  justified : ∀ r ∈ s.returned, ∀ data, r.result = .ok data → ∃ rpc, Justified hash s r data rpc
  owned : ∀ r ∈ s.returned, ∀ rpc ∈ r.own, rpc.started ≤ s.clock

theorem Cached.mono (hc : Cached hash s h e rpc) (he : s.Extends s') : Cached hash s' h e rpc :=
  { hc with mem := he.rpcs hc.mem }

theorem Justified.mono (hj : Justified hash s r data rpc) (he : s.Extends s') : Justified hash s' r data rpc :=
  { hj with mem := he.rpcs hj.mem }

theorem State.Sound.extend (h : s.Sound hash) (he : s.Extends s')
    (hcache : ∀ i ∈ s'.cache.items, i ∈ s.cache.items ∨ Cached hash s' i.1 i.2.1 i.2.2)
    (hreturn : ∀ r ∈ s'.returned, r ∈ s.returned ∨
      (∀ data, r.result = .ok data → ∃ rpc, Justified hash s' r data rpc) ∧
      ∀ rpc ∈ r.own, rpc.started ≤ s'.clock) : s'.Sound hash where
  cached i hi := (hcache i hi).elim (fun hi => (h.cached i hi).mono he) id
  justified r hr data hdata := by
    obtain hr | hr := hreturn r hr
    · obtain ⟨rpc, hj⟩ := h.justified r hr data hdata
      exact ⟨rpc, hj.mono he⟩
    · exact hr.left data hdata
  owned r hr rpc hrpc := by
    obtain hr | hr := hreturn r hr
    · exact (h.owned r hr rpc hrpc).trans he.clock
    · exact hr.right rpc hrpc

theorem State.return_clock (r : Return) : (s.return r).clock = s.clock :=
  rfl

theorem mem_return (h : r' ∈ (s.return r).returned) : r' ∈ s.returned ∨ r' = r := by
  simpa [State.return] using h

theorem State.Sound.step (h : s.Sound hash) (hl : k.Local s) (hs : Call.Step hash s k k' s') : s'.Sound hash := by
  have he := hs.extends
  cases hs
  case idle | sample | send => exact h
  case noKey key =>
    refine h.extend he (fun i hi => .inl hi) fun r' hr' => (mem_return hr').imp_right ?_
    rintro rfl
    simp
  case miss q c hsub => exact h.extend he (fun i hi => .inl (hsub i hi)) fun r hr => .inl hr
  case refuse q c rpc hsub =>
    refine h.extend he (fun i hi => .inl (hsub i hi)) fun r' hr' => (mem_return hr').imp_right ?_
    rintro rfl
    simp
  case fresh q c e rpc data hsub hmem hdata hfresh =>
    refine h.extend he (fun i hi => .inl (hsub i hi)) fun r' hr' => (mem_return hr').imp_right ?_
    rintro rfl
    have hc := h.cached _ hmem
    have hle : e.freshUntil ≤ rpc.started + cfg.ttl := hc.fresh (by simp [hdata])
    refine ⟨fun data' hd => ⟨rpc, rfl, hc.mem, hc.hash.symm, ?_, .inr (.inl (hfresh.trans_le hle))⟩, by simp⟩
    obtain rfl : data = data' := by simpa using hd
    exact hc.grants data hdata
  case failed | invalid | valid => exact h.extend he (fun i hi => .inl hi) fun r hr => .inl hr
  case stale q own err c e rpc data hsub hmem hdata hstale =>
    refine h.extend he (fun i hi => .inl (hsub i hi)) fun r' hr' => (mem_return hr').imp_right ?_
    rintro rfl
    have hc := h.cached _ hmem
    have hle : e.staleUntil ≤ rpc.started + cfg.staleIfError := hc.stale (by simp [hdata])
    have hown : Return.OwnFailed ⟨q, some own, some rpc, .upstreamErrorStale, .ok data⟩ :=
      ⟨own, rfl, err, hl.right⟩
    refine ⟨fun data' hd => ⟨rpc, rfl, hc.mem, hc.hash.symm, ?_, .inr (.inr ⟨hown, hstale.trans_le hle⟩)⟩, ?_⟩
    · obtain rfl : data = data' := by simpa using hd
      exact hc.grants data hdata
    · simpa [State.return_clock] using hl.left.past
  case reject q own err c hsub =>
    refine h.extend he (fun i hi => .inl (hsub i hi)) fun r' hr' => (mem_return hr').imp_right ?_
    rintro rfl
    simpa [State.return_clock] using hl.left.past
  case deny q rpc =>
    refine h.extend he (fun i hi => (Lru.mem_put hi).symm.imp And.left ?_) fun r' hr' => (mem_return hr').imp_right ?_
    · rintro rfl
      exact ⟨by rw [hl.left.key], hl.left.mem, by simp [negativeEntry], by simp [negativeEntry],
        by simp [negativeEntry]⟩
    · rintro rfl
      simpa [State.return_clock] using hl.left.past
  case grant q rpc resp =>
    have hgrants : rpc.Grants (authData resp) := ⟨resp, hl.right, rfl, rfl, rfl, rfl⟩
    have hstarted := hl.left.started
    refine h.extend he (fun i hi => (Lru.mem_put hi).symm.imp And.left ?_) fun r' hr' => (mem_return hr').imp_right ?_
    · rintro rfl
      refine ⟨by rw [hl.left.key], hl.left.mem, ?_, fun _ => ?_, fun _ => ?_⟩
      · simpa [positiveEntry] using hgrants
      · exact Int.add_le_add hstarted (effectiveTTL_le cfg resp)
      · exact Int.add_le_add_right hstarted _
    · rintro rfl
      refine ⟨fun data hd => ⟨rpc, rfl, hl.left.mem, by rw [hl.left.key], ?_, .inl hstarted⟩, ?_⟩
      · obtain rfl : authData resp = data := by simpa using hd
        exact hgrants
      · simpa [State.return_clock] using hl.left.past

theorem State.Sound.sampled (h : s.Sound hash) (key : String) : Query.Sampled s ⟨key, s.clock, s.returned.length⟩ where
  now := le_rfl
  before := le_rfl
  earlier r hr rpc hrpc := h.owned r (List.mem_of_mem_take hr) rpc hrpc

theorem Call.Local.step (hl : k.Local s) (h : s.Sound hash) (hs : Call.Step hash s k k' s') : k'.Local s' := by
  have he := hs.extends
  cases hs
  case sample key => exact h.sampled key
  case miss => exact Query.Sampled.mono hl he
  case send q => exact ⟨hl, hl.now, le_rfl⟩
  case failed | invalid | valid =>
    exact ⟨⟨hl.left.mono he, by simp, rfl, hl.right.left, hl.right.right⟩, rfl⟩
  all_goals trivial

theorem State.Sound.later (h : s.Sound hash) (elapsed : Nat) : (s.later elapsed).Sound hash :=
  h.extend (s.extends_later elapsed) (fun _ hi => .inl hi) fun _ hr => .inl hr

theorem authenticate_stable (hash : String → String) (cfg : CacheConfig) :
    (authenticate hash cfg).Stable (fun _ _ => True) (State.Sound hash) Call.Local where
  begin _ _ _ := trivial
  shared x s k h hl _ :=
    (h.later x.elapsed).step (hl.mono (s.extends_later x.elapsed)) (Call.step_spec x s k)
  own x s k h hl _ :=
    (hl.mono (s.extends_later x.elapsed)).step (h.later x.elapsed) (Call.step_spec x s k)
  other x s k _ _ _ _ hl' := hl'.mono (Call.step_extends x s k)

theorem newAuthenticator_sound (clock : Int) : (newAuthenticator cfg clock).Sound hash where
  cached := by simp [newAuthenticator, Lru.empty]
  justified := by simp [newAuthenticator]
  owned := by simp [newAuthenticator]

def CollisionFree (hash : String → String) (s : Gateway cfg) : Prop :=
  ∀ rpc ∈ s.rpcs, ∀ r ∈ s.returned, hash rpc.key = hash r.query.key → rpc.key = r.query.key

def RevokedFrom (s : Gateway cfg) (key : String) (since : Int) : Prop :=
  ∀ rpc ∈ s.rpcs, rpc.key = key → since ≤ rpc.started → ∀ resp, rpc.answer ≠ .valid resp

def runOf (hash : String → String) (cfg : CacheConfig) (clock : Int)
    (events : List (Event (List (String × List String)) Draw)) : Gateway cfg :=
  ((authenticate hash cfg).run ((authenticate hash cfg).init (newAuthenticator cfg clock)) events).shared

theorem runOf_sound (clock : Int) (events : List (Event (List (String × List String)) Draw)) :
    (runOf hash cfg clock events).Sound hash :=
  ((authenticate_stable hash cfg).always (newAuthenticator_sound clock) trivial events).left

theorem Justified.started_lt
    (hj : Justified hash s r data rpc) (hkey : rpc.key = r.query.key) (hrev : RevokedFrom s r.query.key since) :
    rpc.started < since := by
  obtain ⟨resp, hresp, -⟩ := hj.grants
  by_contra hle
  exact hrev rpc hj.mem hkey (not_lt.mp hle) resp hresp

theorem revocation_bound (hash : String → String) (cfg : Config) (hcfg : cfg.validate = []) (clock : Int)
    (events : List (Event (List (String × List String)) Draw))
    (hfree : CollisionFree hash (runOf hash cfg.cache clock events)) :
    let s := runOf hash cfg.cache clock events
    ∀ r ∈ s.returned, ∀ data, r.result = .ok data →
      (∃ rpc ∈ s.rpcs, rpc.key = r.query.key ∧ rpc.Grants data) ∧
      ∀ since, RevokedFrom s r.query.key since →
        (since + cfg.cache.ttl ≤ r.query.now → r.OwnFailed) ∧
        r.query.now < since + max cfg.cache.ttl cfg.cache.staleIfError := by
  intro s r hr data hdata
  have httl := cfg.ttl_pos hcfg
  obtain ⟨rpc, hj⟩ := (runOf_sound clock events).justified r hr data hdata
  have hkey := hfree rpc hj.mem r hr hj.hash
  refine ⟨⟨rpc, hj.mem, hkey, hj.grants⟩, ?_⟩
  intro since hrev
  have hlt := hj.started_lt hkey hrev
  have hmax := le_max_left cfg.cache.ttl cfg.cache.staleIfError
  have hmax' := le_max_right cfg.cache.ttl cfg.cache.staleIfError
  obtain hrecent | hrecent | ⟨hown, hrecent⟩ := hj.recent
  -- The first two answers are too recent to be as old as the revocation.
  · exact ⟨by omega, by omega⟩
  · exact ⟨by omega, by omega⟩
  · exact ⟨fun _ => hown, by omega⟩

end Bound

section Sample

def sampleConfig : Config where
  endpoint := "host.docker.internal:9443"
  cache :=
    { ttl := 30 * second, negativeTTL := 5 * second, maxEntries := 50000, staleIfError := 900 * second }

def sampleSources : List (String × List String) :=
  [("X-Api-Key", ["otm_acme"])]

def sampleHash (key : String) : String :=
  if key = "otm_acme" then "fa7847cd2c0e44f3271e92d824deb490591aeddc3058c79e060c18be78531d95" else key

def sampleResponse : ValidateAPIKeyResponse where
  clientID := "cust_acme"
  customerID := "acme"
  cacheTtlSeconds := 30
  rateLimitItemsPerSec := 100

def callOf (slot : Nat) (answer : Answer) (seconds : List Nat) :
    List (Event (List (String × List String)) Draw) :=
  .start slot sampleSources :: seconds.map fun n => .run slot ⟨n * 1000000000, answer⟩

-- The key is valid, then accepted from the cache, and then revoked. The next RPC fails, and the one
-- after that is told.
def sampleRun : List (Event (List (String × List String)) Draw) :=
  callOf 0 (.valid sampleResponse) [1, 0, 0, 1, 0] ++ callOf 1 .invalid [10, 0] ++
    callOf 2 (.failed "unreachable") [60, 0, 0, 5, 0] ++ callOf 3 .invalid [60, 0, 0, 1, 0]

def sampleState : Gateway sampleConfig.cache :=
  runOf sampleHash sampleConfig.cache 0 sampleRun

-- The key is revoked after two seconds. It is accepted until it has been in use for half a minute, and
-- then only by the call whose own RPC has failed.
theorem sampleRun_bounded :
    sampleState.returned.map (·.outcome) = [.ok, .ok, .upstreamErrorStale, .invalidKey] ∧
      sampleState.returned.map (·.query.now) = [1 * second, 12 * second, 72 * second, 137 * second] ∧
      RevokedFrom sampleState "otm_acme" (2 * second) ∧
      ∀ r ∈ sampleState.returned, ∀ data, r.result = .ok data →
        (∃ rpc ∈ sampleState.rpcs, rpc.key = r.query.key ∧ rpc.Grants data) ∧
        ∀ since, RevokedFrom sampleState r.query.key since →
          (since + 30 * second ≤ r.query.now → r.OwnFailed) ∧
          r.query.now < since + max (30 * second) (900 * second) := by
  refine ⟨by decide +kernel, by decide +kernel, ?_, ?_⟩
  · intro rpc hrpc _ hstarted resp hresp
    have hnone : ∀ rpc ∈ sampleState.rpcs, 2 * second ≤ rpc.started → rpc.answer = .invalid ∨
        rpc.answer = .failed "unreachable" := by
      decide +kernel
    simpa [hresp] using hnone rpc hrpc hstarted
  · exact revocation_bound sampleHash sampleConfig (by decide +kernel) 0 sampleRun
      (by unfold CollisionFree; decide +kernel)

end Sample

section Final

def NoLaterDenial (returned : List Return) (rpc : RPC) : Prop :=
  ∀ r ∈ returned, ∀ own ∈ r.own, own.key = rpc.key → own.answer = .invalid → own.started ≤ rpc.started

instance (returned : List Return) (rpc : RPC) : Decidable (NoLaterDenial returned rpc) :=
  inferInstanceAs <| Decidable <| ∀ r ∈ returned, ∀ own ∈ r.own, _ → _ → _

def Return.accepted (r : Return) : Bool :=
  match r.result with
  | .ok _ => true
  | .error _ => false

-- No call is accepted because of an RPC if, before it began, a call has returned that was told
-- otherwise by a later RPC.
def RevocationsFinal (s : Gateway cfg) : Prop :=
  ∀ r ∈ s.returned, r.accepted → ∀ rpc ∈ r.basis, NoLaterDenial (s.returned.take r.query.before) rpc

instance (s : Gateway cfg) : Decidable (RevocationsFinal s) :=
  inferInstanceAs <| Decidable <| ∀ r ∈ s.returned, _ → ∀ rpc ∈ r.basis, _

-- A valid key is put into the cache only if no call has returned that was told otherwise by a later RPC.
def StoresInOrder (s : Gateway cfg) : Call → Prop
  | .grant _ rpc _ => NoLaterDenial s.returned rpc
  | _ => True

instance (s : Gateway cfg) (k : Call) : Decidable (StoresInOrder s k) := by
  unfold StoresInOrder
  split <;> infer_instance

structure State.Final (s : Gateway cfg) : Prop where
  cached : ∀ i ∈ s.cache.items, i.2.1.data.isSome → NoLaterDenial s.returned i.2.2
  before : ∀ r ∈ s.returned, r.query.before ≤ s.returned.length
  accepted : RevocationsFinal s

theorem NoLaterDenial.concat (h : NoLaterDenial returned rpc)
    (hr : ∀ own ∈ r.own, own.key = rpc.key → own.answer = .invalid → own.started ≤ rpc.started) :
    NoLaterDenial (returned ++ [r]) rpc := by
  intro r' hr'
  obtain hr' | rfl := by simpa using hr'
  · exact h r' hr'
  · exact hr

theorem NoLaterDenial.take (h : NoLaterDenial returned rpc) (n : Nat) : NoLaterDenial (returned.take n) rpc :=
  fun r hr => h r (List.mem_of_mem_take hr)

theorem State.Final.return (h : s.Final)
    (hcache : ∀ i ∈ c.items, i.2.1.data.isSome → NoLaterDenial (s.returned ++ [r]) i.2.2)
    (hbefore : r.query.before ≤ s.returned.length)
    (hr : r.accepted → ∀ rpc ∈ r.basis, NoLaterDenial (s.returned.take r.query.before) rpc) :
    ({ s with cache := c }.return r : Gateway cfg).Final where
  cached := hcache
  before r' hr' := by
    rw [State.return, List.length_append]
    obtain hr' | rfl := mem_return hr'
    · exact (h.before r' hr').trans (Nat.le_add_right _ _)
    · exact hbefore.trans (Nat.le_add_right _ _)
  accepted r' hr' hacc rpc hrpc := by
    rw [State.return]
    obtain hr' | rfl := mem_return hr'
    · rw [List.take_append_of_le_length (h.before r' hr')]
      exact h.accepted r' hr' hacc rpc hrpc
    · rw [List.take_append_of_le_length hbefore]
      exact hr hacc rpc hrpc

theorem NoLaterDenial.of_own (h : NoLaterDenial returned rpc)
    (hr : ∀ own ∈ r.own, own.answer ≠ .invalid) : NoLaterDenial (returned ++ [r]) rpc :=
  h.concat fun own hown _ hinv => absurd hinv (hr own hown)

theorem State.Final.step (h : s.Final) (hsound : s.Sound hash) (hl : k.Local s) (hok : StoresInOrder s k)
    (hs : Call.Step hash s k k' s') : s'.Final := by
  have hkept : ∀ {c : Lru String (CacheEntry × RPC) cfg.maxEntries.toNat} {r : Return}, SubCache c s.cache →
      (∀ own ∈ r.own, own.answer ≠ .invalid) → ∀ i ∈ c.items, i.2.1.data.isSome →
      NoLaterDenial (s.returned ++ [r]) i.2.2 :=
    fun hsub hown i hi hdata => (h.cached i (hsub i hi) hdata).of_own hown
  cases hs
  case idle | sample | send => exact h
  case noKey key =>
    exact h.return (hkept (fun _ hi => hi) (by simp)) le_rfl (by simp [Return.accepted])
  case miss q c hsub =>
    exact ⟨fun i hi => h.cached i (hsub i hi), h.before, h.accepted⟩
  case refuse q c rpc hsub =>
    exact h.return (hkept hsub (by simp)) hl.before (by simp [Return.accepted])
  case fresh q c e rpc data hsub hmem hdata hfresh =>
    refine h.return (hkept hsub (by simp)) hl.before ?_
    rintro - rpc' hrpc'
    obtain rfl : rpc = rpc' := by simpa using hrpc'
    exact (h.cached _ hmem (by simp [hdata])).take _
  case failed | invalid | valid => exact ⟨h.cached, h.before, h.accepted⟩
  case stale q own err c e rpc data hsub hmem hdata hstale =>
    refine h.return (hkept hsub (by simp [hl.right])) hl.left.before ?_
    rintro - rpc' hrpc'
    obtain rfl : rpc = rpc' := by simpa using hrpc'
    exact (h.cached _ hmem (by simp [hdata])).take _
  case reject q own err c hsub =>
    exact h.return (hkept hsub (by simp [hl.right])) hl.left.before (by simp [Return.accepted])
  case deny q rpc =>
    refine h.return ?_ hl.left.before (by simp [Return.accepted])
    intro i hi hdata
    obtain rfl | ⟨hi, hne⟩ := Lru.mem_put hi
    · simp [negativeEntry] at hdata
    -- What is left of the cache is about other keys.
    · refine (h.cached i hi hdata).concat ?_
      intro own hown hkey
      obtain rfl : rpc = own := by simpa using hown
      rw [(hsound.cached i hi).hash, ← hkey, hl.left.key] at hne
      exact absurd rfl hne
  case grant q rpc resp =>
    have hown : ∀ own ∈ some rpc, own.answer ≠ .invalid := by simp [hl.right]
    refine h.return ?_ hl.left.before ?_
    · intro i hi hdata
      obtain rfl | ⟨hi, -⟩ := Lru.mem_put hi
      · exact NoLaterDenial.of_own hok hown
      · exact (h.cached i hi hdata).of_own hown
    · rintro - rpc' hrpc' r hr own hown' - -
      obtain rfl : rpc = rpc' := by simpa using hrpc'
      exact (hl.left.earlier r hr own hown').trans hl.left.started

theorem authenticate_stable_final (hash : String → String) (cfg : CacheConfig) :
    (authenticate hash cfg).Stable StoresInOrder (fun s => s.Sound hash ∧ s.Final) Call.Local where
  begin _ _ _ := trivial
  shared x s k h hl hok := by
    have hlater : (s.later x.elapsed).Final := ⟨h.right.cached, h.right.before, h.right.accepted⟩
    have hs : Call.Step hash (s.later x.elapsed) k _ _ := Call.step_spec x s k
    have hl := hl.mono (s.extends_later x.elapsed)
    exact ⟨(h.left.later x.elapsed).step hl hs, hlater.step (h.left.later x.elapsed) hl (by cases k <;> exact hok) hs⟩
  own x s k h hl _ :=
    (hl.mono (s.extends_later x.elapsed)).step (h.left.later x.elapsed) (Call.step_spec x s k)
  other x s k _ _ _ _ hl' := hl'.mono (Call.step_extends x s k)

theorem observed_revocations_final (hash : String → String) (cfg : CacheConfig) (clock : Int)
    (events : List (Event (List (String × List String)) Draw))
    (h : (authenticate hash cfg).Meets StoresInOrder
      ((authenticate hash cfg).init (newAuthenticator cfg clock)) events) :
    RevocationsFinal (runOf hash cfg clock events) := by
  have hinit : (newAuthenticator cfg clock).Final :=
    ⟨by simp [newAuthenticator, Lru.empty], by simp [newAuthenticator], by simp [newAuthenticator, RevocationsFinal]⟩
  have hrun := (authenticate_stable_final hash cfg).run (c := (authenticate hash cfg).init (newAuthenticator cfg clock))
    ⟨newAuthenticator_sound clock, hinit⟩ (fun _ => trivial) h
  exact hrun.left.right.accepted

-- The key is valid, then denied, and then valid again: the last call is accepted from the cache.
def reinstatedRun : List (Event (List (String × List String)) Draw) :=
  callOf 0 (.valid sampleResponse) [1, 0, 0, 1, 0] ++ callOf 1 .invalid [60, 0, 0, 1, 0] ++
    callOf 2 (.valid sampleResponse) [60, 0, 0, 1, 0] ++ callOf 3 .invalid [1, 0]

theorem reinstatedRun_final :
    let s := runOf sampleHash sampleConfig.cache 0 reinstatedRun
    s.returned.map (fun r => (r.outcome, r.query.before, r.own.isSome)) =
        [(.ok, 0, true), (.invalidKey, 1, true), (.ok, 2, true), (.ok, 3, false)] ∧
      s.rpcs.map (fun rpc => (rpc.started, rpc.answer)) =
        [(1 * second, .valid sampleResponse), (62 * second, .invalid), (123 * second, .valid sampleResponse)] ∧
      RevocationsFinal s :=
  ⟨by decide +kernel, by decide +kernel,
    observed_revocations_final sampleHash sampleConfig.cache 0 reinstatedRun (by decide +kernel)⟩

-- The first RPC is answered before the key is revoked, but its answer is late. The second one is told
-- of the revocation and its call returns. Then the late answer is stored.
def lateAnswer : List (Event (List (String × List String)) Draw) :=
  callOf 0 (.valid sampleResponse) [1, 0, 0] ++ callOf 1 .invalid [1, 0, 0, 1, 0] ++
    [.run 0 ⟨1000000000, .valid sampleResponse⟩, .run 0 ⟨0, .failed ""⟩] ++ callOf 2 .invalid [1, 0]

theorem late_answer_revives_key :
    let s := runOf sampleHash sampleConfig.cache 0 lateAnswer
    s.rpcs = [⟨"otm_acme", 2 * second, .invalid⟩, ⟨"otm_acme", 1 * second, .valid sampleResponse⟩] ∧
      s.returned.map (fun r => (r.outcome, r.query.before, r.own.isSome)) =
        [(.invalidKey, 0, true), (.ok, 0, true), (.ok, 2, false)] ∧
      ¬RevocationsFinal s := by
  decide +kernel

end Final
end Tenantauth
