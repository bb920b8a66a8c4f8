import OtelFleet.Lib.Interleave
import Mathlib.Data.Rat.Floor
import Mathlib.Algebra.Order.Field.Rat

-- The processor that limits how many items a tenant may send, in exact arithmetic.
namespace Tenantquota

structure Config where
  burstSeconds : ℚ

def Config.validate (cfg : Config) : Option String :=
  if cfg.burstSeconds ≤ 0 then some "burst_seconds must be positive" else none

def second : Int :=
  1000000000

def seconds (d : Int) : ℚ :=
  d / 1000000000

def idleTimeout : Int :=
  600 * second

def gcInterval : Int :=
  600 * second

structure Bucket where
  tokens : ℚ
  capacity : ℚ
  rate : ℚ
  lastSeen : Int

structure Registry where
  burstSeconds : ℚ
  buckets : String → Option Bucket
  lastGC : Int

def newRegistry (burstSeconds : ℚ) : Registry :=
  { burstSeconds := burstSeconds, buckets := fun _ => none, lastGC := 0 }

def Registry.sweep (r : Registry) (now : Int) : Registry :=
  { r with
    lastGC := now
    buckets := fun tenant => (r.buckets tenant).filter fun b => ¬idleTimeout ≤ now - b.lastSeen }

def Registry.maybeGC (r : Registry) (now : Int) : Registry :=
  if now - r.lastGC < gcInterval then r else r.sweep now

def trunc (x : ℚ) : Int :=
  if 0 ≤ x then ⌊x⌋ else -⌊-x⌋

def retryHint (deficit rate : ℚ) : Int :=
  let d := trunc (deficit / rate * 1000000000)
  let d := if d < second / 10 then second / 10 else d
  if 30 * second < d then 30 * second else d

-- Refills a bucket for the time that has gone by, and applies a change of the limit.
def Bucket.refill (b : Bucket) (now : Int) (rate capacity : ℚ) : Bucket :=
  let dt := seconds (now - b.lastSeen)
  let tokens := if 0 < dt then b.tokens + dt * b.rate else b.tokens
  { tokens := if capacity < tokens then capacity else tokens
    capacity := capacity
    rate := rate
    lastSeen := now }

def Registry.bucket (r : Registry) (tenant : String) (now : Int) (rate capacity : ℚ) : Bucket :=
  (r.buckets tenant).getD { tokens := capacity, capacity := capacity, rate := rate, lastSeen := now }

structure Request where
  tenant : String
  limit : Int
  n : Nat
deriving DecidableEq

structure Result where
  allowed : Bool
  retryAfter : Int
deriving DecidableEq

def Registry.refilled (r : Registry) (now : Int) (req : Request) : Bucket :=
  let rate : ℚ := req.limit
  let capacity := rate * r.burstSeconds
  ((r.maybeGC now).bucket req.tenant now rate capacity).refill now rate capacity

def Registry.setBucket (r : Registry) (tenant : String) (b : Bucket) : Registry :=
  { r with buckets := Function.update r.buckets tenant (some b) }

-- What `take` does while it holds the lock. The time was sampled before.
def Registry.take (r : Registry) (now : Int) (req : Request) : Result × Registry :=
  let b := r.refilled now req
  if req.n ≤ b.tokens then
    ({ allowed := true, retryAfter := 0 },
      (r.maybeGC now).setBucket req.tenant { b with tokens := b.tokens - req.n })
  else
    ({ allowed := false, retryAfter := retryHint (req.n - b.tokens) req.limit },
      (r.maybeGC now).setBucket req.tenant b)

structure Taken where
  request : Request
  now : Int
  result : Result
deriving DecidableEq

structure State where
  clock : Int
  registry : Registry
  log : List Taken

inductive Call where
  | idle
  | sample (req : Request)
  | lock (req : Request) (now : Int)

def Call.isIdle : Call → Bool
  | idle => true
  | _ => false

def Call.next (s : State) : Call → Call × State
  | idle => (.idle, s)
  | sample req => (.lock req s.clock, s)
  | lock req now =>
    let r := s.registry.take now req
    (.idle, { s with registry := r.2, log := s.log ++ [{ request := req, now := now, result := r.1 }] })

-- Calls of `take`. Each step happens some time after the one before.
def takes : Interleave.System Request Call State Nat where
  idle := .idle
  isIdle := Call.isIdle
  begin := .sample
  step elapsed s k := k.next { s with clock := s.clock + elapsed }

def initial (cfg : Config) (clock : Int) : State :=
  { clock := clock, registry := newRegistry cfg.burstSeconds, log := [] }

def Taken.admits (tenant : String) (a b : Int) (t : Taken) : Bool :=
  t.request.tenant = tenant ∧ t.result.allowed ∧ a ≤ t.now ∧ t.now ≤ b

def admitted (log : List Taken) (tenant : String) (a b : Int) : Nat :=
  ((log.filter (Taken.admits tenant a b)).map (·.request.n)).sum

end Tenantquota
