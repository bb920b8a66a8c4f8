import OtelFleet.Lib.Interleave
import OtelFleet.Lib.Lru
import OtelFleet.Lib.Strings
import OtelFleet.Tenants.Slug

-- The extension that authenticates the senders of telemetry by their API keys.
namespace Tenantauth

section Config

structure CacheConfig where
  ttl : Int
  negativeTTL : Int
  maxEntries : Int
  staleIfError : Int

structure Config where
  endpoint : String
  cache : CacheConfig

def Config.validate (cfg : Config) : List String :=
  (if cfg.endpoint = "" then ["endpoint must be set to the control-plane AuthService gRPC address"] else []) ++
  (if cfg.cache.ttl ≤ 0 then ["cache.ttl must be positive"] else []) ++
  (if cfg.cache.negativeTTL ≤ 0 then ["cache.negative_ttl must be positive"] else []) ++
  (if cfg.cache.maxEntries ≤ 0 then ["cache.max_entries must be positive"] else []) ++
  (if cfg.cache.staleIfError < 0 then ["cache.stale_if_error must not be negative"] else [])

end Config

section Key

def lower (s : String) : String :=
  .ofList (s.toList.map Tenants.toLower)

def firstKey (keyOf : String → Option String) (found : String) (values : List String) : String :=
  values.foldl (fun found v =>
    match keyOf v with
    | some k => if k ≠ "" ∧ found = "" then k else found
    | none => found) found

def bearerKey (v : String) : Option String :=
  (Strings.cut (Strings.trimSpace v) ' ').bind fun r =>
    if lower r.1 = "bearer" then some (Strings.trimSpace r.2) else none

-- The headers come in any order, and names that differ in case come apart.
def extractKey (sources : List (String × List String)) : String :=
  let found := sources.foldl (fun (bearer, apiKey) (name, values) =>
    if lower name = "authorization" then (firstKey bearerKey bearer values, apiKey)
    else if lower name = "x-api-key" then (bearer, firstKey (some ∘ Strings.trimSpace) apiKey values)
    else (bearer, apiKey)) ("", "")
  if found.1 ≠ "" then found.1 else found.2

end Key

structure AuthData where
  tenantID : String
  clientID : String
  customerID : String
  rateLimitItemsPerSec : Int
deriving DecidableEq

structure ValidateAPIKeyResponse where
  clientID : String
  customerID : String
  cacheTtlSeconds : UInt32
  rateLimitItemsPerSec : UInt32
deriving DecidableEq

inductive Answer where
  | failed (err : String)
  | invalid
  | valid (resp : ValidateAPIKeyResponse)
deriving DecidableEq

structure CacheEntry where
  valid : Bool
  data : Option AuthData
  freshUntil : Int
  staleUntil : Int
  data_iff_valid : data.isSome = valid
deriving DecidableEq

def authData (resp : ValidateAPIKeyResponse) : AuthData where
  tenantID := resp.clientID
  clientID := resp.clientID
  customerID := resp.customerID
  rateLimitItemsPerSec := resp.rateLimitItemsPerSec.toNat

def second : Int :=
  1000000000

def effectiveTTL (cfg : CacheConfig) (resp : ValidateAPIKeyResponse) : Int :=
  if 0 < resp.cacheTtlSeconds then
    let serverTTL := resp.cacheTtlSeconds.toNat * second
    if serverTTL < cfg.ttl then serverTTL else cfg.ttl
  else cfg.ttl

def negativeEntry (cfg : CacheConfig) (now : Int) : CacheEntry where
  valid := false
  data := none
  freshUntil := now + cfg.negativeTTL
  staleUntil := 0
  data_iff_valid := rfl

def positiveEntry (cfg : CacheConfig) (now : Int) (resp : ValidateAPIKeyResponse) : CacheEntry where
  valid := true
  data := some (authData resp)
  freshUntil := now + effectiveTTL cfg resp
  staleUntil := now + cfg.staleIfError
  data_iff_valid := rfl

structure RPC where
  key : String
  started : Int
  answer : Answer
deriving DecidableEq

inductive Outcome where
  | ok
  | invalidKey
  | noKey
  | upstreamErrorStale
  | upstreamErrorReject
deriving DecidableEq

-- What a call has sampled. Apart from the key and the time, it is remembered how many calls had
-- returned before, which the code does not know.
structure Query where
  key : String
  now : Int
  before : Nat
deriving DecidableEq

-- A call that has returned, with the RPC it has made, if any, and the one whose answer it rests on.
structure Return where
  query : Query
  own : Option RPC
  basis : Option RPC
  outcome : Outcome
  result : Except String AuthData
deriving DecidableEq

def errNoKey : String :=
  "no API key provided: expected 'Authorization: Bearer <key>' or 'X-Api-Key' header"

def errInvalidKey : String :=
  "invalid API key"

def errUnavailable (err : String) : String :=
  "API key validation unavailable: " ++ err

-- The clock, the cache, and the history of RPCs and calls. An entry of the cache is kept along with
-- the RPC that it stems from.
structure State (max : Nat) where
  clock : Int
  cache : Lru String (CacheEntry × RPC) max
  rpcs : List RPC
  returned : List Return

def State.return {max : Nat} (s : State max) (r : Return) : State max :=
  { s with returned := s.returned ++ [r] }

inductive Call where
  | idle
  | sample (key : String)
  | lookup (q : Query)
  | send (q : Query)
  | receive (q : Query) (started : Int)
  | fallback (q : Query) (rpc : RPC) (err : String)
  | deny (q : Query) (rpc : RPC)
  | grant (q : Query) (rpc : RPC) (resp : ValidateAPIKeyResponse)
deriving DecidableEq

def Call.isIdle : Call → Bool
  | idle => true
  | _ => false

structure Draw where
  elapsed : Nat
  answer : Answer

section Authenticate

variable (hash : String → String) (cfg : CacheConfig)

abbrev Gateway : Type :=
  State cfg.maxEntries.toNat

variable {cfg}

def Call.next (x : Draw) (s : Gateway cfg) : Call → Call × Gateway cfg
  | idle => (.idle, s)
  | sample key =>
    let q : Query := { key := key, now := s.clock, before := s.returned.length }
    if key = "" then
      (.idle, s.return { query := q, own := none, basis := none, outcome := .noKey, result := .error errNoKey })
    else (.lookup q, s)
  | lookup q =>
    let r := s.cache.get (hash q.key)
    let s := { s with cache := r.2 }
    match r.1 with
    | none => (.send q, s)
    | some (e, rpc) =>
      if q.now < e.freshUntil then
        match e.data with
        | none =>
          (.idle, s.return
            { query := q, own := none, basis := some rpc, outcome := .invalidKey, result := .error errInvalidKey })
        | some data =>
          (.idle, s.return { query := q, own := none, basis := some rpc, outcome := .ok, result := .ok data })
      else (.send q, s)
  | send q => (.receive q s.clock, s)
  | receive q started =>
    let rpc : RPC := { key := q.key, started := started, answer := x.answer }
    let s := { s with rpcs := s.rpcs ++ [rpc] }
    match x.answer with
    | .failed err => (.fallback q rpc err, s)
    | .invalid => (.deny q rpc, s)
    | .valid resp => (.grant q rpc resp, s)
  | fallback q own err =>
    let r := s.cache.get (hash q.key)
    let s := { s with cache := r.2 }
    let reject : Return :=
      { query := q, own := some own, basis := none, outcome := .upstreamErrorReject
        result := .error (errUnavailable err) }
    match r.1 with
    | none => (.idle, s.return reject)
    | some (e, rpc) =>
      match e.data with
      | none => (.idle, s.return reject)
      | some data =>
        if q.now < e.staleUntil then
          (.idle, s.return
            { query := q, own := some own, basis := some rpc, outcome := .upstreamErrorStale, result := .ok data })
        else (.idle, s.return reject)
  | deny q rpc =>
    let s := { s with cache := s.cache.put (hash q.key) (negativeEntry cfg q.now, rpc) }
    (.idle, s.return
      { query := q, own := some rpc, basis := some rpc, outcome := .invalidKey, result := .error errInvalidKey })
  | grant q rpc resp =>
    let s := { s with cache := s.cache.put (hash q.key) (positiveEntry cfg q.now resp, rpc) }
    (.idle, s.return
      { query := q, own := some rpc, basis := some rpc, outcome := .ok, result := .ok (authData resp) })

def Call.step (x : Draw) (s : Gateway cfg) (k : Call) : Call × Gateway cfg :=
  k.next hash x { s with clock := s.clock + x.elapsed }

variable (cfg)

def authenticate : Interleave.System (List (String × List String)) Call (Gateway cfg) Draw where
  idle := .idle
  isIdle := Call.isIdle
  begin sources := .sample (extractKey sources)
  step := Call.step hash

def newAuthenticator (clock : Int) : Gateway cfg :=
  { clock := clock, cache := .empty, rpcs := [], returned := [] }

end Authenticate
end Tenantauth
