import OtelFleet.Store.Tables
import OtelFleet.Lib.Paging
import Mathlib.Data.List.Infix

open Store (UUID DB)
open Paging (Descending)

-- The search in stored telemetry. Times are in nanoseconds.
namespace Query

inductive Error where
  | store (e : Store.Error)
  | upstreamUnavailable

def tenant (db : DB) (customerID : UUID) : Except Error String :=
  match db.getCustomer customerID with
  | .error e => .error (.store e)
  | .ok c => .ok c.clientID

def clampLimit (n : Int) : Nat :=
  if n ≤ 0 then 100 else if 1000 < n then 1000 else n.toNat

def nextCursor {α : Type} (rows : List α) (limit : Nat) (ts : α → Int) : Option Int :=
  if rows.length < limit ∨ rows.length = 0 then none else rows.getLast?.map ts

def positionCaseInsensitive (s text : String) : Bool :=
  text.toList.map Char.toLower <:+: s.toList.map Char.toLower

-- The time that the database compares with when the driver passes a time on to it.
abbrev RenderTime := Int → Int

abbrev Attributes := List (String × String)

def mapUpdate (m m' : Attributes) : Attributes :=
  m.filter (fun e => e.1 ∉ Assoc.keys m') ++ m'

section Logs

structure LogRow where
  timestamp : Int
  severityText : String := ""
  severityNumber : UInt8 := 0
  serviceName : String := ""
  body : String := ""
  traceID : String := ""
  spanID : String := ""
  resourceAttributes : Attributes := []
  logAttributes : Attributes := []
deriving DecidableEq

def LogRow.tenantID (r : LogRow) : String :=
  (r.resourceAttributes.lookup "tenant.id").getD ""

structure LogRecord where
  timestamp : Int
  severityText : String
  severityNumber : Int
  serviceName : String
  body : String
  traceID : String
  spanID : String
  attributes : Attributes
deriving DecidableEq

def LogRow.record (r : LogRow) : LogRecord where
  timestamp := r.timestamp
  severityText := r.severityText
  severityNumber := r.severityNumber.toNat
  serviceName := r.serviceName
  body := r.body
  traceID := r.traceID
  spanID := r.spanID
  attributes := mapUpdate r.resourceAttributes r.logAttributes

structure LogQuery where
  start : Int
  stop : Int
  text : String := ""
  service : String := ""
  minSeverity : Int := 0
  limit : Int := 0
  before : Option Int := none

def LogQuery.selects (q : LogQuery) (render : RenderTime) (tenant : String) (r : LogRow) : Bool :=
  r.tenantID = tenant ∧ render q.start ≤ r.timestamp ∧ r.timestamp < render q.stop ∧
    (q.text ≠ "" → positionCaseInsensitive r.body q.text) ∧
    (q.service ≠ "" → r.serviceName = q.service) ∧
    (0 < q.minSeverity → q.minSeverity ≤ r.severityNumber.toNat) ∧
    ∀ t ∈ q.before, r.timestamp < render t

-- The log table, if it can be queried, gives rows with the same time in any order.
def queryLogs (render : RenderTime) (db : DB) (logs : Option (List LogRow)) (order : Descending LogRow.timestamp)
    (customerID : UUID) (q : LogQuery) : Except Error (List LogRecord × Option Int) := do
  let tenant ← tenant db customerID
  let limit := clampLimit q.limit
  match logs with
  | none => .error .upstreamUnavailable
  | some logs =>
    let out := ((order.sort (logs.filter (q.selects render tenant))).take limit).map (·.record)
    return (out, nextCursor out limit (·.timestamp))

end Logs

section Traces

structure SpanRow where
  traceID : String
  spanID : String := ""
  parentSpanID : String := ""
  name : String := ""
  serviceName : String := ""
  timestamp : Int
  duration : UInt64 := 0
  statusCode : String := ""
  resourceAttributes : Attributes := []
deriving DecidableEq

def SpanRow.tenantID (s : SpanRow) : String :=
  (s.resourceAttributes.lookup "tenant.id").getD ""

def SpanRow.failed (s : SpanRow) : Bool :=
  s.statusCode = "STATUS_CODE_ERROR" || s.statusCode = "Error"

structure TraceSummary where
  traceID : String
  rootName : String
  rootService : String
  startTime : Int
  duration : UInt64
  spanCount : Int32 := 0
  errorCount : Int32 := 0
deriving DecidableEq

def SpanRow.summary (s : SpanRow) : TraceSummary where
  traceID := s.traceID
  rootName := s.name
  rootService := s.serviceName
  startTime := s.timestamp
  duration := s.duration

-- The least duration is in nanoseconds, and missing unless it is positive.
structure TraceQuery where
  start : Int
  stop : Int
  service : String := ""
  name : String := ""
  minDuration : Option Int := none
  errorsOnly : Bool := false
  limit : Int := 0
  before : Option Int := none

def TraceQuery.selects (q : TraceQuery) (render : RenderTime) (tenant : String) (s : SpanRow) : Bool :=
  s.tenantID = tenant ∧ s.parentSpanID = "" ∧ render q.start ≤ s.timestamp ∧ s.timestamp < render q.stop ∧
    (q.service ≠ "" → s.serviceName = q.service) ∧
    (q.name ≠ "" → positionCaseInsensitive s.name q.name) ∧
    (∀ d ∈ q.minDuration, d ≤ s.duration.toNat) ∧
    ∀ t ∈ q.before, s.timestamp < render t

structure SpanCounts where
  spans : Int32
  errors : Int32

def traceCounts (spans : List SpanRow) (tenant : String) (ids : List String) (id : String) : Option SpanCounts :=
  let group := spans.filter fun s => s.tenantID = tenant ∧ s.traceID ∈ ids ∧ s.traceID = id
  if group = [] then none
  else some { spans := .ofNat group.length, errors := .ofNat (group.countP (·.failed)) }

def TraceSummary.count (t : TraceSummary) : Option SpanCounts → TraceSummary
  | none => t
  | some c => { t with spanCount := c.spans, errorCount := c.errors }

-- The traces are queried first, and counted then. Either query may fail.
def queryTraces (render : RenderTime) (db : DB) (spans counted : Option (List SpanRow))
    (order : Descending SpanRow.timestamp) (customerID : UUID) (q : TraceQuery) : Except Error (List TraceSummary × Option Int) := do
  let tenant ← tenant db customerID
  let limit := clampLimit q.limit
  match spans with
  | none => .error .upstreamUnavailable
  | some spans =>
    let summaries := ((order.sort (spans.filter (q.selects render tenant))).take limit).map (·.summary)
    let ids := summaries.map (·.traceID)
    if ids = [] then return (summaries, nextCursor summaries limit (·.startTime))
    else
      match counted with
      | none => .error .upstreamUnavailable
      | some counted =>
        let summaries := (summaries.map fun t => t.count (traceCounts counted tenant ids t.traceID)).filter
          fun t => ¬(q.errorsOnly ∧ t.errorCount = 0)
        return (summaries, nextCursor summaries limit (·.startTime))

end Traces

end Query
