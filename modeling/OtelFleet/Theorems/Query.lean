import OtelFleet.Query

open Store (UUID DB Customer)
open Paging (Descending Follows Complete Together Apart under page)

-- What following the cursors of a search brings up.
namespace Query

section Pages

theorem clampLimit_pos (n : Int) : 0 < clampLimit n := by
  unfold clampLimit
  split_ifs <;> omega

theorem nextCursor_map (f : α → β) (rows : List α) (limit : Nat) (ts : β → Int) :
    nextCursor (rows.map f) limit ts = nextCursor rows limit (ts ∘ f) := by
  simp [nextCursor]

theorem tenant_eq (hc : db.getCustomer customerID = .ok c) : tenant db customerID = .ok c.clientID := by
  simp [tenant, hc]

end Pages

section Logs

variable {db : DB} {logs : List LogRow} {order : Descending LogRow.timestamp} {customerID : UUID} {c : Customer}
  {q : LogQuery}

def LogQuery.matching (q : LogQuery) (tenant : String) (logs : List LogRow) : List LogRow :=
  logs.filter ({ q with before := none }.selects id tenant)

def logPages (render : RenderTime) (db : DB) (logs : List LogRow) (order : Descending LogRow.timestamp)
    (customerID : UUID) (q : LogQuery) : Option Int → Except Error (List LogRecord × Option Int) :=
  fun before => queryLogs render db (some logs) order customerID { q with before := before }

theorem filter_selects_logs (q : LogQuery) (tenant : String) (logs : List LogRow) (before : Option Int) :
    logs.filter ({ q with before := before }.selects id tenant) =
      under LogRow.timestamp before (q.matching tenant logs) := by
  simp only [under, LogQuery.matching, List.filter_filter]
  refine List.filter_congr fun r _ => ?_
  rw [Bool.eq_iff_iff]
  simp only [LogQuery.selects, Bool.and_eq_true, decide_eq_true_eq, Option.not_mem_none, id_eq]
  tauto

theorem logPages_eq (hc : db.getCustomer customerID = .ok c) (before : Option Int) :
    logPages id db logs order customerID q before =
      let p := page order (clampLimit q.limit) (fun _ => true) (q.matching c.clientID logs) before
      .ok (p.1.map (·.record), p.2) := by
  simp only [logPages, queryLogs, tenant_eq hc, filter_selects_logs, nextCursor_map]
  simp [page, nextCursor, Function.comp_def, LogRow.record]

-- Paging ends, and it is complete if and only if no page ends between rows with the same time.
theorem queryLogs_complete_iff {render : RenderTime} (hrender : ∀ t, render t = t) (db : DB) (customerID : UUID)
    (logs : List LogRow) (order : Descending LogRow.timestamp) (q : LogQuery) (hc : db.getCustomer customerID = .ok c) :
    (∃ out, Follows (logPages render db logs order customerID q) none out) ∧
    (Complete (logPages render db logs order customerID q) ((q.matching c.clientID logs).map (·.record)) (·.timestamp) ↔
      Together LogRow.timestamp (clampLimit q.limit) (q.matching c.clientID logs)) := by
  obtain rfl : render = id := funext hrender
  have hn := clampLimit_pos q.limit
  have ⟨rows, hrows⟩ : ∃ rows, Follows (fun b => (.ok (page order (clampLimit q.limit) (fun _ => true)
      (q.matching c.clientID logs) b) : Except Error _)) none rows :=
    Paging.follows_exists order hn _ _ none
  have hpage (b : Option Int) (rows : List LogRow) (next : Option Int)
      (h : (.ok (page order (clampLimit q.limit) (fun _ => true) (q.matching c.clientID logs) b) : Except Error _) =
        .ok (rows, next)) : logPages id db logs order customerID q b = .ok (rows.map (·.record), next) := by
    rw [logPages_eq hc, Except.ok.inj h]
  have ⟨hsub, hsorted⟩ := hrows.subperm hn
  rw [List.filter_true, Paging.under_none] at hsub
  refine ⟨⟨_, hrows.map hpage⟩, ?_⟩
  rw [Paging.complete_map_iff (fun _ => rfl) hpage hrows hsub hsorted]
  have hiff := hrows.perm_iff_together hn
  rwa [Paging.under_none] at hiff

end Logs

section Traces

variable {db : DB} {spans : List SpanRow} {order : Descending SpanRow.timestamp} {customerID : UUID} {c : Customer}
  {q : TraceQuery}

def TraceQuery.matching (q : TraceQuery) (tenant : String) (spans : List SpanRow) : List SpanRow :=
  spans.filter ({ q with before := none }.selects id tenant)

def tracePages (render : RenderTime) (db : DB) (spans : List SpanRow) (order : Descending SpanRow.timestamp)
    (customerID : UUID) (q : TraceQuery) : Option Int → Except Error (List TraceSummary × Option Int) :=
  fun before => queryTraces render db (some spans) (some spans) order customerID { q with before := before }

def traceOf (spans : List SpanRow) (tenant : String) (root : SpanRow) : List SpanRow :=
  spans.filter fun s => s.tenantID = tenant ∧ s.traceID = root.traceID

def shown (spans : List SpanRow) (tenant : String) (root : SpanRow) : TraceSummary :=
  root.summary.count (some {
    spans := .ofNat (traceOf spans tenant root).length
    errors := .ofNat ((traceOf spans tenant root).countP (·.failed)) })

def TraceQuery.keeps (q : TraceQuery) (spans : List SpanRow) (tenant : String) (root : SpanRow) : Bool :=
  ¬(q.errorsOnly ∧ (shown spans tenant root).errorCount = 0)

def TraceQuery.wants (q : TraceQuery) (spans : List SpanRow) (tenant : String) (root : SpanRow) : Bool :=
  q.errorsOnly → ∃ s ∈ traceOf spans tenant root, s.failed

theorem filter_selects_traces (q : TraceQuery) (tenant : String) (spans : List SpanRow) (before : Option Int) :
    spans.filter ({ q with before := before }.selects id tenant) =
      under SpanRow.timestamp before (q.matching tenant spans) := by
  simp only [under, TraceQuery.matching, List.filter_filter]
  refine List.filter_congr fun r _ => ?_
  rw [Bool.eq_iff_iff]
  simp only [TraceQuery.selects, Bool.and_eq_true, decide_eq_true_eq, Option.not_mem_none, id_eq]
  tauto

theorem count_traceCounts {tenant : String} (hroot : root ∈ q.matching tenant spans) (hid : root.traceID ∈ ids) :
    root.summary.count (traceCounts spans tenant ids root.traceID) = shown spans tenant root := by
  have hgroup : (spans.filter fun s => s.tenantID = tenant ∧ s.traceID ∈ ids ∧ s.traceID = root.traceID) =
      traceOf spans tenant root := by
    refine List.filter_congr fun s _ => ?_
    rw [decide_eq_decide]
    exact ⟨fun h => ⟨h.left, h.right.right⟩, fun h => ⟨h.left, h.right ▸ hid, h.right⟩⟩
  have hne : traceOf spans tenant root ≠ [] := by
    have ⟨hmem, hsel⟩ := List.mem_filter.mp hroot
    have htenant : root.tenantID = tenant := (of_decide_eq_true hsel).left
    exact List.ne_nil_of_mem (List.mem_filter.mpr ⟨hmem, by simp [htenant]⟩)
  simp only [traceCounts, hgroup, if_neg hne, shown]

theorem tracePages_eq (hc : db.getCustomer customerID = .ok c) (before : Option Int) :
    tracePages id db spans order customerID q before =
      let p := page order (clampLimit q.limit) (q.keeps spans c.clientID) (q.matching c.clientID spans) before
      .ok (p.1.map (shown spans c.clientID), p.2) := by
  simp only [tracePages, queryTraces, tenant_eq hc, filter_selects_traces, page, bind, Except.bind]
  have hmem : ∀ s ∈ (order.sort (under SpanRow.timestamp before (q.matching c.clientID spans))).take
      (clampLimit q.limit), s ∈ q.matching c.clientID spans := by
    intro s hs
    have hs' := (order.perm _).mem_iff.mp (List.mem_of_mem_take hs)
    exact (Paging.mem_under.mp hs').left
  generalize (order.sort (under SpanRow.timestamp before (q.matching c.clientID spans))).take
    (clampLimit q.limit) = P at hmem ⊢
  by_cases hP : P = []
  · subst hP
    simp [nextCursor, pure, Except.pure]
  · have hids : (P.map (·.summary)).map (·.traceID) ≠ [] := by simpa using hP
    have hshown : (P.map (·.summary)).map (fun t => t.count
        (traceCounts spans c.clientID ((P.map (·.summary)).map (·.traceID)) t.traceID)) =
        P.map (shown spans c.clientID) := by
      rw [List.map_map]
      refine List.map_congr_left fun s hs => ?_
      exact count_traceCounts (hmem s hs) (List.mem_map_of_mem (List.mem_map_of_mem hs))
    simp only [if_neg hids, hshown, List.filter_map, nextCursor_map]
    rfl

theorem wants_of_keeps {tenant : String} (h : q.keeps spans tenant root) : q.wants spans tenant root := by
  refine decide_eq_true fun honly => ?_
  have hne : (shown spans tenant root).errorCount ≠ 0 := by simpa [TraceQuery.keeps, honly] using h
  refine List.countP_pos_iff.mp (Nat.pos_of_ne_zero fun hzero => hne ?_)
  exact congrArg Int32.ofNat hzero

theorem matching_sublist (q : TraceQuery) (tenant : String) (spans : List SpanRow) :
    (q.matching tenant spans).Sublist (spans.filter fun s => s.tenantID = tenant ∧ s.parentSpanID = "") := by
  refine List.monotone_filter_right spans fun s hs => ?_
  have hsel := of_decide_eq_true hs
  exact decide_eq_true ⟨hsel.left, hsel.right.left⟩

-- Over distinct times, paging is complete if and only if no number of failed spans wraps around to zero
-- and no trace that is kept is on a later page than one that is not.
theorem queryTraces_complete_iff {render : RenderTime} (hrender : ∀ t, render t = t) (db : DB) (customerID : UUID)
    (spans : List SpanRow) (order : Descending SpanRow.timestamp) (q : TraceQuery)
    (hc : db.getCustomer customerID = .ok c)
    (hroots : ((spans.filter fun s => s.tenantID = c.clientID ∧ s.parentSpanID = "").map (·.timestamp)).Nodup) :
    Complete (tracePages render db spans order customerID q)
        (((q.matching c.clientID spans).filter (q.wants spans c.clientID)).map (shown spans c.clientID)) (·.startTime) ↔
      (∀ s ∈ q.matching c.clientID spans, q.wants spans c.clientID s → q.keeps spans c.clientID s) ∧
      Apart SpanRow.timestamp (clampLimit q.limit) (q.keeps spans c.clientID) (q.matching c.clientID spans) := by
  obtain rfl : render = id := funext hrender
  have hn := clampLimit_pos q.limit
  have hkeys : ((q.matching c.clientID spans).map (·.timestamp)).Nodup :=
    hroots.sublist ((matching_sublist q c.clientID spans).map _)
  have ⟨rows, hrows⟩ : ∃ rows, Follows (fun b => (.ok (page order (clampLimit q.limit) (q.keeps spans c.clientID)
      (q.matching c.clientID spans) b) : Except Error _)) none rows :=
    Paging.follows_exists order hn _ _ none
  have hpage (b : Option Int) (rows : List SpanRow) (next : Option Int)
      (h : (.ok (page order (clampLimit q.limit) (q.keeps spans c.clientID) (q.matching c.clientID spans) b) :
        Except Error _) = .ok (rows, next)) :
      tracePages id db spans order customerID q b = .ok (rows.map (shown spans c.clientID), next) := by
    rw [tracePages_eq hc, Except.ok.inj h]
  have ⟨hsub, hsorted⟩ := hrows.subperm hn
  have hiff := hrows.perm_iff_apart hn hkeys
  rw [Paging.under_none] at hsub hiff
  have hkeep : ((q.matching c.clientID spans).filter (q.keeps spans c.clientID)).Sublist
      ((q.matching c.clientID spans).filter (q.wants spans c.clientID)) :=
    List.monotone_filter_right _ fun _ h => wants_of_keeps h
  rw [Paging.complete_map_iff (fun _ => rfl) hpage hrows (hsub.trans hkeep.subperm) hsorted, ← hiff]
  constructor
  case mp =>
    intro hall
    -- Everything wanted has come up, and only what is kept can.
    have heq := hkeep.eq_of_length (le_antisymm hkeep.length_le (hall.length_eq.ge.trans hsub.length_le))
    refine ⟨fun s hs hwants => ?_, heq ▸ hall⟩
    have hmem : s ∈ (q.matching c.clientID spans).filter (q.keeps spans c.clientID) :=
      heq ▸ List.mem_filter.mpr ⟨hs, hwants⟩
    exact (List.mem_filter.mp hmem).right
  case mpr =>
    rintro ⟨hwants, hperm⟩
    have heq : (q.matching c.clientID spans).filter (q.wants spans c.clientID) =
        (q.matching c.clientID spans).filter (q.keeps spans c.clientID) :=
      List.filter_congr fun s hs => Bool.eq_iff_iff.mpr ⟨hwants s hs, wants_of_keeps⟩
    rw [heq]
    exact hperm

end Traces

section Samples

def sampleDB : DB where
  users := []
  customers := [{ id := 1, name := "Acme", slug := "acme", clientID := "acme-1", status := .active }]
  pipelines := []
  versions := []

def sampleLog (time : Int) (body : String) : LogRow where
  timestamp := time
  body := body
  resourceAttributes := [("tenant.id", "acme-1")]

def pageOfTwo : LogQuery where
  start := 0
  stop := 10
  limit := 2

def tiedLogs (time : Int) : List LogRow :=
  [sampleLog 3 "a", sampleLog time "b", sampleLog 2 "c"]

theorem tied_rows_together :
    Complete (logPages id sampleDB (tiedLogs 3) (.stable _) 1 pageOfTwo)
      ((pageOfTwo.matching "acme-1" (tiedLogs 3)).map (·.record)) (·.timestamp) :=
  (queryLogs_complete_iff (fun _ => rfl) sampleDB 1 (tiedLogs 3) (.stable _) pageOfTwo rfl).right.mpr (by decide +kernel)

-- The page ends between two rows with the same time. The second one never comes up.
theorem tied_row_lost :
    Follows (logPages id sampleDB (tiedLogs 2) (.stable _) 1 pageOfTwo) none
        [(sampleLog 3 "a").record, (sampleLog 2 "b").record] ∧
      ¬Complete (logPages id sampleDB (tiedLogs 2) (.stable _) 1 pageOfTwo)
        ((pageOfTwo.matching "acme-1" (tiedLogs 2)).map (·.record)) (·.timestamp) := by
  have hfirst : logPages id sampleDB (tiedLogs 2) (.stable _) 1 pageOfTwo none =
      .ok ([(sampleLog 3 "a").record, (sampleLog 2 "b").record], some 2) := rfl
  have hsecond : logPages id sampleDB (tiedLogs 2) (.stable _) 1 pageOfTwo (some 2) = .ok ([], none) := rfl
  have hall := Follows.next hfirst (.last hsecond)
  refine ⟨hall, fun ⟨out, hout, hperm, _⟩ => ?_⟩
  have hlen := hperm.length_eq
  rw [← hall.unique hout] at hlen
  revert hlen
  decide +kernel

def sampleSpan (traceID : String) (time : Int) (statusCode : String) : SpanRow where
  traceID := traceID
  timestamp := time
  statusCode := statusCode
  resourceAttributes := [("tenant.id", "acme-1")]

def failedOnly : TraceQuery where
  start := 0
  stop := 10
  errorsOnly := true
  limit := 1

def twoTraces (newer older : String) : List SpanRow :=
  [sampleSpan "new" 3 newer, sampleSpan "old" 2 older]

theorem newer_trace_failed :
    Complete (tracePages id sampleDB (twoTraces "Error" "Ok") (.stable _) 1 failedOnly)
      (((failedOnly.matching "acme-1" (twoTraces "Error" "Ok")).filter
        (failedOnly.wants (twoTraces "Error" "Ok") "acme-1")).map (shown (twoTraces "Error" "Ok") "acme-1"))
      (·.startTime) :=
  (queryTraces_complete_iff (fun _ => rfl) sampleDB 1 (twoTraces "Error" "Ok") (.stable _) failedOnly rfl (by decide +kernel)).mpr
    (by decide +kernel)

-- The newest trace has not failed, so the first page is empty, and the older one that has failed
-- never comes up.
theorem older_trace_lost :
    Follows (tracePages id sampleDB (twoTraces "Ok" "Error") (.stable _) 1 failedOnly) none [] ∧
      ¬Complete (tracePages id sampleDB (twoTraces "Ok" "Error") (.stable _) 1 failedOnly)
        (((failedOnly.matching "acme-1" (twoTraces "Ok" "Error")).filter
          (failedOnly.wants (twoTraces "Ok" "Error") "acme-1")).map (shown (twoTraces "Ok" "Error") "acme-1"))
        (·.startTime) := by
  have hfirst : tracePages id sampleDB (twoTraces "Ok" "Error") (.stable _) 1 failedOnly none = .ok ([], none) := rfl
  refine ⟨.last hfirst, fun ⟨out, hout, hperm, _⟩ => ?_⟩
  have hlen := hperm.length_eq
  rw [← (Follows.last hfirst).unique hout] at hlen
  revert hlen
  decide +kernel

end Samples

end Query
