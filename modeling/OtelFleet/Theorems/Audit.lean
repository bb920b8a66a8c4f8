import OtelFleet.Audit

open Histories (run)
open Paging (Descending under page page_cases)

-- What a reader of the audit log sees while the log grows.
namespace Audit

section Growth

namespace Log

def ids (log : Log) : List Int :=
  log.pending.map (·.2.id) ++ log.rows.map (·.id)

structure WF (log : Log) : Prop where
  last : 0 ≤ log.lastID
  distinct : log.ids.Nodup
  range : ∀ id ∈ log.ids, 1 ≤ id ∧ id ≤ log.lastID

variable {log : Log}

theorem WF.empty : ({} : Log).WF :=
  ⟨le_rfl, List.nodup_nil, fun _ h => nomatch h⟩

theorem ids_insert (log : Log) (tx : Nat) (now : Int) (e : Entry) :
    (log.insert tx now e).ids.Perm ((log.lastID + 1) :: log.ids) := by
  simp only [ids, insert, List.map_append, List.map_cons, List.map_nil, List.append_assoc]
  exact List.perm_middle

theorem WF.insert (h : log.WF) (tx : Nat) (now : Int) (e : Entry) : (log.insert tx now e).WF := by
  have hp := log.ids_insert tx now e
  refine ⟨Int.le_add_one h.last, hp.nodup_iff.mpr (List.nodup_cons.mpr ⟨fun hm => ?_, h.distinct⟩), fun id hid => ?_⟩
  · have hle := (h.range _ hm).right
    omega
  · have hlast : (log.insert tx now e).lastID = log.lastID + 1 := rfl
    have := h.last
    obtain rfl | hm := List.mem_cons.mp (hp.mem_iff.mp hid)
    · omega
    · have hle := h.range id hm
      omega

theorem WF.write (h : log.WF) (tx : Nat) (now : Int) (entries : List Entry) : (log.write tx now entries).WF := by
  induction entries generalizing log
  case nil => exact h
  case cons e entries hi => exact hi (h.insert tx now e)

theorem ids_commit (log : Log) (tx : Nat) : (log.commit tx).ids.Perm log.ids := by
  have hsplit := List.filter_append_perm (fun r : Nat × Row => decide (r.1 = tx)) log.pending
  have hmap := hsplit.map (·.2.id)
  simp only [ids, commit, List.map_append, List.map_map]
  rw [List.map_append] at hmap
  refine List.Perm.trans ?_ (hmap.append_right (log.rows.map (·.id)))
  have hnot : (log.pending.filter fun r => decide (r.1 ≠ tx)) = log.pending.filter fun r => !decide (r.1 = tx) := by
    simp
  rw [hnot, ← List.append_assoc]
  refine (List.perm_append_comm).trans ?_
  rw [← List.append_assoc]
  rfl

theorem WF.step (h : log.WF) (e : Event) : (log.step e).WF := by
  cases e
  case write tx now entries => exact h.write tx now entries
  case commit tx =>
    have hp := log.ids_commit tx
    exact ⟨h.last, hp.nodup_iff.mpr h.distinct, fun id hid => h.range id (hp.mem_iff.mp hid)⟩
  case rollback tx =>
    have hs : (log.rollback tx).ids.Sublist log.ids := (List.filter_sublist.map _).append_right _
    exact ⟨h.last, h.distinct.sublist hs, fun id hid => h.range id (hs.subset hid)⟩

theorem WF.run (h : log.WF) (history : List Event) : (run Log.step log history).WF := by
  induction history generalizing log
  case nil => exact h
  case cons e history hi => exact hi (h.step e)

theorem WF.rows (h : log.WF) : (log.rows.map (·.id)).Nodup :=
  (List.nodup_append.mp h.distinct).right.left

theorem WF.row_range (h : log.WF) (hr : r ∈ log.rows) : 1 ≤ r.id ∧ r.id ≤ log.lastID :=
  h.range r.id (List.mem_append_right _ (List.mem_map_of_mem hr))

theorem rows_write (log : Log) (tx : Nat) (now : Int) (entries : List Entry) :
    (log.write tx now entries).rows = log.rows := by
  induction entries generalizing log
  case nil => rfl
  case cons e entries hi => exact hi (log.insert tx now e)

theorem rows_step (log : Log) (e : Event) : log.rows ⊆ (log.step e).rows := by
  cases e
  case write tx now entries => exact (log.rows_write tx now entries).symm ▸ List.Subset.refl _
  case commit tx => exact List.subset_append_left _ _
  case rollback tx => exact List.Subset.refl _

end Log

end Growth

section Pages

def Params.matches (p : Params) (r : Row) : Bool :=
  (p.action.all (· = r.action)) && (p.entityType.all (· = r.entityType)) && (p.customerID.all (r.customerID = some ·)) &&
    (p.actorUserID.all (r.actorUserID = some ·)) && (p.start.all (· ≤ r.createdAt)) && (p.stop.all (r.createdAt ≤ ·))

def Row.entry (dir : Directory) (r : Row) : AuditEntry :=
  (r.join dir).entry

theorem Params.pageSize_pos (p : Params) : 0 < p.pageSize := by
  simp only [pageSize]
  split_ifs <;> omega

theorem filter_selects (p : Params) (rows : List Row) (cursor : Option Int) :
    rows.filter { p with beforeID := cursor }.filter.selects = under Row.id cursor (rows.filter p.matches) := by
  simp only [under, List.filter_filter]
  refine List.filter_congr fun r _ => ?_
  rw [Bool.eq_iff_iff]
  simp only [Params.matches, AuditFilter.selects, Bool.and_eq_true, decide_eq_true_eq, Option.all_eq_true]
  simp only [Params.filter, Option.mem_def, eq_comm (b := r.action), eq_comm (b := r.entityType)]
  tauto

theorem listAuditLog_eq (log : Log) (dir : Directory) (p : Params) (cursor : Option Int) :
    listAuditLog log dir { p with beforeID := cursor } =
      let r := page (.stable Row.id) p.pageSize (fun _ => true) (log.rows.filter p.matches) cursor
      { entries := r.1.map (Row.entry dir), nextBeforeID := r.2 } := by
  have hsize : { p with beforeID := cursor }.pageSize = p.pageSize := rfl
  have hn := p.pageSize_pos
  have hle (rows : List Row) : (rows.take p.pageSize).length = p.pageSize ↔
      ¬((rows.take p.pageSize).length < p.pageSize ∨ (rows.take p.pageSize).length = 0) := by
    have := List.length_take_le p.pageSize rows
    omega
  simp only [listAuditLog, listRows, filter_selects, page, List.filter_true, List.map_map, List.length_map, hsize,
    List.getLast?_map, Option.map_map]
  rw [Response.mk.injEq]
  refine ⟨rfl, ?_⟩
  have hfull : ({ p with beforeID := cursor }.filter.limit) = p.pageSize := rfl
  simp only [hfull, hle, ite_not]
  rfl

end Pages

section Reading

variable {p : Params} {log : Log} {r : Reader}

structure Inv (p : Params) (log : Log) (r : Reader) : Prop where
  wf : r.log.WF
  grown : log.rows ⊆ r.log.rows
  descending : r.entries.Pairwise fun e e' => e'.id < e.id
  genuine : ∀ e ∈ r.entries, ∃ row ∈ r.log.rows, p.matches row ∧ ∃ dir, e = row.entry dir
  positive : ∀ c ∈ r.cursor, 1 ≤ c
  above : ¬r.finished → ∀ e ∈ r.entries, ∃ c ∈ r.cursor, c ≤ e.id
  covered : ∀ row ∈ log.rows, p.matches row → (r.finished ∨ ∃ c ∈ r.cursor, c ≤ row.id) →
    ∃ dir, row.entry dir ∈ r.entries

theorem Inv.start (h : log.WF) : Inv p log { log := log } where
  wf := h
  grown := List.Subset.refl _
  descending := .nil
  genuine := by simp
  positive := by simp
  above := by simp
  covered := by simp

theorem Inv.event (h : Inv p log r) (e : Event) : Inv p log { r with log := r.log.step e } where
  wf := h.wf.step e
  grown := fun _ hr => r.log.rows_step e (h.grown hr)
  descending := h.descending
  genuine := fun x hx =>
    have ⟨row, hrow, hm⟩ := h.genuine x hx
    ⟨row, r.log.rows_step e hrow, hm⟩
  positive := h.positive
  above := h.above
  covered := h.covered

-- A request takes the rows below the cursor, without a gap, down to the next cursor.
structure Taken (p : Params) (r r' : Reader) (dir : Directory) (P : List Row) : Prop where
  log : r'.log = r.log
  entries : r'.entries = r.entries ++ P.map (Row.entry dir)
  finished : r'.finished = r'.cursor.isNone
  rows : ∀ row ∈ P, row ∈ r.log.rows ∧ p.matches row ∧ ∀ c ∈ r.cursor, row.id < c
  descending : P.Pairwise fun a b => b.id < a.id
  least : ∀ c ∈ r'.cursor, (∃ row ∈ P, row.id = c) ∧ ∀ row ∈ P, c ≤ row.id
  noGap : ∀ row ∈ r.log.rows, p.matches row → (∀ c ∈ r.cursor, row.id < c) → (∀ c ∈ r'.cursor, c ≤ row.id) → row ∈ P

theorem request_taken (h : r.log.WF) (hunfinished : ¬r.finished) (dir : Directory) :
    ∃ P, Taken p r (r.request p dir) dir P := by
  have hmem {row : Row} : row ∈ under Row.id r.cursor (r.log.rows.filter p.matches) ↔
      row ∈ r.log.rows ∧ p.matches row ∧ ∀ c ∈ r.cursor, row.id < c := by
    rw [Paging.mem_under, List.mem_filter, and_assoc]
  have hnodup : ((under Row.id r.cursor (r.log.rows.filter p.matches)).map (·.id)).Nodup :=
    h.rows.sublist ((List.filter_sublist.trans List.filter_sublist).map _)
  unfold Reader.request
  rw [if_neg hunfinished, listAuditLog_eq]
  obtain ⟨P, Q, hstop, hpage⟩ | ⟨P, Q, last, hturn, hpage⟩ :=
    page_cases (.stable Row.id) p.pageSize_pos (fun _ => true) (r.log.rows.filter p.matches) r.cursor
  case inl =>
    obtain rfl : Q = [] := by simpa using hstop.left
    have hperm := hstop.perm
    have hsorted := hstop.sorted
    rw [List.append_nil] at hperm hsorted
    rw [List.filter_true] at hpage
    rw [hpage]
    refine ⟨P, rfl, rfl, rfl, fun row hrow => hmem.mp (hperm.mem_iff.mpr hrow), ?_, by simp,
      fun row hrow hm hc _ => hperm.mem_iff.mp (hmem.mpr ⟨hrow, hm, hc⟩)⟩
    exact Paging.descending_of_nodup ((hperm.map _).nodup_iff.mp hnodup) hsorted
  case inr =>
    rw [hpage]
    have hrow {row : Row} (hrow : row ∈ P ++ Q) := hmem.mp (hturn.perm.mem_iff.mpr hrow)
    have hdistinct := (hturn.perm.map (·.id)).nodup_iff.mp hnodup
    refine ⟨P, rfl, rfl, rfl, fun row h => hrow (List.mem_append_left Q h), ?_, ?_, fun row hr hm hc hle => ?_⟩
    · rw [List.map_append] at hdistinct
      exact Paging.descending_of_nodup hdistinct.of_append_left hturn.sorted
    · rintro c ⟨⟩
      exact ⟨⟨last, hturn.mem, rfl⟩, hturn.least⟩
    · obtain hP | hQ := List.mem_append.mp (hturn.perm.mem_iff.mp (hmem.mpr ⟨hr, hm, hc⟩))
      · exact hP
      · -- Only the last row itself could be behind the page and not below the cursor.
        have heq : row.id = last.id := le_antisymm (hturn.behind row hQ) (hle last.id rfl)
        rw [List.inj_on_of_nodup_map hdistinct (List.mem_append_right P hQ) (List.mem_append_left Q hturn.mem) heq]
        exact hturn.mem

theorem Inv.request (h : Inv p log r) (dir : Directory) : Inv p log (r.request p dir) := by
  by_cases hfin : r.finished
  · rw [Reader.request, if_pos hfin]
    exact h
  · obtain ⟨P, ht⟩ := request_taken (p := p) h.wf hfin dir
    generalize r.request p dir = r' at ht ⊢
    have hnew {e : AuditEntry} : e ∈ r'.entries ↔ e ∈ r.entries ∨ ∃ row ∈ P, row.entry dir = e := by
      rw [ht.entries, List.mem_append, List.mem_map]
    refine ⟨ht.log ▸ h.wf, ht.log ▸ h.grown, ?_, fun e he => ?_, fun c hc => ?_, fun _ e he => ?_, fun row hrow hm hdown => ?_⟩
    · rw [ht.entries, List.pairwise_append]
      refine ⟨h.descending, List.pairwise_map.mpr ht.descending, fun e he e' he' => ?_⟩
      obtain ⟨row, hrow, rfl⟩ := List.mem_map.mp he'
      obtain ⟨c, hc, hle⟩ := h.above hfin e he
      exact ((ht.rows row hrow).right.right c hc).trans_le hle
    · rw [ht.log]
      obtain he | ⟨row, hrow, rfl⟩ := hnew.mp he
      · exact h.genuine e he
      · exact ⟨row, (ht.rows row hrow).left, (ht.rows row hrow).right.left, dir, rfl⟩
    · obtain ⟨⟨row, hrow, rfl⟩, _⟩ := ht.least c hc
      exact (h.wf.row_range (ht.rows row hrow).left).left
    · obtain ⟨c', hc'⟩ : ∃ c', r'.cursor = some c' := by
        rw [← Option.isSome_iff_exists, ← Option.not_isNone, ← ht.finished]
        simpa using ‹¬r'.finished = true›
      refine ⟨c', hc', ?_⟩
      obtain ⟨⟨row, hrow, rfl⟩, hleast⟩ := ht.least c' hc'
      obtain he | ⟨row', hrow', rfl⟩ := hnew.mp he
      · obtain ⟨c, hc, hle⟩ := h.above hfin e he
        exact ((ht.rows row hrow).right.right c hc).le.trans hle
      · exact hleast row' hrow'
    · by_cases hc : ∀ c ∈ r.cursor, row.id < c
      · refine ⟨dir, hnew.mpr (.inr ⟨row, ht.noGap row (h.grown hrow) hm hc fun c' hc' => ?_, rfl⟩)⟩
        obtain hfin' | ⟨c, hc, hle⟩ := hdown
        · rw [ht.finished, hc'] at hfin'
          cases hfin'
        · exact Option.mem_unique hc hc' ▸ hle
      · push Not at hc
        obtain ⟨dir', he⟩ := h.covered row hrow hm (.inr hc)
        exact ⟨dir', hnew.mpr (.inl he)⟩

theorem Inv.step (h : Inv p log r) (a : Action) : Inv p log (r.step p a) := by
  cases a
  case event e => exact h.event e
  case request dir => exact h.request dir

theorem Inv.steps (h : Inv p log r) (actions : List Action) : Inv p log (run (Reader.step p) r actions) := by
  induction actions generalizing r
  case nil => exact h
  case cons a actions hi => exact hi (h.step a)

theorem Inv.cursor_lt (h : Inv p log r) (dir : Directory) :
    (r.request p dir).finished ∨ ∃ c', (r.request p dir).cursor = some c' ∧ (∀ c ∈ r.cursor, c' < c) ∧
      c' ≤ r.log.lastID := by
  by_cases hfin : r.finished
  · rw [Reader.request, if_pos hfin]
    exact .inl hfin
  · obtain ⟨P, ht⟩ := request_taken (p := p) h.wf hfin dir
    cases hc' : (r.request p dir).cursor
    case none => exact .inl (by rw [ht.finished, hc']; rfl)
    case some c' =>
      obtain ⟨⟨row, hrow, rfl⟩, _⟩ := ht.least c' hc'
      have ⟨hmem, _, hlt⟩ := ht.rows row hrow
      exact .inr ⟨row.id, rfl, hlt, (h.wf.row_range hmem).right⟩

theorem finished_step (h : r.finished) (a : Action) : (r.step p a).finished := by
  cases a
  case event e => exact h
  case request dir =>
    rw [Reader.step, Reader.request, if_pos h]
    exact h

theorem finished_run (h : r.finished) (actions : List Action) : (run (Reader.step p) r actions).finished := by
  induction actions generalizing r
  case nil => exact h
  case cons a actions hi => exact hi (finished_step h a)

theorem Inv.finishes (h : Inv p log r) (hc : r.cursor = some c)
    (hle : c ≤ actions.countP (·.isRequest)) : (run (Reader.step p) r actions).finished := by
  induction actions generalizing r c
  case nil =>
    have hpos := h.positive c hc
    rw [List.countP_nil] at hle
    omega
  case cons a actions hi =>
    cases a
    case event e =>
      rw [List.countP_cons_of_neg Bool.false_ne_true] at hle
      exact hi (h.event e) hc hle
    case request dir =>
      obtain hfin | ⟨c', hc', hlt, _⟩ := h.cursor_lt dir
      · exact finished_run (r := r.request p dir) hfin actions
      · refine hi (h.request dir) hc' ?_
        have := hlt c hc
        rw [List.countP_cons_of_pos rfl] at hle
        omega

end Reading

theorem filter_id_eq_singleton {entries : List AuditEntry} (h : entries.Pairwise fun e e' => e'.id < e.id)
    (he : e ∈ entries) : entries.filter (·.id = e.id) = [e] := by
  induction entries
  case nil => cases he
  case cons x entries hi =>
    have ⟨hx, hrest⟩ := List.pairwise_cons.mp h
    obtain rfl | he := List.mem_cons.mp he
    · have hnone : entries.filter (·.id = e.id) = [] :=
        List.filter_eq_nil_iff.mpr fun y hy => by simpa using (hx y hy).ne
      rw [List.filter_cons_of_pos (by simp), hnone]
    · rw [List.filter_cons_of_neg (by simpa using (hx e he).ne'), hi hrest he]

-- Whatever is written between the requests, the entries go down strictly and match, everything that was
-- there at the first request is among them in the end, exactly once, and the end comes.
theorem paging_stable (p : Params) (history : List Event) (dir : Directory) (actions : List Action) :
    let log := run Log.step {} history
    let r := run (Reader.step p) { log := log } (.request dir :: actions)
    r.entries.Pairwise (fun e e' => e'.id < e.id) ∧
    (∀ e ∈ r.entries, ∃ row ∈ r.log.rows, p.matches row ∧ ∃ dir, e = row.entry dir) ∧
    (r.finished → ∀ row ∈ log.rows, p.matches row → ∃ dir, r.entries.filter (·.id = row.id) = [row.entry dir]) ∧
    (log.lastID < (Action.request dir :: actions).countP (·.isRequest) → r.finished) := by
  intro log r
  have hstart : Inv p log { log := log } := .start (Log.WF.empty.run history)
  have hinv : Inv p log r := hstart.steps (.request dir :: actions)
  refine ⟨hinv.descending, hinv.genuine, fun hfin row hrow hm => ?_, fun hcount => ?_⟩
  · obtain ⟨dir, he⟩ := hinv.covered row hrow hm (.inl hfin)
    exact ⟨dir, filter_id_eq_singleton hinv.descending he⟩
  · obtain hfin | ⟨c, hc, _, hle⟩ := hstart.cursor_lt dir
    · exact finished_run (r := Reader.request p { log := log } dir) hfin actions
    · refine (hstart.request dir).finishes hc ?_
      have hle' : c ≤ log.lastID := hle
      rw [List.countP_cons_of_pos rfl] at hcount
      omega

end Audit
