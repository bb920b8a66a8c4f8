import OtelFleet.Api.Dashboard
import OtelFleet.Theorems.Stats
import OtelFleet.Store.Theorems.History
import Mathlib.Data.List.Dedup

open Store (UUID DB Customer PipelineRow)
open Stats (Iteration)
open Sorting (sortBy filter_sortBy)

-- What a principal with a scope is shown, compared to a fleet that has nothing but the scope.
namespace Store.DB

variable {db : DB} {A : List UUID}

def restrict (db : DB) (A : List UUID) : DB :=
  let pipelines := db.pipelines.filter (·.customerID ∈ A)
  { db with
    customers := db.customers.filter (·.id ∈ A)
    pipelines := pipelines
    versions := db.versions.filter fun v => pipelines.any (·.id = v.pipelineID) }

theorem customer?_restrict {id : UUID} (h : id ∈ A) : (db.restrict A).customer? id = db.customer? id := by
  unfold restrict customer?
  rw [List.find?_filter]
  congr 1
  funext c
  by_cases hc : c.id = id <;> simp [hc, h]

theorem readPipeline_restrict (hwf : db.WF) {p : PipelineRow} (hp : p ∈ db.pipelines) (hA : p.customerID ∈ A) :
    (db.restrict A).readPipeline p = db.readPipeline p := by
  have hkept : ((db.pipelines.filter (·.customerID ∈ A)).any (·.id = p.id)) = true :=
    List.any_eq_true.mpr ⟨p, List.mem_filter.mpr ⟨hp, decide_eq_true hA⟩, decide_eq_true rfl⟩
  have hversions : (db.restrict A).versionsOf p.id = db.versionsOf p.id := by
    unfold versionsOf restrict
    rw [List.filter_filter]
    refine List.filter_congr fun v _ => ?_
    by_cases hv : v.pipelineID = p.id
    · simp only [hv, hkept, decide_true, Bool.and_self]
    · simp [hv]
  have hactive : p.activeVersionID.bind (db.restrict A).version? = p.activeVersionID.bind db.version? := by
    cases ha : p.activeVersionID
    case none => rfl
    case some id =>
      obtain ⟨v, hv, hid, hpv, -⟩ := hwf.active p hp id ha
      have hunique : ∀ w ∈ db.versions, decide (w.id = id) = true → w = v := by
        intro w hw he
        exact List.inj_on_of_nodup_map hwf.versionIDs hw hv ((of_decide_eq_true he).trans hid.symm)
      have hv' : v ∈ (db.restrict A).versions := List.mem_filter.mpr ⟨hv, hpv ▸ hkept⟩
      rw [Option.bind_some, Option.bind_some, version?, version?, Assoc.find?_unique hunique hv (decide_eq_true hid)]
      exact Assoc.find?_unique (fun w hw => hunique w (List.mem_filter.mp hw).1) hv' (decide_eq_true hid)
  unfold readPipeline latest
  rw [customer?_restrict hA, hversions, hactive]

theorem rowLe_iff (a b : String × String × UUID) : rowLe a b ↔ toLex (a.1, toLex a.2) ≤ toLex (b.1, toLex b.2) := by
  rw [rowLe, Prod.Lex.toLex_le_toLex, Prod.Lex.toLex_le_toLex]

def shown (db : DB) (p : PipelineRow) : Option Pipeline :=
  if (db.customer? p.customerID).any (·.status ≠ .deleted) then db.readPipeline p else none

theorem listPipelines_eq (db : DB) :
    db.listPipelines none =
      sortBy (fun p => toLex (p.customerSlug, toLex (p.name, p.id))) (db.pipelines.filterMap db.shown) := by
  unfold listPipelines sortBy
  simp only [rowLe_iff, List.filterMap_filter, Option.all_none, and_true, decide_eq_true_eq]
  rfl

theorem customerID_of_shown (h : db.shown p = some q) : q.customerID = p.customerID := by
  unfold shown at h
  split_ifs at h
  obtain ⟨c, -, rfl⟩ := Option.map_eq_some_iff.mp h
  rfl

theorem listPipelines_restrict (hwf : db.WF) (A : List UUID) :
    (db.restrict A).listPipelines none = (db.listPipelines none).filter (·.customerID ∈ A) := by
  rw [listPipelines_eq, listPipelines_eq, filter_sortBy, List.filter_filterMap]
  unfold restrict
  rw [List.filterMap_filter]
  congr 1
  refine List.filterMap_congr fun p hp => ?_
  by_cases hA : p.customerID ∈ A
  case pos =>
    have hshown : (db.restrict A).shown p = db.shown p := by
      rw [shown, shown, customer?_restrict hA, readPipeline_restrict hwf hp hA]
    rw [if_pos (decide_eq_true hA)]
    refine hshown.trans ?_
    cases hq : db.shown p
    case none => rfl
    case some q => simp [Option.filter, customerID_of_shown hq, hA]
  case neg =>
    rw [if_neg (by simpa using hA)]
    cases hq : db.shown p
    case none => rfl
    case some q => simp [Option.filter, customerID_of_shown hq, hA]

end Store.DB

namespace Api.Dashboard

structure State.WF (s : State) : Prop where
  db : s.db.WF
  customerIDs : (s.db.customers.map (·.id)).Nodup
  clientIDs : (s.db.customers.map (·.clientID)).Nodup
  names : (s.db.customers.map (·.name)).Nodup

-- The state without the customers outside a set and all their data, and without the agents that
-- belong to nobody.
def State.restrict (s : State) (A : List UUID) : State :=
  { s with
    db := s.db.restrict A
    agents := s.agents.filter fun a => a.customerID.any (· ∈ A)
    counts := s.counts.map fun counts => counts.filter (Stats.notOutside s.db A ·.tenantID) }

@[simp]
theorem State.restrict_db (s : State) (A : List UUID) : (s.restrict A).db = s.db.restrict A :=
  rfl

def Reply.withoutRefused : Reply → Reply
  | overview o => overview { o with refusedRequests := 0 }
  | r => r

section Scopes

theorem customerScope_scoped (h : p.allCustomers = false) : customerScope (some p) = some p.allowedCustomers := by
  simp [customerScope, h]

theorem customerScope_unscoped (h : p.allCustomers = true) : customerScope (some p) = none := by
  simp [customerScope, h]

end Scopes

variable {s : State} {p q : Principal} {A : List UUID}

theorem listCustomers_restrict (hp : customerScope (some p) = some A) (hq : customerScope (some q) = none)
    (status : Option Store.CustomerStatus) :
    listCustomers s (some p) status = listCustomers (s.restrict A) (some q) status := by
  simp only [listCustomers, hp, hq, Option.all_some, Option.all_none, List.filter_true, storedCustomers]
  rw [filter_sortBy, List.filter_comm]
  rfl

theorem toAgent_restrict {a : Store.Agent} (h : a.customerID.any (· ∈ A)) : toAgent (s.restrict A) a = toAgent s a := by
  obtain ⟨id, hid, hA⟩ := Option.any_eq_true _ _ |>.mp h
  have hname : a.customerID.bind (s.db.restrict A).customer? = a.customerID.bind s.db.customer? := by
    rw [hid, Option.bind_some, Option.bind_some, Store.DB.customer?_restrict (of_decide_eq_true hA)]
  unfold toAgent
  rw [State.restrict_db, hname]
  rfl

theorem listAgents_restrict (hp : customerScope (some p) = some A) (hq : customerScope (some q) = none)
    (f : AgentFilter) : listAgents s (some p) f = listAgents (s.restrict A) (some q) f := by
  simp only [listAgents, hp, hq, Option.all_some, Option.all_none, List.filter_true, storedAgents]
  rw [filter_sortBy, List.filter_comm]
  refine congrArg Reply.agents (List.map_congr_left fun a ha => (toAgent_restrict ?_).symm)
  have hmem := List.mem_filter.mp (Sorting.mem_sortBy.mp ha)
  exact (List.mem_filter.mp hmem.1).2

theorem listPipelines_restrict (h : s.WF) (hp : customerScope (some p) = some A) (hq : customerScope (some q) = none) :
    listPipelines s (some p) = listPipelines (s.restrict A) (some q) := by
  simp only [listPipelines, hp, hq, Option.all_some, Option.all_none, List.filter_true]
  rw [State.restrict_db, Store.DB.listPipelines_restrict h.db]
  rfl

theorem getCostStats_restrict (h : s.WF) (hp : customerScope (some p) = some A)
    (hq : customerScope (some q) = none) (start stop : Int) :
    getCostStats s (some p) start stop = getCostStats (s.restrict A) (some q) start stop := by
  unfold getCostStats State.restrict
  cases s.counts
  case none => rfl
  case some counts =>
    simp only [hp, hq, Option.all_some, Option.all_none, List.filter_true, Option.map_some]
    rw [Stats.getCost_restrict (s.db.restrict A) h.clientIDs rfl]

section Active

theorem length_scope (h : s.WF) (hA : ∀ id ∈ A, ∃ c ∈ s.db.customers, c.id = id) :
    A.dedup.length = (s.db.customers.filter (·.id ∈ A)).length := by
  have hperm : A.dedup.Perm ((s.db.customers.filter (·.id ∈ A)).map (·.id)) := by
    refine (List.perm_ext_iff_of_nodup A.nodup_dedup (h.customerIDs.sublist (List.filter_sublist.map _))).mpr ?_
    intro id
    simp only [List.mem_dedup, List.mem_map, List.mem_filter, decide_eq_true_eq]
    constructor
    · intro hid
      obtain ⟨c, hc, rfl⟩ := hA id hid
      exact ⟨c, ⟨hc, hid⟩, rfl⟩
    · rintro ⟨c, ⟨-, hc⟩, rfl⟩
      exact hc
  rw [hperm.length_eq, List.length_map]

theorem active_iff (h : s.WF) (hA : ∀ id ∈ A, ∃ c ∈ s.db.customers, c.id = id) :
    A.dedup.length = Stats.countActiveCustomers (s.db.restrict A) ↔
      ∀ c ∈ s.db.customers, c.id ∈ A → c.status = .active := by
  rw [length_scope h hA, Stats.countActiveCustomers, eq_comm]
  refine List.countP_eq_length.trans ?_
  simp [Store.DB.restrict]

end Active

theorem getStatsOverview_restrict (it it' : Iteration) (h : s.WF) (hp : customerScope (some p) = some A)
    (hq : customerScope (some q) = none) (hA : ∀ id ∈ A, ∃ c ∈ s.db.customers, c.id = id) (start stop : Int) :
    getStatsOverview it s (some p) start stop =
        (getStatsOverview it' (s.restrict A) (some q) start stop).withoutRefused ↔
      (start < stop → s.counts.isSome → ∀ c ∈ s.db.customers, c.id ∈ A → c.status = .active) := by
  unfold getStatsOverview
  by_cases hr : start < stop
  case neg => simp [hr, invalidRange, Reply.withoutRefused]
  rw [if_pos hr, if_pos hr, show (s.restrict A).counts = s.counts.map _ from rfl]
  cases s.counts
  case none => simp [unavailable, Reply.withoutRefused]
  case some counts =>
    obtain ⟨htotals, htop⟩ := Stats.getOverview_restrict (s.db.restrict A) it it' h.clientIDs h.names rfl counts (s.refusedRequests start stop)
      ((s.restrict A).refusedRequests start stop) start stop
    simp only [hp, hq, State.restrict_db, Option.map_some, Reply.withoutRefused, toOverview, htotals, htop,
      Reply.overview.injEq, OverviewView.mk.injEq, and_true, hr, Option.isSome_some, forall_const]
    rw [← active_iff h hA]
    exact and_iff_left rfl

theorem scoped_reply_iff (it it' : Iteration) (h : s.WF) (hp : p.allCustomers = false) (hq : q.allCustomers = true)
    (hA : ∀ id ∈ p.allowedCustomers, ∃ c ∈ s.db.customers, c.id = id) (req : Request) :
    respond it s (some p) req =
        (respond it' (s.restrict p.allowedCustomers) (some q) req).withoutRefused ↔
      ∀ start stop, req = .getStatsOverview start stop → start < stop → s.counts.isSome →
        ∀ c ∈ s.db.customers, c.id ∈ p.allowedCustomers → c.status = .active := by
  have hp := customerScope_scoped hp
  have hq := customerScope_unscoped hq
  cases req <;> simp only [respond]
  case listCustomers status =>
    rw [listCustomers_restrict hp hq]
    simp [listCustomers, Reply.withoutRefused]
  case listPipelines =>
    rw [listPipelines_restrict h hp hq]
    simp [listPipelines, Reply.withoutRefused]
  case listAgents f =>
    rw [listAgents_restrict hp hq]
    simp [listAgents, Reply.withoutRefused]
  case getStatsOverview start stop =>
    rw [getStatsOverview_restrict it it' h hp hq hA]
    constructor
    · rintro hactive _ _ ⟨⟩
      exact hactive
    · exact fun hactive => hactive start stop rfl
  case getCostStats start stop =>
    rw [getCostStats_restrict h hp hq]
    unfold getCostStats invalidRange unavailable
    split_ifs <;> cases (s.restrict p.allowedCustomers).counts <;> simp [Reply.withoutRefused]

section Sample

def inOrder : Iteration where
  order := id
  perm := .refl

-- One customer is active, the other one is suspended; both have sent logs.
def fleet : State where
  db := {
    users := []
    customers := [
      { id := 1, name := "Acme", slug := "acme", clientID := "c1", status := .active },
      { id := 2, name := "Bolt", slug := "bolt", clientID := "c2", status := .suspended }]
    pipelines := []
    versions := [] }
  customerColumns := fun _ => { rateLimitItemsPerSec := none, retentionDays := none, createdAt := 0 }
  pipelineCreatedAt := fun _ => 0
  agents := []
  agentColumns := fun _ => { displayName := none, labels := [], createdAt := 0 }
  counts := some [
    { tenantID := "c1", signal := "logs", minute := 0, items := 3, bytes := 30 },
    { tenantID := "c2", signal := "logs", minute := 0, items := 5, bytes := 50 }]
  refusedRequests := fun _ _ => 7

def scopedTo (id : UUID) : Principal where
  userID := some 10
  allCustomers := false
  allowedCustomers := [id]

def everywhere : Principal where
  userID := some 11
  allCustomers := true
  allowedCustomers := []

theorem fleet_wf : fleet.WF where
  db := ⟨by decide, by decide, by decide, by simp [fleet], by simp [fleet]⟩
  customerIDs := by decide
  clientIDs := by decide
  names := by decide

theorem active_customer_overview :
    respond inOrder fleet (some (scopedTo 1)) (.getStatsOverview 0 60) =
      (respond inOrder (fleet.restrict [1]) (some everywhere) (.getStatsOverview 0 60)).withoutRefused :=
  (scoped_reply_iff inOrder inOrder fleet_wf rfl rfl (by decide) (.getStatsOverview 0 60)).mpr
    fun _ _ _ _ _ => by decide

-- A user whose only customer is suspended is told that one customer is active.
theorem suspended_customer_overview :
    respond inOrder fleet (some (scopedTo 2)) (.getStatsOverview 0 60) ≠
      (respond inOrder (fleet.restrict [2]) (some everywhere) (.getStatsOverview 0 60)).withoutRefused :=
  mt (getStatsOverview_restrict inOrder inOrder fleet_wf rfl rfl (by decide) 0 60).mp (by decide)

end Sample

end Api.Dashboard
