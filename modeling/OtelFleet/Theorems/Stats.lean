import OtelFleet.Stats

open Store (UUID DB Customer)
open Grouping (groupBy groupBy_filter)
open Sorting (sortBy filter_sortBy sortBy_eq_of_perm)

namespace Stats

section Queries

variable (K : String → Bool) (counts : List IngestCount) (start stop : Int)

theorem inRange_filter (p : IngestCount → Bool) :
    inRange (counts.filter p) start stop = (inRange counts start stop).filter p :=
  List.filter_comm ..

theorem queryOverview_filter :
    queryOverview (counts.filter (K ·.tenantID)) start stop =
      (queryOverview counts start stop).filter (K ·.tenantID) := by
  rw [queryOverview, inRange_filter, groupBy_filter (fun c : IngestCount => (c.tenantID, c.signal)) fun k => K k.1, queryOverview,
    List.filter_map]
  rfl

theorem perTenantSignal_filter (rows : List SignalCount) :
    perTenantSignal (rows.filter (K ·.tenantID)) = (perTenantSignal rows).filter (K ·.1) := by
  rw [perTenantSignal, groupBy_filter (fun r : SignalCount => r.tenantID) K, perTenantSignal, List.filter_map]
  rfl

theorem queryCost_filter :
    queryCost (counts.filter (K ·.tenantID)) start stop = (queryCost counts start stop).filter (K ·.tenantID) := by
  unfold queryCost
  rw [inRange_filter, groupBy_filter (fun c : IngestCount => (c.tenantID, toDate c.minute)) fun k => K k.1, filter_sortBy,
    List.filter_map]
  rfl

end Queries

section Tally

variable {refs : List CustomerRef} {allowed : Option (List UUID)}

theorem sum_perm (h : ns.Perm ms) : sum ns = sum ms := by
  refine h.foldl_eq' (fun x _ y _ z => ?_) 0
  rw [Int64.add_assoc, Int64.add_comm x, ← Int64.add_assoc]

theorem addTotal_comm (totals : String → Int64) (x y : String × Int64) :
    addTotal (addTotal totals x) y = addTotal (addTotal totals y) x := by
  by_cases h : x.1 = y.1
  · simp only [addTotal, h, Function.update_self, Function.update_idem]
    rw [Int64.add_assoc, Int64.add_comm x.2, ← Int64.add_assoc]
  · simp only [addTotal, Function.update_of_ne h, Function.update_of_ne (Ne.symm h)]
    exact Function.update_comm h _ _ _

theorem foldl_addTotal_perm {l m : List (String × Int64)} (h : l.Perm m) (totals : String → Int64) :
    l.foldl addTotal totals = m.foldl addTotal totals :=
  h.foldl_eq' (fun x _ y _ z => addTotal_comm z x y) totals

def visible (refs : List CustomerRef) (allowed : Option (List UUID)) (clientID : String) : Option CustomerRef :=
  (byClientID refs clientID).filter fun ref => allowed.all (ref.id ∈ ·)

def seen (refs : List CustomerRef) (allowed : Option (List UUID)) (tenants : List (String × List (String × Int64))) :
    List (CustomerRef × List (String × Int64)) :=
  tenants.filterMap fun t => (visible refs allowed t.1).map (·, t.2)

def topCustomer (c : CustomerRef × List (String × Int64)) : TopCustomer where
  customerID := c.1.id
  name := c.1.name
  items := sum (c.2.map (·.2))

theorem Tally.add_perm {l m : List (String × Int64)} (h : l.Perm m) (t : Tally) (ref : CustomerRef) :
    t.add ref l = t.add ref m := by
  rw [Tally.add, Tally.add, foldl_addTotal_perm h, sum_perm (h.map _)]

theorem tallyTenant_eq (it : Iteration) (t : Tally) (tenant : String × List (String × Int64)) :
    tallyTenant it refs allowed t tenant = (visible refs allowed tenant.1).elim t (t.add · tenant.2) := by
  unfold tallyTenant visible
  cases byClientID refs tenant.1
  case none => rfl
  case some ref =>
    cases h : allowed.all (ref.id ∈ ·)
    · simp [h, Option.filter]
    · simp [h, Option.filter, Tally.add_perm (it.perm tenant.2)]

theorem foldl_tallyTenant (it : Iteration) (tenants : List (String × List (String × Int64))) (t : Tally) :
    tenants.foldl (tallyTenant it refs allowed) t = {
      totals := ((seen refs allowed tenants).flatMap (·.2)).foldl addTotal t.totals
      top := t.top ++ (seen refs allowed tenants).map topCustomer } := by
  induction tenants generalizing t
  case nil => simp [seen]
  case cons tenant tenants hi =>
    rw [List.foldl_cons, hi, tallyTenant_eq, seen, seen, List.filterMap_cons]
    cases visible refs allowed tenant.1 <;> simp [Tally.add, topCustomer]

theorem tally_eq (it it' : Iteration) (h : seen refs allowed tenants = seen refs' allowed' tenants') :
    (tally it refs allowed tenants).totals = (tally it' refs' allowed' tenants').totals ∧
    (tally it refs allowed tenants).top.Perm (tally it' refs' allowed' tenants').top := by
  have hseen : (seen refs allowed (it.order tenants)).Perm (seen refs' allowed' (it'.order tenants')) := calc
    List.Perm (seen refs allowed (it.order tenants)) (seen refs allowed tenants) := (it.perm tenants).filterMap _
    _ = seen refs' allowed' tenants' := h
    List.Perm _ (seen refs' allowed' (it'.order tenants')) := ((it'.perm tenants').filterMap _).symm
  unfold tally
  rw [foldl_tallyTenant, foldl_tallyTenant]
  exact ⟨foldl_addTotal_perm (hseen.flatMap_right _) _, hseen.map _⟩

theorem mem_tally_top
    (h : c ∈ (tally it refs allowed tenants).top) : ∃ ref ∈ refs, ref.id = c.customerID ∧ ref.name = c.name := by
  rw [tally, foldl_tallyTenant, List.nil_append] at h
  obtain ⟨v, hv, rfl⟩ := List.mem_map.mp h
  obtain ⟨t, -, ht⟩ := List.mem_filterMap.mp hv
  obtain ⟨ref, href, rfl⟩ := Option.map_eq_some_iff.mp ht
  have hmem : ref ∈ refs.reverse := List.mem_of_find?_eq_some (Option.filter_eq_some_iff.mp href).1
  exact ⟨ref, List.mem_reverse.mp hmem, rfl, rfl⟩

end Tally

section Scope

variable {db : DB} (db' : DB) {A : List UUID}

theorem byClientID_of_mem {cs : List Customer} (hn : (cs.map (·.clientID)).Nodup) (hc : c ∈ cs) :
    byClientID (cs.map customerRef) c.clientID = some (customerRef c) := by
  refine Assoc.find?_unique ?_ (List.mem_reverse.mpr (List.mem_map_of_mem hc)) (decide_eq_true rfl)
  intro ref href he
  obtain ⟨d, hd, rfl⟩ := List.mem_map.mp (List.mem_reverse.mp href)
  rw [List.inj_on_of_nodup_map hn hd hc (of_decide_eq_true he)]

theorem byClientID_eq_none {cs : List Customer} (h : ∀ c ∈ cs, c.clientID ≠ clientID) :
    byClientID (cs.map customerRef) clientID = none := by
  refine List.find?_eq_none.mpr fun ref href he => ?_
  obtain ⟨d, hd, rfl⟩ := List.mem_map.mp (List.mem_reverse.mp href)
  exact h d hd (of_decide_eq_true he)

def notOutside (db : DB) (A : List UUID) (clientID : String) : Bool :=
  !db.customers.any fun c => c.clientID = clientID ∧ c.id ∉ A

theorem visible_none (refs : List CustomerRef) (clientID : String) :
    visible refs none clientID = byClientID refs clientID := by
  unfold visible
  cases byClientID refs clientID <;> rfl

theorem visible_restrict (hn : (db.customers.map (·.clientID)).Nodup)
    (hdb : db'.customers = db.customers.filter (·.id ∈ A)) (clientID : String) :
    visible (listCustomerRefs db) (some A) clientID =
      if notOutside db A clientID then byClientID (listCustomerRefs db') clientID else none := by
  rw [visible, listCustomerRefs, listCustomerRefs, hdb]
  have hn' : ((db.customers.filter (·.id ∈ A)).map (·.clientID)).Nodup :=
    hn.sublist (List.filter_sublist.map _)
  by_cases h : ∃ c ∈ db.customers, c.clientID = clientID
  case pos =>
    obtain ⟨c, hc, rfl⟩ := h
    rw [byClientID_of_mem hn hc]
    by_cases hA : c.id ∈ A
    · have hkeep : notOutside db A c.clientID := by
        simp only [notOutside, Bool.not_eq_true', List.any_eq_false, decide_eq_true_eq, not_and, not_not]
        intro d hd he
        rwa [List.inj_on_of_nodup_map hn hd hc he]
      have hc' : c ∈ db.customers.filter (·.id ∈ A) := List.mem_filter.mpr ⟨hc, decide_eq_true hA⟩
      rw [if_pos hkeep, byClientID_of_mem hn' hc']
      simp [customerRef, hA]
    · have hdrop : ¬notOutside db A c.clientID := by
        simp only [notOutside, Bool.not_eq_true', List.any_eq_false, decide_eq_true_eq, not_forall]
        exact ⟨c, hc, by simp [hA]⟩
      rw [if_neg hdrop]
      simp [customerRef, hA]
  case neg =>
    push Not at h
    rw [byClientID_eq_none h, byClientID_eq_none fun c hc => h c (List.mem_filter.mp hc).1, ite_self]
    rfl

theorem seen_restrict (hn : (db.customers.map (·.clientID)).Nodup)
    (hdb : db'.customers = db.customers.filter (·.id ∈ A)) (tenants : List (String × List (String × Int64))) :
    seen (listCustomerRefs db) (some A) tenants =
      seen (listCustomerRefs db') none (tenants.filter (notOutside db A ·.1)) := by
  rw [seen, seen, List.filterMap_filter]
  congr 1
  funext t
  rw [visible_restrict db' hn hdb, visible_none]
  split_ifs <;> rfl

theorem getOverview_restrict (it it' : Iteration) (hn : (db.customers.map (·.clientID)).Nodup)
    (hnames : (db.customers.map (·.name)).Nodup) (hdb : db'.customers = db.customers.filter (·.id ∈ A))
    (counts : List IngestCount) (refused refused' : Int64) (start stop : Int) :
    let o := getOverview it db counts refused start stop (some A)
    let o' := getOverview it' db' (counts.filter (notOutside db A ·.tenantID)) refused' start stop none
    o.totals = o'.totals ∧ o.topCustomers = o'.topCustomers := by
  simp only [getOverview]
  rw [queryOverview_filter, perTenantSignal_filter]
  obtain ⟨htotals, htop⟩ := tally_eq it it'
    (seen_restrict db' hn hdb (perTenantSignal (queryOverview counts start stop)))
  refine ⟨htotals, ?_⟩
  rw [sortBy_eq_of_perm ?_ htop]
  -- Two entries with the same name belong to the same customer.
  intro a ha b hb he
  obtain ⟨hitems, hname⟩ : a.items.toInt = b.items.toInt ∧ a.name = b.name := by
    simpa [topKey, Prod.ext_iff] using he
  obtain ⟨r, hr, hra, hrn⟩ := mem_tally_top ha
  obtain ⟨r', hr', hrb, hrn'⟩ := mem_tally_top hb
  obtain ⟨c, hc, rfl⟩ := List.mem_map.mp hr
  obtain ⟨c', hc', rfl⟩ := List.mem_map.mp hr'
  have hcc : c = c' := List.inj_on_of_nodup_map hnames hc hc' (hrn.trans (hname.trans hrn'.symm))
  cases a
  cases b
  subst hcc
  simp_all [Int64.toInt_inj]

theorem getCost_restrict (hn : (db.customers.map (·.clientID)).Nodup)
    (hdb : db'.customers = db.customers.filter (·.id ∈ A)) (counts : List IngestCount) (start stop : Int) :
    (getCost db counts start stop).filter (·.customerID ∈ A) =
      getCost db' (counts.filter (notOutside db A ·.tenantID)) start stop := by
  simp only [getCost]
  rw [filter_sortBy, queryCost_filter, groupBy_filter (fun r : CostRow => r.tenantID) (notOutside db A),
    List.filter_filterMap, List.filterMap_filter]
  congr 2
  funext g
  have hcost (o : Option CustomerRef) : (o.map (customerCost · g.2)).filter (·.customerID ∈ A) =
      (o.filter (·.id ∈ A)).map (customerCost · g.2) := by
    rw [Option.filter_map]
    rfl
  rw [hcost]
  refine (congrArg (Option.map (customerCost · g.2)) (visible_restrict db' hn hdb g.1)).trans ?_
  split_ifs <;> rfl

end Scope

end Stats
