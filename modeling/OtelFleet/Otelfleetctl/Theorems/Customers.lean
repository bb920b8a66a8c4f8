import OtelFleet.Otelfleetctl.Theorems.Pipelines
import OtelFleet.Tenants.Theorems.Accounts

open Store (UUID)
open Function (update update_of_ne comp_apply)
open Strings (trimSpace)

-- What a run does to customers.
namespace Otelfleetctl

structure Frame (U : UUID → Prop) (s s' : Server) : Prop where
  rows : ∀ c : Store.Keys.Customer, U c.id → (c ∈ s'.accounts.customers ↔ c ∈ s.accounts.customers)
  retention : ∀ id, U id → s'.retentionDays id = s.retentionDays id
  ids : ∀ c ∈ s.accounts.customers, ∃ c' ∈ s'.accounts.customers, c'.id = c.id
  createdAt : ∀ c ∈ s.accounts.customers, s'.createdAt c.id = s.createdAt c.id
  pipelines : Same (fun id _ => U id) s s'

namespace Frame

theorem refl (U : UUID → Prop) (s : Server) : Frame U s s where
  rows := fun _ _ => Iff.rfl
  retention := fun _ _ => rfl
  ids := fun c hc => ⟨c, hc, rfl⟩
  createdAt := fun _ _ => rfl
  pipelines := .refl _ s

theorem trans (h : Frame U s s') (h' : Frame U s' s'') : Frame U s s'' where
  rows := fun c hc => (h'.rows c hc).trans (h.rows c hc)
  retention := fun id hid => (h'.retention id hid).trans (h.retention id hid)
  ids := fun c hc => by
    obtain ⟨c', hc', he⟩ := h.ids c hc
    obtain ⟨c'', hc'', he'⟩ := h'.ids c' hc'
    exact ⟨c'', hc'', he'.trans he⟩
  createdAt := fun c hc => by
    obtain ⟨c', hc', he⟩ := h.ids c hc
    rw [← h.createdAt c hc, ← he, h'.createdAt c' hc']
  pipelines := h.pipelines.trans h'.pipelines

end Frame

section Creation

open Tenants.Accounts (tryCreate)

theorem tryCreate_eq_ok [Runtime] (h : tryCreate db name baseSlug derived draws left attempt slug = .ok (db', issued)) :
    ∃ n : Store.Keys.NewCustomer, db'.customers = db.customers ++ [n.row] ∧ (∀ c ∈ db.customers, c.id ≠ n.id) ∧
      (∀ c ∈ db.customers, c.slug ≠ n.slug) ∧ n.name = name ∧
      (n.slug = slug ∨ derived ∧ ∃ k, n.slug = baseSlug ++ "-" ++ Strconv.itoa k) := by
  induction left generalizing attempt slug
  case zero => cases h
  case succ left hi =>
    unfold tryCreate at h
    split at h
    case h_1 db'' hok =>
      cases h
      unfold Store.Keys.Database.createCustomer Store.Keys.Database.insertAPIKey at hok
      split_ifs at hok with hid hslug hclient
      cases hok
      push Not at hid hslug
      exact ⟨_, rfl, hid, hslug, rfl, .inl rfl⟩
    case h_2 =>
      split_ifs at h with hd
      obtain ⟨n, hrows, hid, hslug, hname, hs⟩ := hi h
      refine ⟨n, hrows, hid, hslug, hname, .inr ⟨hd, ?_⟩⟩
      obtain hs | ⟨_, hs⟩ := hs
      exacts [⟨_, hs⟩, hs]
    case h_3 => exact hi h
    case h_4 => cases h

theorem deriveSlug_ne_empty (name : String) : Tenants.deriveSlug name ≠ "" := by
  have hpad (cs : List Char) : Tenants.padSlug cs ≠ [] := by
    unfold Tenants.padSlug
    split_ifs with h <;> simp [h]
  intro h
  exact hpad _ (by simpa [Tenants.deriveSlug] using congrArg String.toList h)

variable [Runtime]

structure Admitted (customers customers' : List Store.Keys.Customer) (name slug : String) (n : Store.Keys.NewCustomer) :
    Prop where
  rows : customers' = customers ++ [n.row]
  id : ∀ c ∈ customers, c.id ≠ n.id
  fresh : ∀ c ∈ customers, c.slug ≠ n.slug
  name : n.name = trimSpace name
  named : n.slug ≠ ""
  slug : slug ≠ "" → n.slug = slug

theorem accounts_createCustomer_eq_ok
    (h : Tenants.Accounts.createCustomer db name (if slug = "" then none else some slug) draws = .ok (db', issued)) :
    ∃ n, Admitted db.customers db'.customers name slug n := by
  unfold Tenants.Accounts.createCustomer at h
  dsimp only at h
  split_ifs at h with hname hs
  · obtain ⟨n, hrows, hid, hfresh, hn, htried⟩ := tryCreate_eq_ok h
    refine ⟨n, hrows, hid, hfresh, hn, ?_, absurd hs⟩
    obtain htried | ⟨_, k, htried⟩ := htried
    · exact htried ▸ deriveSlug_ne_empty _
    · exact htried ▸ fun he => by simpa using congrArg String.toList he
  · dsimp only at h
    split_ifs at h
    obtain ⟨n, hrows, hid, hfresh, hn, htried⟩ := tryCreate_eq_ok h
    have htried : n.slug = slug := by simpa using htried
    exact ⟨n, hrows, hid, hfresh, hn, htried ▸ hs, fun _ => htried⟩

variable {s : Server}

theorem createCustomer_eq_ok (h : (s.createCustomer d name slug).1 = .ok cust) :
    ∃ n accounts, Admitted s.accounts.customers accounts.customers name slug n ∧
      (s.createCustomer d name slug).2 = { s with
        accounts := accounts
        retentionDays := update s.retentionDays n.id none
        createdAt := update s.createdAt n.id d.now } ∧
      cust = (s.createCustomer d name slug).2.toCustomer n.row := by
  unfold Server.createCustomer at h ⊢
  split at h
  case h_6 accounts issued hc =>
    obtain ⟨n, hn⟩ := accounts_createCustomer_eq_ok hc
    have hlast : accounts.customers.getLast? = some n.row := by simp [hn.rows]
    simp only [hlast, Except.ok.injEq] at h ⊢
    exact ⟨n, accounts, hn, rfl, h.symm⟩
  all_goals cases h

theorem Server.WF.createCustomer (h : s.WF) (hc : (s.createCustomer d name slug).1 = .ok cust) :
    ∃ n : Store.Keys.NewCustomer, Admitted s.accounts.customers (s.createCustomer d name slug).2.accounts.customers name slug n ∧
      (s.createCustomer d name slug).2.WF ∧ cust = (s.createCustomer d name slug).2.toCustomer n.row ∧
      Frame (· ≠ n.id) s (s.createCustomer d name slug).2 ∧
      (s.createCustomer d name slug).2.pipelines = s.pipelines := by
  obtain ⟨n, accounts, hn, hs, hcust⟩ := createCustomer_eq_ok hc
  have hmem {c : Store.Keys.Customer} : c ∈ accounts.customers ↔ c ∈ s.accounts.customers ∨ c = n.row := by
    simp [hn.rows]
  refine ⟨n, by rw [hs]; exact hn, ?_, hcust, ?_, by rw [hs]⟩
  · rw [hs]
    constructor
    case db => exact ⟨h.db.pipelineIDs, h.db.versionIDs, h.db.owned, h.db.numbered, h.db.active⟩
    case customerIDs => exact hn.rows ▸ Assoc.nodup_map_concat h.customerIDs hn.id
    case slugs => exact hn.rows ▸ Assoc.nodup_map_concat h.slugs hn.fresh
    case named =>
      intro c hc
      obtain hc | rfl := hmem.mp hc
      exacts [h.named c hc, hn.named]
    case owners =>
      intro p hp
      obtain ⟨c, hc, he⟩ := h.owners p hp
      exact ⟨c, hmem.mpr (.inl hc), he⟩
    case names => exact h.names
  · rw [hs]
    constructor
    case rows =>
      intro c hid
      have hne : c ≠ n.row := by
        rintro rfl
        exact hid rfl
      simp [hmem, hne]
    case retention => exact fun id hid => update_of_ne hid _ _
    case ids => exact fun c hc => ⟨c, hmem.mpr (.inl hc), rfl⟩
    case createdAt => exact fun c hc => update_of_ne (hn.id c hc) _ _
    case pipelines => exact ⟨fun _ _ => Iff.rfl, fun _ _ _ _ _ => Iff.rfl⟩

end Creation

section Updating

variable {s : Server} {cs : CustomerSpec} {c : Store.Keys.Customer}

theorem updates_keys_eq_nil : (updates cust cs).keys = [] ↔
    cust.name = cs.name ∧ cust.rateLimitItemsPerSec = cs.rateLimitItemsPerSec ∧
      cust.retentionDays = cs.retentionDays := by
  simp only [Update.keys, List.append_eq_nil_iff, Option.toList_eq_nil_iff, Option.map_eq_none_iff, updates,
    ite_eq_left_iff, reduceCtorEq, imp_false, not_not, and_assoc]

-- A customer has been brought in line with an entry, as far as the entry differs from what was listed.
structure Patched (s s' : Server) (cs : CustomerSpec) (cust : Customer) (c c' : Store.Keys.Customer) : Prop where
  wf : s'.WF
  mem : c' ∈ s'.accounts.customers
  id : c'.id = c.id
  status : c'.status = c.status
  slug : c'.slug = c.slug
  name : c'.name = if cust.name = cs.name then c.name else trimSpace cs.name
  limit : (s'.toCustomer c').rateLimitItemsPerSec =
    if cust.rateLimitItemsPerSec = cs.rateLimitItemsPerSec then (s.toCustomer c).rateLimitItemsPerSec
    else cs.rateLimitItemsPerSec
  retention : (s'.toCustomer c').retentionDays =
    if cust.retentionDays = cs.retentionDays then (s.toCustomer c).retentionDays else cs.retentionDays
  frame : Frame (· ≠ c.id) s s'
  pipelines : Same (fun _ _ => True) s s'

def patch (upd : Update) (c : Store.Keys.Customer) : Store.Keys.Customer :=
  { c with
    name := (upd.name.map trimSpace).getD c.name
    rateLimitItemsPerSec := (upd.rateLimitItemsPerSec.map (·.map Int.toNat)).getD c.rateLimitItemsPerSec }

section Patch

theorem patch_name (cust : Customer) (cs : CustomerSpec) (c : Store.Keys.Customer) :
    (patch (updates cust cs) c).name = if cust.name = cs.name then c.name else trimSpace cs.name := by
  unfold patch
  by_cases hn : cust.name = cs.name <;> simp [updates, hn]

theorem patch_limit (hpos : ∀ value ∈ (updates cust cs).rateLimitItemsPerSec, ∀ n ∈ value, 1 ≤ n) :
    (patch (updates cust cs) c).rateLimitItemsPerSec.map (↑) =
      if cust.rateLimitItemsPerSec = cs.rateLimitItemsPerSec then c.rateLimitItemsPerSec.map (↑)
      else cs.rateLimitItemsPerSec := by
  unfold patch
  split_ifs with hl
  · rw [show (updates cust cs).rateLimitItemsPerSec = none from if_pos hl]
    rfl
  · have hsome : (updates cust cs).rateLimitItemsPerSec = some cs.rateLimitItemsPerSec := if_neg hl
    have hpos := hpos _ hsome
    rw [hsome]
    cases hv : cs.rateLimitItemsPerSec
    case none => rfl
    case some n => exact congrArg some (Int.toNat_of_nonneg (by have := hpos n hv; omega))

theorem updates_retention (cust : Customer) (cs : CustomerSpec) (days : UUID → Option Int) (id : UUID) :
    (updates cust cs).retentionDays.elim days (update days id) id =
      if cust.retentionDays = cs.retentionDays then days id else cs.retentionDays := by
  by_cases hl : cust.retentionDays = cs.retentionDays
  · rw [if_pos hl, show (updates cust cs).retentionDays = none from if_pos hl]
    rfl
  · rw [if_neg hl, show (updates cust cs).retentionDays = some cs.retentionDays from if_neg hl]
    exact Function.update_self ..

end Patch

theorem updateCustomer_eq_ok [Runtime] {id : UUID} (h : (s.updateCustomer id upd).1 = .ok ()) :
    (∀ value ∈ upd.rateLimitItemsPerSec, ∀ n ∈ value, 1 ≤ n) ∧ ∃ accounts : Store.Keys.Database,
      accounts.customers = s.accounts.customers.map (fun c => if c.id = id then patch upd c else c) ∧
      (s.updateCustomer id upd).2 = { s with
        accounts := accounts
        retentionDays := upd.retentionDays.elim s.retentionDays (update s.retentionDays id) } := by
  unfold Server.updateCustomer at h ⊢
  split_ifs at h ⊢ with hrate hret
  split at h
  case h_4 accounts hok =>
    refine ⟨?_, accounts, Tenants.Accounts.updateCustomer_eq_ok hok, rfl⟩
    push Not at hrate
    exact hrate
  all_goals cases h

theorem Server.WF.replace (h : s.WF) (hc : c ∈ s.accounts.customers) {f : Store.Keys.Customer → Store.Keys.Customer}
    (hid : ∀ d, (f d).id = d.id) (hslug : ∀ d, (f d).slug = d.slug) {accounts : Store.Keys.Database}
    (hrows : accounts.customers = s.accounts.customers.map fun d => if d.id = c.id then f d else d)
    {retentionDays : UUID → Option Int} (hret : ∀ id ≠ c.id, retentionDays id = s.retentionDays id) :
    { s with accounts := accounts, retentionDays := retentionDays }.WF ∧ f c ∈ accounts.customers ∧
      Frame (· ≠ c.id) s { s with accounts := accounts, retentionDays := retentionDays } := by
  have hids : accounts.customers.map (·.id) = s.accounts.customers.map (·.id) := by
    rw [hrows, List.map_map]
    refine List.map_congr_left fun d _ => ?_
    simp only [comp_apply]
    split_ifs
    exacts [hid d, rfl]
  have hslugs : accounts.customers.map (·.slug) = s.accounts.customers.map (·.slug) := by
    rw [hrows, List.map_map]
    refine List.map_congr_left fun d _ => ?_
    simp only [comp_apply]
    split_ifs
    exacts [hslug d, rfl]
  have hkept {d : Store.Keys.Customer} (hd : d ∈ s.accounts.customers) : ∃ d' ∈ accounts.customers, d'.id = d.id :=
    List.mem_map.mp (hids ▸ List.mem_map_of_mem hd)
  refine ⟨?_, hrows ▸ List.mem_map.mpr ⟨c, hc, if_pos rfl⟩, ?_⟩
  · constructor
    case db => exact ⟨h.db.pipelineIDs, h.db.versionIDs, h.db.owned, h.db.numbered, h.db.active⟩
    case customerIDs => exact hids ▸ h.customerIDs
    case slugs => exact hslugs ▸ h.slugs
    case named =>
      intro d hd
      obtain ⟨d', hd', he⟩ := List.mem_map.mp (hslugs ▸ List.mem_map_of_mem hd)
      exact he ▸ h.named d' hd'
    case owners =>
      intro p hp
      obtain ⟨d, hd, he⟩ := h.owners p hp
      obtain ⟨d', hd', he'⟩ := hkept hd
      exact ⟨d', hd', he'.trans he⟩
    case names => exact h.names
  · constructor
    case rows =>
      intro d hd
      simp only [hrows, List.mem_map]
      constructor
      · rintro ⟨d', hd', he⟩
        split_ifs at he with hid'
        · exact absurd ((congrArg (·.id) he).symm.trans ((hid d').trans hid')) hd
        · exact he ▸ hd'
      · exact fun hm => ⟨d, hm, if_neg hd⟩
    case retention => exact hret
    case ids => exact fun d hd => hkept hd
    case createdAt => exact fun _ _ => rfl
    case pipelines => exact ⟨fun _ _ => Iff.rfl, fun _ _ _ _ _ => Iff.rfl⟩

theorem reconcile_patched [Runtime] {r r' : Run} (h : r.server.WF) (hc : c ∈ r.server.accounts.customers)
    (hid : cust.id = c.id) (hr : reconcile false cust r cs = .ok r') :
    ∃ c', Patched r.server r'.server cs cust c c' := by
  unfold reconcile at hr
  simp only [Bool.false_eq_true, if_false] at hr
  split_ifs at hr with hk
  · cases hr
    obtain ⟨hname, hlimit, hretention⟩ := updates_keys_eq_nil.mp hk
    exact ⟨c, h, hc, rfl, rfl, rfl, (if_pos hname).symm, (if_pos hlimit).symm, (if_pos hretention).symm, .refl _ _,
      .refl _ _⟩
  · obtain ⟨⟨_, r₁⟩, h₁, hlast⟩ := bind_eq_ok.mp hr
    cases hlast
    obtain ⟨hu, rfl⟩ := call_eq_ok.mp h₁
    dsimp only [Run.add] at hu ⊢
    rw [hid] at hu ⊢
    obtain ⟨hrate, accounts, haccounts, hs⟩ := updateCustomer_eq_ok hu
    rw [hs]
    have hret : ∀ id ≠ c.id, (updates cust cs).retentionDays.elim r.server.retentionDays
        (update r.server.retentionDays c.id) id = r.server.retentionDays id := by
      intro id hid
      cases (updates cust cs).retentionDays
      case none => rfl
      case some value => exact update_of_ne hid _ _
    obtain ⟨hwf, hmem, hframe⟩ := @Server.WF.replace _ _ h hc (patch (updates cust cs)) (fun _ => rfl)
      (fun _ => rfl) _ haccounts _ hret
    exact ⟨_, hwf, hmem, rfl, rfl, rfl, patch_name cust cs c, patch_limit hrate, updates_retention cust cs _ _, hframe,
      ⟨fun _ _ => Iff.rfl, fun _ _ _ _ _ => Iff.rfl⟩⟩

end Updating

section Lookup

variable {s : Server} {cs : CustomerSpec}

def Server.age (s : Server) (id : UUID) : Int ×ₗ UUID :=
  toLex (s.createdAt id, id)

-- The customer that an entry without a slug is for is the oldest one of that name.
structure Matches (s : Server) (cs : CustomerSpec) (c : Store.Keys.Customer) : Prop where
  mem : c ∈ s.accounts.customers
  live : c.status ≠ .deleted
  slug : cs.slug ≠ "" → c.slug = cs.slug
  name : cs.slug = "" → c.name = cs.name
  first : cs.slug = "" → ∀ d ∈ s.accounts.customers, d.status ≠ .deleted → d.name = cs.name → s.age c.id ≤ s.age d.id

theorem mem_listCustomers : cust ∈ s.listCustomers ↔
    ∃ c ∈ s.accounts.customers, c.status ≠ .deleted ∧ s.toCustomer c = cust := by
  simp only [Server.listCustomers, List.mem_map, Sorting.mem_sortBy, List.mem_filter, decide_eq_true_eq, and_assoc]

theorem Server.WF.findCustomer_bySlug (h : s.WF) (hslug : cs.slug ≠ "") :
    findCustomer s.listCustomers cs = some cust ↔ ∃ c, Matches s cs c ∧ s.toCustomer c = cust := by
  rw [findCustomer, if_neg hslug, Option.or_none]
  constructor
  · intro hf
    obtain ⟨c, hc, hlive, rfl⟩ := mem_listCustomers.mp (List.mem_reverse.mp (List.mem_of_find?_eq_some hf))
    have hs : (s.toCustomer c).slug = cs.slug := by simpa using List.find?_some hf
    exact ⟨c, ⟨hc, hlive, fun _ => hs, (absurd · hslug), (absurd · hslug)⟩, rfl⟩
  · rintro ⟨c, hc, rfl⟩
    refine Assoc.find?_unique (fun cust hcust hs => ?_)
      (List.mem_reverse.mpr (mem_listCustomers.mpr ⟨c, hc.mem, hc.live, rfl⟩)) (decide_eq_true (hc.slug hslug))
    obtain ⟨d, hd, _, rfl⟩ := mem_listCustomers.mp (List.mem_reverse.mp hcust)
    have hs : d.slug = cs.slug := of_decide_eq_true hs
    rw [List.inj_on_of_nodup_map h.slugs hd hc.mem (hs.trans (hc.slug hslug).symm)]

theorem Server.WF.findCustomer_byName (h : s.WF) (hslug : cs.slug = "") :
    findCustomer s.listCustomers cs = ((Sorting.sortBy (fun c => s.age c.id)
      (s.accounts.customers.filter (·.status ≠ .deleted))).find? (·.name = cs.name)).map s.toCustomer := by
  have hnone : s.listCustomers.reverse.find? (·.slug = cs.slug) = none := by
    simp only [List.find?_eq_none, List.mem_reverse, decide_eq_true_eq]
    intro cust hcust
    obtain ⟨c, hc, _, rfl⟩ := mem_listCustomers.mp hcust
    exact hslug ▸ h.named c hc
  rw [findCustomer, hnone, Option.none_or, if_pos hslug, Server.listCustomers, List.find?_map]
  rfl

theorem matches_of_find? (hslug : cs.slug = "") (hf : (Sorting.sortBy (fun c => s.age c.id)
      (s.accounts.customers.filter (·.status ≠ .deleted))).find? (·.name = cs.name) = some c) : Matches s cs c := by
  obtain ⟨hc, hcn, hfirst⟩ := Sorting.find?_sortBy_eq_some hf
  simp only [List.mem_filter, decide_eq_true_eq, and_imp] at hc hcn hfirst
  exact ⟨hc.left, hc.right, absurd hslug, fun _ => hcn, fun _ => hfirst⟩

theorem Server.WF.exists_matches (h : s.WF) (hslug : cs.slug = "")
    (hd : d ∈ s.accounts.customers) (hlive : d.status ≠ .deleted) (hname : d.name = cs.name) :
    ∃ c, Matches s cs c ∧ findCustomer s.listCustomers cs = some (s.toCustomer c) := by
  obtain ⟨c, hf⟩ : ∃ c, (Sorting.sortBy (fun c => s.age c.id)
      (s.accounts.customers.filter (·.status ≠ .deleted))).find? (·.name = cs.name) = some c := by
    refine Option.isSome_iff_exists.mp (List.find?_isSome.mpr ⟨d, ?_, by simpa using hname⟩)
    exact Sorting.mem_sortBy.mpr (List.mem_filter.mpr ⟨hd, by simpa using hlive⟩)
  exact ⟨c, matches_of_find? hslug hf, by rw [h.findCustomer_byName hslug, hf, Option.map_some]⟩

theorem Server.WF.findCustomer_eq_some (h : s.WF) :
    findCustomer s.listCustomers cs = some cust ↔ ∃ c, Matches s cs c ∧ s.toCustomer c = cust := by
  by_cases hslug : cs.slug = ""
  case neg => exact h.findCustomer_bySlug hslug
  case pos =>
    constructor
    · intro hf
      rw [h.findCustomer_byName hslug] at hf
      obtain ⟨c, hc, he⟩ := Option.map_eq_some_iff.mp hf
      exact ⟨c, matches_of_find? hslug hc, he⟩
    · rintro ⟨c, hc, rfl⟩
      obtain ⟨d, hd, hf⟩ := h.exists_matches hslug hc.mem hc.live (hc.name hslug)
      -- Both are the oldest.
      have hle := hc.first hslug d hd.mem hd.live (hd.name hslug)
      have hge := hd.first hslug c hc.mem hc.live (hc.name hslug)
      have hid : c.id = d.id := congrArg (·.2) (toLex.injective (le_antisymm hle hge))
      rw [hf, h.customer_unique hc.mem hd.mem hid]

end Lookup

end Otelfleetctl
