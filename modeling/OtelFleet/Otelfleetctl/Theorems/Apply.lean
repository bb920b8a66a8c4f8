import OtelFleet.Otelfleetctl.Theorems.Customers

open Store (UUID)
open Strings (trimSpace)

-- Applying a spec twice.
namespace Otelfleetctl

section Upshot

variable {α : Type} [DecidableEq α] {f : α → α} {x v : α} {vs : List α}

-- What is left of updates that are all made against one value. Those that agree with it have no effect.
def upshot (f : α → α) (x : α) (vs : List α) : α :=
  vs.foldl (fun w v => if x = v then w else f v) x

theorem upshot_concat (f : α → α) (x v : α) (vs : List α) :
    upshot f x (vs ++ [v]) = if x = v then upshot f x vs else f v := by
  simp [upshot]

theorem upshot_cases (f : α → α) (x : α) (vs : List α) : upshot f x vs = x ∨ ∃ v ∈ vs, upshot f x vs = f v := by
  induction vs using List.reverseRecOn
  case nil => exact .inl rfl
  case append_singleton vs v hi =>
    rw [upshot_concat]
    split_ifs
    · exact hi.imp_right fun ⟨w, hw, he⟩ => ⟨w, List.mem_append_left _ hw, he⟩
    · exact .inr ⟨v, by simp, rfl⟩

theorem upshot_of_forall (hv : v ∈ vs) (h : ∀ w ∈ vs, w = v) : upshot f x vs = if x = v then v else f v := by
  induction vs using List.reverseRecOn
  case nil => cases hv
  case append_singleton vs w hi =>
    obtain rfl := h w (by simp)
    rw [upshot_concat]
    split_ifs with hx
    · by_cases hvs : w ∈ vs
      · rw [hi hvs fun u hu => h u (List.mem_append_left _ hu), if_pos hx]
      · have hnil : vs = [] := by
          refine List.eq_nil_iff_forall_not_mem.mpr fun u hu => hvs ?_
          exact h u (List.mem_append_left _ hu) ▸ hu
        rw [hnil, ← hx]
        rfl
    · rfl

end Upshot

section Placement

variable [Runtime] {s₀ s s' : Server} {cs : CustomerSpec} {entries : List CustomerSpec} {cust : Customer}

def Named (s : Server) (cs : CustomerSpec) : Prop :=
  ∃ cust ∈ findCustomer s.listCustomers cs, cust.name = cs.name

-- What has become of a customer that was listed, or created, and that entries have been applied to.
structure Placed (s₀ s : Server) (entries : List CustomerSpec) (cust : Customer) (e : Store.Keys.Customer) : Prop where
  mem : e ∈ s.accounts.customers
  id : e.id = cust.id
  status : e.status = cust.status
  slug : e.slug = cust.slug
  name : e.name = upshot trimSpace cust.name (entries.map (·.name))
  limit : (s.toCustomer e).rateLimitItemsPerSec =
    upshot (fun v => v) cust.rateLimitItemsPerSec (entries.map (·.rateLimitItemsPerSec))
  retention : (s.toCustomer e).retentionDays = upshot (fun v => v) cust.retentionDays (entries.map (·.retentionDays))
  pipelines : Applied cust.id (entries.flatMap (·.pipelines)) s₀ s

theorem Placed.frame (h : Placed s₀ s entries cust e) (hf : Frame U s s') (hU : U cust.id) :
    Placed s₀ s' entries cust e where
  mem := (hf.rows e (h.id ▸ hU)).mpr h.mem
  id := h.id
  status := h.status
  slug := h.slug
  name := h.name
  limit := h.limit
  retention := (hf.retention e.id (h.id ▸ hU)).trans h.retention
  pipelines := by
    have := h.pipelines.trans (.of_same (hf.pipelines.mono fun _ _ hid => hid ▸ hU))
    rwa [List.append_nil] at this

theorem Reconciled.frame {id : UUID} (h : Reconciled s s' id specs) : Frame (· ≠ id) s s' := by
  have hsame := h.same
  obtain ⟨db, rfl⟩ := h.others
  exact ⟨fun _ _ => Iff.rfl, fun _ _ => rfl, fun c hc => ⟨c, hc, rfl⟩, fun _ _ => rfl, hsame⟩

theorem applyTo_placed (h : r.server.WF) (hplaced : Placed s₀ r.server entries cust e)
    (ha : applyTo c false cs (some cust, r) = .ok r') :
    ∃ e', Placed s₀ r'.server (entries ++ [cs]) cust e' ∧ r'.server.WF ∧ Frame (· ≠ cust.id) r.server r'.server := by
  obtain ⟨r₁, h₁, hlast⟩ := bind_eq_ok.mp ha
  obtain ⟨e', he'⟩ := reconcile_patched h hplaced.mem hplaced.id.symm h₁
  have hid : e'.id = cust.id := he'.id.trans hplaced.id
  unfold applyPipelines at hlast
  split at hlast
  case _ => cases hlast
  case _ L hL =>
    have hrec := foldlM_reconciled he'.wf hL ⟨e', he'.mem, hid⟩
      ⟨he'.wf, ⟨r₁.server.db, rfl⟩, .refl _, .refl _ _, .of_same (.refl _ _)⟩ hlast
    rw [List.nil_append] at hrec
    obtain ⟨db, hdb⟩ := hrec.others
    have hlimit := he'.limit
    have hretention := he'.retention
    refine ⟨e', ⟨hdb ▸ he'.mem, hid, he'.status.trans hplaced.status, he'.slug.trans hplaced.slug, ?_, ?_, ?_, ?_⟩,
      hrec.wf, ?_⟩
    · rw [he'.name, hplaced.name, List.map_append, List.map_singleton, upshot_concat]
    · rw [hplaced.limit] at hlimit
      rw [List.map_append, List.map_singleton, upshot_concat, ← hlimit, hdb]
      rfl
    · rw [hplaced.retention] at hretention
      rw [List.map_append, List.map_singleton, upshot_concat, ← hretention, hdb]
      rfl
    · have := (hplaced.pipelines.trans (.of_same (he'.pipelines.mono fun _ _ _ => trivial))).trans hrec.applied
      rwa [List.append_nil, ← List.flatMap_singleton (·.pipelines) cs, ← List.flatMap_append] at this
    · exact (hplaced.id ▸ he'.frame).trans hrec.frame

end Placement

section Entries

variable [Runtime] {s₀ s : Server} {cs : CustomerSpec} {entries : List CustomerSpec} {cust : Customer}

-- The entries that have been applied, and the customers they were applied to.
abbrev Log := List (CustomerSpec × Customer)

def Log.entriesFor (log : Log) (id : UUID) : List CustomerSpec :=
  (log.filter (·.2.id = id)).map (·.1)

def known (s₀ : Server) (log : Log) : List Customer :=
  s₀.listCustomers ++ log.map (·.2)

omit [Runtime] in
theorem Log.mem_entriesFor {log : Log} {id : UUID} : cs ∈ log.entriesFor id ↔ ∃ cust, (cs, cust) ∈ log ∧ cust.id = id := by
  simp [Log.entriesFor]

omit [Runtime] in
theorem Log.entriesFor_concat (log : Log) (cs : CustomerSpec) (cust : Customer) (id : UUID) :
    Log.entriesFor (log ++ [(cs, cust)]) id = log.entriesFor id ++ if cust.id = id then [cs] else [] := by
  unfold Log.entriesFor
  split_ifs with hid <;> simp [hid]

structure Created (s₀ : Server) (cs : CustomerSpec) (cust : Customer) : Prop where
  none : findCustomer s₀.listCustomers cs = none
  id : ∀ x ∈ s₀.accounts.customers, x.id ≠ cust.id
  live : cust.status ≠ .deleted
  name : cust.name = trimSpace cs.name
  slug : cs.slug ≠ "" → cust.slug = cs.slug

structure Settled (s₀ s : Server) (log : Log) : Prop where
  wf : s.WF
  placed : ∀ cust ∈ known s₀ log, ∃ e, Placed s₀ s (log.entriesFor cust.id) cust e
  rows : ∀ e ∈ s.accounts.customers, e.status ≠ .deleted → ∃ cust ∈ known s₀ log, cust.id = e.id
  target : ∀ a ∈ log, findCustomer s₀.listCustomers a.1 = some a.2 ∨
    Created s₀ a.1 a.2 ∧ ∀ b ∈ log, b.2.id = a.2.id → b = a
  ids : ∀ x ∈ s₀.accounts.customers, ∃ e ∈ s.accounts.customers, e.id = x.id
  createdAt : ∀ x ∈ s₀.accounts.customers, s.createdAt x.id = s₀.createdAt x.id

theorem Settled.refl (h₀ : s₀.WF) : Settled s₀ s₀ [] where
  wf := h₀
  placed cust hcust := by
    rw [known, List.map_nil, List.append_nil] at hcust
    obtain ⟨x, hx, hlive, rfl⟩ := mem_listCustomers.mp hcust
    exact ⟨x, hx, rfl, rfl, rfl, rfl, rfl, rfl, .of_same (.refl _ _)⟩
  rows e he hlive := ⟨s₀.toCustomer e, List.mem_append_left _ (mem_listCustomers.mpr ⟨e, he, hlive, rfl⟩), rfl⟩
  target := by simp
  ids x hx := ⟨x, hx, rfl⟩
  createdAt _ _ := rfl

omit [Runtime] in
theorem Server.WF.listCustomers_unique (h₀ : s₀.WF) (ha : a ∈ s₀.listCustomers) (hb : b ∈ s₀.listCustomers)
    (hid : a.id = b.id) : a = b := by
  obtain ⟨x, hx, -, rfl⟩ := mem_listCustomers.mp ha
  obtain ⟨y, hy, -, rfl⟩ := mem_listCustomers.mp hb
  rw [h₀.customer_unique hx hy hid]

omit [Runtime] in
theorem Server.WF.mem_of_findCustomer (h₀ : s₀.WF) (hf : findCustomer s₀.listCustomers cs = some cust) :
    cust ∈ s₀.listCustomers := by
  obtain ⟨x, hx, rfl⟩ := h₀.findCustomer_eq_some.mp hf
  exact mem_listCustomers.mpr ⟨x, hx.mem, hx.live, rfl⟩

theorem Settled.known_unique (h : Settled s₀ s log) (h₀ : s₀.WF) (ha : a ∈ known s₀ log) (hb : b ∈ known s₀ log)
    (hid : a.id = b.id) : a = b := by
  have hlisted {a b : Customer} (ha : a ∈ s₀.listCustomers) (hb : b ∈ known s₀ log) (hid : a.id = b.id) : a = b := by
    obtain hb | hb := List.mem_append.mp hb
    · exact h₀.listCustomers_unique ha hb hid
    · obtain ⟨l, hl, rfl⟩ := List.mem_map.mp hb
      obtain hf | ⟨hnew, -⟩ := h.target l hl
      · exact h₀.listCustomers_unique ha (h₀.mem_of_findCustomer hf) hid
      · obtain ⟨x, hx, -, rfl⟩ := mem_listCustomers.mp ha
        exact absurd hid (hnew.id x hx)
  obtain ha | ha' := List.mem_append.mp ha
  · exact hlisted ha hb hid
  · obtain hb | hb := List.mem_append.mp hb
    · exact (hlisted hb ha hid.symm).symm
    · obtain ⟨l, hl, rfl⟩ := List.mem_map.mp ha'
      obtain ⟨m, hm, rfl⟩ := List.mem_map.mp hb
      obtain hf | ⟨-, honly⟩ := h.target l hl
      · exact hlisted (h₀.mem_of_findCustomer hf) (List.mem_append_right _ hb) hid
      · rw [honly m hm hid.symm]

theorem ensureCustomer_placed (h : Settled s₀ r.server log) (h₀ : s₀.WF)
    (ha : ensureCustomer c false s₀.listCustomers r cs = .ok (found, r')) :
    ∃ cust e, found = some cust ∧ r'.server.WF ∧ Placed s₀ r'.server (log.entriesFor cust.id) cust e ∧
      Frame (· ≠ cust.id) r.server r'.server ∧ (findCustomer s₀.listCustomers cs = some cust ∨
        Created s₀ cs cust ∧ ∀ x ∈ r.server.accounts.customers, x.id ≠ cust.id) := by
  unfold ensureCustomer at ha
  split at ha
  case _ cust hf =>
    cases ha
    obtain ⟨e, he⟩ := h.placed cust (List.mem_append_left _ (h₀.mem_of_findCustomer hf))
    exact ⟨cust, e, rfl, h.wf, he, .refl _ _, .inl hf⟩
  case _ hf =>
    obtain ⟨⟨cust, r₁⟩, h₁, hlast⟩ := bind_eq_ok.mp ha
    cases hlast
    obtain ⟨hc, rfl⟩ := call_eq_ok.mp h₁
    dsimp only [Run.add] at hc ⊢
    obtain ⟨n, hn, hwf, rfl, hfr, hpipes⟩ := h.wf.createCustomer hc
    have hnew (x : Store.Keys.Customer) (hx : x ∈ s₀.accounts.customers) : x.id ≠ n.id := by
      obtain ⟨e, he, hid⟩ := h.ids x hx
      exact hid ▸ hn.id e he
    have hnone : log.entriesFor n.id = [] := by
      refine List.eq_nil_iff_forall_not_mem.mpr fun cs' hcs' => ?_
      obtain ⟨cust', hmem, hid⟩ := Log.mem_entriesFor.mp hcs'
      obtain ⟨e, he⟩ := h.placed cust' (List.mem_append_right _ (List.mem_map_of_mem hmem))
      exact hn.id e he.mem (he.id.trans hid)
    refine ⟨_, n.row, rfl, hwf, ?_, hfr, .inr ⟨⟨hf, hnew, nofun, hn.name, hn.slug⟩, hn.id⟩⟩
    rw [show (Server.toCustomer _ n.row).id = n.id from rfl, hnone]
    refine ⟨by rw [hn.rows]; simp, rfl, rfl, rfl, rfl, rfl, rfl, .of_same (.of_none (fun p hp hid => ?_) fun p hp hid => ?_)⟩
    -- Neither state has pipelines of a customer who is new.
    · obtain ⟨x, hx, hxid⟩ := h₀.owners p hp
      exact hnew x hx (hxid.trans hid)
    · obtain ⟨x, hx, hxid⟩ := h.wf.owners p (hpipes ▸ hp)
      exact hn.id x hx (hxid.trans hid)

theorem applyCustomer_settled (h : Settled s₀ r.server log) (h₀ : s₀.WF)
    (ha : applyCustomer c false s₀.listCustomers r cs = .ok r') :
    ∃ cust, Settled s₀ r'.server (log ++ [(cs, cust)]) := by
  obtain ⟨⟨found, r₁⟩, h₁, hrest⟩ := bind_eq_ok.mp ha
  obtain ⟨cust, e, rfl, hwf₁, hplaced, hframe₁, htarget⟩ := ensureCustomer_placed h h₀ h₁
  obtain ⟨e', he', hwf, hframe₂⟩ := applyTo_placed hwf₁ hplaced hrest
  have hframe := hframe₁.trans hframe₂
  have hin (a : CustomerSpec × Customer) (hmem : a ∈ log) : ∃ x ∈ r.server.accounts.customers, x.id = a.2.id := by
    obtain ⟨x, hx⟩ := h.placed a.2 (List.mem_append_right _ (List.mem_map_of_mem hmem))
    exact ⟨x, hx.mem, hx.id⟩
  have hknown {cust' : Customer} : cust' ∈ known s₀ (log ++ [(cs, cust)]) ↔ cust' ∈ known s₀ log ∨ cust' = cust := by
    simp [known, or_assoc]
  refine ⟨cust, hwf, fun cust' hcust' => ?_, fun x hx hlive => ?_, fun a hmem => ?_, fun x hx => ?_, fun x hx => ?_⟩
  case refine_1 =>
    by_cases hid : cust'.id = cust.id
    case pos =>
      obtain rfl : cust' = cust := by
        obtain hold | rfl := hknown.mp hcust'
        · obtain hf | ⟨-, hnew⟩ := htarget
          · exact h.known_unique h₀ hold (List.mem_append_left _ (h₀.mem_of_findCustomer hf)) hid
          · obtain ⟨x, hx⟩ := h.placed cust' hold
            exact absurd (hx.id.trans hid) (hnew x hx.mem)
        · rfl
      exact ⟨e', by rwa [Log.entriesFor_concat, if_pos rfl]⟩
    case neg =>
      have hold := (hknown.mp hcust').resolve_right fun he => hid (congrArg (·.id) he)
      obtain ⟨x, hx⟩ := h.placed cust' hold
      refine ⟨x, ?_⟩
      rw [Log.entriesFor_concat, if_neg (Ne.symm hid), List.append_nil]
      exact hx.frame hframe hid
  case refine_2 =>
    by_cases hid : x.id = cust.id
    case pos => exact ⟨cust, hknown.mpr (.inr rfl), hid.symm⟩
    case neg =>
      obtain ⟨cust', hmem, hid'⟩ := h.rows x ((hframe.rows x hid).mp hx) hlive
      exact ⟨cust', hknown.mpr (.inl hmem), hid'⟩
  case refine_3 =>
    obtain hmem | hmem := List.mem_append.mp hmem
    case inl =>
      refine (h.target a hmem).imp_right fun ⟨hnew, honly⟩ => ⟨hnew, fun b hb hid => ?_⟩
      obtain hb | hb := List.mem_append.mp hb
      · exact honly b hb hid
      · obtain rfl := List.mem_singleton.mp hb
        obtain hf | ⟨-, hfresh⟩ := htarget
        · obtain ⟨x, hx, -, rfl⟩ := mem_listCustomers.mp (h₀.mem_of_findCustomer hf)
          exact absurd hid (hnew.id x hx)
        · obtain ⟨x, hx, hxid⟩ := hin a hmem
          exact absurd (hxid.trans hid.symm) (hfresh x hx)
    case inr =>
      obtain rfl := List.mem_singleton.mp hmem
      refine htarget.imp_right fun ⟨hnew, hfresh⟩ => ⟨hnew, fun b hb hid => ?_⟩
      obtain hb | hb := List.mem_append.mp hb
      · obtain ⟨x, hx, hxid⟩ := hin b hb
        exact absurd (hxid.trans hid) (hfresh x hx)
      · exact List.mem_singleton.mp hb
  case refine_4 =>
    obtain ⟨y, hy, hid⟩ := h.ids x hx
    obtain ⟨z, hz, hid'⟩ := hframe.ids y hy
    exact ⟨z, hz, hid'.trans hid⟩
  case refine_5 =>
    obtain ⟨y, hy, hid⟩ := h.ids x hx
    rw [← h.createdAt x hx, ← hid, hframe.createdAt y hy]

theorem foldlM_settled (h : Settled s₀ r.server log) (h₀ : s₀.WF)
    (ha : entries.foldlM (applyCustomer c false s₀.listCustomers) r = .ok r') :
    ∃ log', Settled s₀ r'.server (log ++ log') ∧ log'.map (·.1) = entries := by
  induction entries generalizing r log
  case nil =>
    cases ha
    exact ⟨[], by rwa [List.append_nil], rfl⟩
  case cons cs rest hi =>
    obtain ⟨r₁, hfirst, hrest⟩ := foldlM_cons_eq_ok.mp ha
    obtain ⟨cust, hs⟩ := applyCustomer_settled h h₀ hfirst
    obtain ⟨log', hlog', hmap⟩ := hi hs hrest
    exact ⟨(cs, cust) :: log', by rwa [List.append_cons], by rw [List.map_cons, hmap]⟩

end Entries

section Again

variable [Runtime] {c : Client} {s₀ s : Server} {cs : CustomerSpec} {log : Log}

-- Two entries are one and the same, or are for one customer.
def ForOne (s : Server) (a b : CustomerSpec) : Prop :=
  a = b ∨ ∃ cust, findCustomer s.listCustomers a = some cust ∧ findCustomer s.listCustomers b = some cust

-- The two entries ask for the same.
structure Agree (a b : CustomerSpec) : Prop where
  name : a.name = b.name
  limit : a.rateLimitItemsPerSec = b.rateLimitItemsPerSec
  retention : a.retentionDays = b.retentionDays
  pipelines : ∀ p ∈ a.pipelines, ∀ q ∈ b.pipelines, p.name = q.name → SameGraph p q

-- The server gives the entry back as it is written, or has had it before.
structure KeptEntry (s : Server) (cs : CustomerSpec) : Prop where
  name : trimSpace cs.name = cs.name ∨ Named s cs
  pipelines : ∀ ps ∈ cs.pipelines,
    (trimSpace ps.name = ps.name ∨ ∃ cust ∈ findCustomer s.listCustomers cs, HasName s cust.id ps.name) ∧
    (CanonicalGraph ps ∨ ∃ cust ∈ findCustomer s.listCustomers cs, Holds s cust.id ps)

-- The name that an entry without a slug is looked up by is neither the name of another customer that an entry is
-- for, nor given to one.
def Unambiguous (s : Server) (spec : Spec) : Prop :=
  ∀ a ∈ spec.customers, a.slug = "" → ∀ b ∈ spec.customers,
    (trimSpace b.name ≠ a.name ∧ ∀ cust ∈ findCustomer s.listCustomers b, cust.name ≠ a.name) ∨
      b.name = a.name ∧ ForOne s a b

def Satisfies (s : Server) (cs : CustomerSpec) (e : Store.Keys.Customer) : Prop :=
  e.name = cs.name ∧ (s.toCustomer e).rateLimitItemsPerSec = cs.rateLimitItemsPerSec ∧
    (s.toCustomer e).retentionDays = cs.retentionDays ∧ ∀ ps ∈ cs.pipelines, Holds s e.id ps

theorem Server.WF.quietCustomer_iff (h : s.WF) :
    QuietCustomer c s.listCustomers s cs ↔ ∃ e, Matches s cs e ∧ Satisfies s cs e := by
  constructor
  · rintro ⟨cust, hf, hk, L, hL, hq⟩
    obtain ⟨e, he, rfl⟩ := h.findCustomer_eq_some.mp hf
    obtain ⟨hname, hlimit, hretention⟩ := updates_keys_eq_nil.mp hk
    exact ⟨e, he, hname, hlimit, hretention, fun ps hps => (h.quietPipeline_iff hL).mp (hq ps hps)⟩
  · rintro ⟨e, he, hname, hlimit, hretention, hholds⟩
    obtain ⟨L, hL⟩ := h.listPipelines_eq_ok.mpr ⟨e, he.mem, rfl, he.live⟩
    exact ⟨s.toCustomer e, h.findCustomer_eq_some.mpr ⟨e, he, rfl⟩, updates_keys_eq_nil.mpr ⟨hname, hlimit, hretention⟩,
      L, hL, fun ps hps => (h.quietPipeline_iff hL).mpr (hholds ps hps)⟩

namespace Settled

theorem forOne (h : Settled s₀ s log) (h₀ : s₀.WF) (ha : a ∈ log) (hb : b ∈ log) (hid : a.2.id = b.2.id) :
    ForOne s₀ a.1 b.1 := by
  obtain hfa | ⟨-, honly⟩ := h.target a ha
  · obtain hfb | ⟨-, honly⟩ := h.target b hb
    · rw [h₀.listCustomers_unique (h₀.mem_of_findCustomer hfa) (h₀.mem_of_findCustomer hfb) hid] at hfa
      exact .inr ⟨b.2, hfa, hfb⟩
    · exact .inl (congrArg (·.1) (honly a ha hid))
  · exact .inl (congrArg (·.1) (honly b hb hid.symm)).symm

theorem live (h : Settled s₀ s log) (h₀ : s₀.WF) (ha : a ∈ log) :
    a.2.status ≠ .deleted ∧ (a.1.slug ≠ "" → a.2.slug = a.1.slug) := by
  obtain hf | ⟨hnew, -⟩ := h.target a ha
  · obtain ⟨x, hx, hcust⟩ := h₀.findCustomer_eq_some.mp hf
    rw [← hcust]
    exact ⟨hx.live, hx.slug⟩
  · exact ⟨hnew.live, hnew.slug⟩

theorem row (h : Settled s₀ s log) (ha : a ∈ log) : ∃ e, Placed s₀ s (log.entriesFor a.2.id) a.2 e :=
  h.placed a.2 (List.mem_append_right _ (List.mem_map_of_mem ha))

-- The customer that the entry finds in the end is one that it has been applied to.
theorem target_of_matches {spec : Spec} (h : Settled s₀ s log) (h₀ : s₀.WF) (hspec : Unambiguous s₀ spec)
    (hlog : log.map (·.1) = spec.customers) (ha : a ∈ log) (he : Matches s a.1 e) :
    ∃ cust, (a.1, cust) ∈ log ∧ e.id = cust.id := by
  obtain ⟨d, hd⟩ := h.row ha
  have hmem {b : CustomerSpec × Customer} (hb : b ∈ log) : b.1 ∈ spec.customers := hlog ▸ List.mem_map_of_mem hb
  by_cases hslug : a.1.slug = ""
  case neg =>
    refine ⟨a.2, ha, ?_⟩
    have hs : e.slug = d.slug := (he.slug hslug).trans (hd.slug.trans ((h.live h₀ ha).right hslug)).symm
    rw [List.inj_on_of_nodup_map h.wf.slugs he.mem hd.mem hs, hd.id]
  case pos =>
    -- An entry that has given the customer its name, or found it by that name, is for the same customer.
    have hfor {b : CustomerSpec × Customer} (hb : b ∈ log) (hid : b.2.id = e.id)
        (hname : trimSpace b.1.name = e.name ∨ b.2.name = e.name) : ∃ cust, (a.1, cust) ∈ log ∧ e.id = cust.id := by
      rw [he.name hslug] at hname
      obtain ⟨htrim, hfound⟩ | ⟨-, hone⟩ := hspec a.1 (hmem ha) hslug b.1 (hmem hb)
      · obtain hname | hname := hname
        · exact absurd hname htrim
        · obtain hf | ⟨hnew, -⟩ := h.target b hb
          · exact absurd hname (hfound b.2 hf)
          · exact absurd (hnew.name.symm.trans hname) htrim
      · obtain hab | ⟨cust, hfa, hfb⟩ := hone
        · exact ⟨b.2, by rwa [hab], hid.symm⟩
        · refine ⟨cust, ?_, ?_⟩
          · obtain hf | ⟨hnew, -⟩ := h.target a ha
            · rw [← Option.some.inj (hf.symm.trans hfa)]
              exact ha
            · cases hnew.none.symm.trans hfa
          · obtain hf | ⟨hnew, -⟩ := h.target b hb
            · rw [← Option.some.inj (hf.symm.trans hfb), hid]
            · cases hnew.none.symm.trans hfb
    obtain ⟨cust, hcust, hid⟩ := h.rows e he.mem he.live
    obtain ⟨e', he'⟩ := h.placed cust hcust
    obtain rfl := h.wf.customer_unique he'.mem he.mem (he'.id.trans hid)
    by_cases htouched : ∃ b ∈ log, b.2.id = e'.id
    case pos =>
      obtain ⟨b, hb, hbid⟩ := htouched
      obtain hname | ⟨n, hn, hname⟩ := upshot_cases trimSpace cust.name ((log.entriesFor cust.id).map (·.name))
      · obtain rfl := h.known_unique h₀ hcust (List.mem_append_right _ (List.mem_map_of_mem hb)) (hid.trans hbid.symm)
        exact hfor hb hbid (.inr (hname.symm.trans he'.name.symm))
      · obtain ⟨cs', hcs', rfl⟩ := List.mem_map.mp hn
        obtain ⟨cust', hcust', hid'⟩ := Log.mem_entriesFor.mp hcs'
        exact hfor hcust' (hid'.trans hid) (.inl (hname.symm.trans he'.name.symm))
    case neg =>
      -- The customer has had the name before, and is not older than the one that was found then.
      have hnone : log.entriesFor cust.id = [] := by
        refine List.eq_nil_iff_forall_not_mem.mpr fun cs' hcs' => ?_
        obtain ⟨cust', hcust', hid'⟩ := Log.mem_entriesFor.mp hcs'
        exact htouched ⟨_, hcust', hid'.trans hid⟩
      have hname := he'.name
      rw [hnone, List.map_nil, he.name hslug] at hname
      obtain hcust | hcust := List.mem_append.mp hcust
      case inr =>
        obtain ⟨b, hb, rfl⟩ := List.mem_map.mp hcust
        exact absurd ⟨b, hb, hid⟩ htouched
      obtain ⟨x, hx, hlive, rfl⟩ := mem_listCustomers.mp hcust
      obtain ⟨m, hm, hf⟩ := h₀.exists_matches hslug hx hlive hname.symm
      obtain hfa | ⟨hnew, -⟩ := h.target a ha
      case inr => cases hnew.none.symm.trans hf
      have hcust : a.2 = s₀.toCustomer m := Option.some.inj (hfa.symm.trans hf)
      have hdn : d.name = a.1.name := by
        have hall : ∀ n ∈ (log.entriesFor a.2.id).map (·.name), n = a.1.name := by
          simp only [List.mem_map, forall_exists_index, and_imp, forall_apply_eq_imp_iff₂]
          intro cs' hcs'
          obtain ⟨cust', hcust', hid'⟩ := Log.mem_entriesFor.mp hcs'
          obtain ⟨-, hfound⟩ | ⟨hn, -⟩ := hspec a.1 (hmem ha) hslug cs' (hmem hcust')
          · obtain hsame | ⟨cust₁, hf₁, hf₂⟩ := h.forOne h₀ ha hcust' hid'.symm
            · exact congrArg (·.name) hsame.symm
            · rw [← Option.some.inj (hf.symm.trans hf₁)] at hf₂
              exact absurd (hm.name hslug) (hfound _ hf₂)
          · exact hn
        have hin : a.1.name ∈ (log.entriesFor a.2.id).map (·.name) :=
          List.mem_map_of_mem (Log.mem_entriesFor.mpr ⟨a.2, ha, rfl⟩)
        rw [hd.name, upshot_of_forall hin hall, if_pos (hcust ▸ hm.name hslug)]
      have hmd : m.id = d.id := by rw [hd.id, hcust]; rfl
      have hle := he.first hslug d hd.mem (hd.status ▸ (h.live h₀ ha).left) hdn
      have hge := hm.first hslug x hx hlive hname.symm
      have hage {b : Store.Keys.Customer} (hb : b ∈ s₀.accounts.customers) : s₀.age b.id = s.age b.id := by
        rw [Server.age, Server.age, h.createdAt b hb]
      rw [hage hm.mem, hage hx, hmd, show x.id = e'.id from hid] at hge
      exact ⟨a.2, ha, (congrArg (·.2) (toLex.injective (le_antisymm hle hge))).trans hd.id⟩

theorem keeps_iff (h : Settled s₀ s log) (h₀ : s₀.WF) (ha : a ∈ log) (ps : PipelineSpec) :
    Keeps s₀ a.2.id ps ↔
      (trimSpace ps.name = ps.name ∨ ∃ cust ∈ findCustomer s₀.listCustomers a.1, HasName s₀ cust.id ps.name) ∧
      (CanonicalGraph ps ∨ ∃ cust ∈ findCustomer s₀.listCustomers a.1, Holds s₀ cust.id ps) := by
  obtain hf | ⟨hnew, -⟩ := h.target a ha
  · simp [Keeps, hf]
  · have hname : ¬HasName s₀ a.2.id ps.name := by
      rintro ⟨p, hp, hid, _⟩
      obtain ⟨x, hx, hxid⟩ := h₀.owners p hp
      exact hnew.id x hx (hxid.trans hid)
    have hholds : ¬Holds s₀ a.2.id ps := by
      rintro ⟨p, hp, hid, hn, _⟩
      exact hname ⟨p, hp, hid, hn⟩
    simp [Keeps, hnew.none, hname, hholds]

theorem named_iff (h : Settled s₀ s log) (ha : a ∈ log) :
    trimSpace a.1.name = a.1.name ∨ Named s₀ a.1 ↔ trimSpace a.1.name = a.1.name ∨ a.2.name = a.1.name := by
  obtain hf | ⟨hnew, -⟩ := h.target a ha
  · simp [Named, hf]
  · simp [Named, hnew.none, hnew.name]

theorem keptEntry (h : Settled s₀ s log) (h₀ : s₀.WF) (hn : ∀ a ∈ log, ∀ ps ∈ a.1.pipelines, NoPasswords ps)
    (ha : a ∈ log) (he : Placed s₀ s (log.entriesFor a.2.id) a.2 e)
    (hsat : ∀ b ∈ log.entriesFor a.2.id, Satisfies s b e) : KeptEntry s₀ a.1 := by
  have hin : a.1 ∈ log.entriesFor a.2.id := Log.mem_entriesFor.mpr ⟨a.2, ha, rfl⟩
  have hname := (hsat a.1 hin).left
  refine ⟨(h.named_iff ha).mpr ?_, fun ps hps => (h.keeps_iff h₀ ha ps).mp ?_⟩
  · rw [← hname, he.name]
    obtain hold | ⟨n, -, hnew⟩ := upshot_cases trimSpace a.2.name ((log.entriesFor a.2.id).map (·.name))
    · exact .inr hold.symm
    · exact .inl (by rw [hnew, Strings.trimSpace_trimSpace])
  · have hpass : ∀ ps ∈ (log.entriesFor a.2.id).flatMap (·.pipelines), NoPasswords ps := by
      intro ps hps
      obtain ⟨b, hb, hps⟩ := List.mem_flatMap.mp hps
      obtain ⟨cust, hcust, -⟩ := Log.mem_entriesFor.mp hb
      exact hn (b, cust) hcust ps hps
    refine ((he.pipelines.holds_iff h.wf hpass).mp fun ps hps => ?_).left ps (List.mem_flatMap.mpr ⟨a.1, hin, hps⟩)
    obtain ⟨b, hb, hps⟩ := List.mem_flatMap.mp hps
    exact he.id ▸ (hsat b hb).right.right.right ps hps

theorem satisfies (h : Settled s₀ s log) (h₀ : s₀.WF) (hn : ∀ a ∈ log, ∀ ps ∈ a.1.pipelines, NoPasswords ps)
    (hkept : ∀ a ∈ log, KeptEntry s₀ a.1) (hagree : ∀ a ∈ log, ∀ b ∈ log, ForOne s₀ a.1 b.1 → Agree a.1 b.1)
    (ha : a ∈ log) (he : Placed s₀ s (log.entriesFor a.2.id) a.2 e) : Satisfies s a.1 e := by
  have hin : a.1 ∈ log.entriesFor a.2.id := Log.mem_entriesFor.mpr ⟨a.2, ha, rfl⟩
  have hall {b : CustomerSpec} (hb : b ∈ log.entriesFor a.2.id) : ∃ l ∈ log, l.1 = b ∧ l.2.id = a.2.id := by
    obtain ⟨cust, hcust, hid⟩ := Log.mem_entriesFor.mp hb
    exact ⟨(b, cust), hcust, rfl, hid⟩
  have hsame {α : Type} {f : CustomerSpec → α} (hf : ∀ a b, Agree a b → f a = f b) :
      ∀ v ∈ (log.entriesFor a.2.id).map f, v = f a.1 := by
    simp only [List.mem_map, forall_exists_index, and_imp, forall_apply_eq_imp_iff₂]
    intro b hb
    obtain ⟨l, hl, rfl, hid⟩ := hall hb
    exact hf _ _ (hagree l hl a ha (h.forOne h₀ hl ha hid))
  refine ⟨?_, ?_, ?_, fun ps hps => ?_⟩
  · rw [he.name, upshot_of_forall (List.mem_map_of_mem hin) (hsame fun _ _ => Agree.name)]
    split_ifs with hold
    · rfl
    · exact ((h.named_iff ha).mp (hkept a ha).name).resolve_right hold
  · rw [he.limit, upshot_of_forall (List.mem_map_of_mem hin) (hsame fun _ _ => Agree.limit), ite_self]
  · rw [he.retention, upshot_of_forall (List.mem_map_of_mem hin) (hsame fun _ _ => Agree.retention), ite_self]
  · rw [he.id]
    refine (he.pipelines.holds_iff h.wf ?_).mpr ⟨?_, ?_⟩ ps (List.mem_flatMap.mpr ⟨a.1, hin, hps⟩)
    · intro q hq
      obtain ⟨b, hb, hq⟩ := List.mem_flatMap.mp hq
      obtain ⟨l, hl, rfl, -⟩ := hall hb
      exact hn l hl q hq
    · intro q hq
      obtain ⟨b, hb, hq⟩ := List.mem_flatMap.mp hq
      obtain ⟨l, hl, rfl, hid⟩ := hall hb
      rw [← hid, h.keeps_iff h₀ hl]
      exact (hkept l hl).pipelines q hq
    · intro p hp q hq
      obtain ⟨b, hb, hp⟩ := List.mem_flatMap.mp hp
      obtain ⟨b', hb', hq⟩ := List.mem_flatMap.mp hq
      obtain ⟨l, hl, rfl, hid⟩ := hall hb
      obtain ⟨l', hl', rfl, hid'⟩ := hall hb'
      exact (hagree l hl l' hl' (h.forOne h₀ hl hl' (hid.trans hid'.symm))).pipelines p hp q hq

end Settled

end Again

section Sample

def sampleDraw (n : Nat) : Draw where
  customer attempt := {
    customerID := 10 * n + attempt
    keyID := 10 * n + attempt
    clientBytes := .replicate 4 (.ofNat n)
    keyBytes := { lookup := .replicate 4 0, secret := .replicate 32 0 } }
  now := n
  fresh := {
    pipelineID := 100 + n
    versionID := 200 + n
    rnd := { nonce := fun _ => .error "", exampleKey := fun _ => "" } }
  outside := {
    distributor := fun _ => .ok { state := "applied", detail := "" }
    notifier := fun _ => none
    edgeAgents := fun _ => (0, 0) }

def sampleClient : Client where
  service := { cipher := none, binPath := "" }
  user := none
  draws := sampleDraw

def Server.empty : Server where
  accounts := { customers := [], keys := [] }
  retentionDays _ := none
  createdAt _ := 0
  users := []
  pipelines := []
  versions := []

theorem Server.empty_wf : Server.empty.WF where
  db := ⟨.nil, .nil, nofun, nofun, nofun⟩
  customerIDs := .nil
  slugs := .nil
  named := nofun
  owners := nofun
  names := nofun

def backup (processors : Option (List Pipelines.Node)) : PipelineSpec where
  name := "Backup"
  graph := .ok {
    signals := some ["logs"]
    processors := processors
    exporters := some [{ type := "debug", config := none }] }

def backupSpec (processors : Option (List Pipelines.Node)) : Spec where
  customers := [{ name := "Acme", slug := "acme", pipelines := [backup processors] }]

theorem noPasswords_of_forall [Runtime] {spec : Spec}
    (h : ∀ cs ∈ spec.customers, ∀ ps ∈ cs.pipelines, ∀ gr ∈ ps.graph.toOption.bind fromAPIGraph, gr.secrets = []) :
    ∀ cs ∈ spec.customers, ∀ ps ∈ cs.pipelines, NoPasswords ps := by
  intro cs hcs ps hps g hg gr hgr
  exact h cs hcs ps hps gr (by rw [hg]; exact hgr)

theorem mem_toOption {x : Except ε α} : a ∈ x.toOption ↔ x = .ok a := by
  cases x <;> simp [Except.toOption]

def Server.acme : Server :=
  { Server.empty with
    accounts := {
      customers := [{
        id := 1, slug := "acme", name := "Acme", clientID := "acme", status := .active, rateLimitItemsPerSec := none }]
      keys := [] } }

theorem Server.acme_wf : Server.acme.WF where
  db := ⟨.nil, .nil, nofun, nofun, nofun⟩
  customerIDs := List.nodup_singleton _
  slugs := List.nodup_singleton _
  named := List.forall_mem_singleton.mpr (by decide)
  owners := nofun
  names := nofun

-- The customer is named twice, by its slug and by its name, and one of its pipelines as well.
def twiceSpec : Spec where
  customers := [
    { name := "Acme", slug := "acme", pipelines := [backup (some [])] },
    { name := "Acme", pipelines := [backup (some []), { backup (some []) with name := "Copy" }] }]

theorem twiceSpec_canonical :
    letI := Runtime.sample
    ∀ cs ∈ twiceSpec.customers, trimSpace cs.name = cs.name ∧
      ∀ ps ∈ cs.pipelines, trimSpace ps.name = ps.name ∧ ∃ g ∈ ps.graph.toOption, Canonical g := by
  decide +kernel

end Sample

end Otelfleetctl
