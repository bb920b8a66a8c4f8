import OtelFleet.Otelfleetctl.Theorems.Graphs
import OtelFleet.Otelfleetctl.Apply
import OtelFleet.Store.Theorems.History

open Store (UUID PipelineRow VersionRow DB)
open Pipelines (Document)

-- What the tool sees of the tables.
namespace Otelfleetctl

-- The tables are well formed. Slugs are never empty, and no customer has two pipelines of one name.
structure Server.WF (s : Server) : Prop where
  db : s.db.WF
  customerIDs : (s.accounts.customers.map (·.id)).Nodup
  slugs : (s.accounts.customers.map (·.slug)).Nodup
  named : ∀ c ∈ s.accounts.customers, c.slug ≠ ""
  owners : ∀ p ∈ s.pipelines, ∃ c ∈ s.accounts.customers, c.id = p.customerID
  names : ∀ p ∈ s.pipelines, ∀ q ∈ s.pipelines, p.customerID = q.customerID → p.name = q.name → p = q

structure Current (s : Server) (p : PipelineRow) (v : VersionRow) : Prop where
  mem : v ∈ s.versions
  owner : v.pipelineID = p.id
  current : p.activeVersionID = some v.id ∨
    p.activeVersionID = none ∧ ∀ w ∈ s.versions, w.pipelineID = p.id → w.version ≤ v.version

def Live (s : Server) (id : UUID) : Prop :=
  ∃ c ∈ s.accounts.customers, c.id = id ∧ c.status ≠ .deleted

section Reading

variable [Runtime]

def readDocument (doc : Document) : Option PipelineGraph :=
  match Pipelines.parseGraph doc with
  | .ok g => toAPIGraph (Pipelines.redactGraphSecrets g)
  | .error _ => none

def Holds (s : Server) (id : UUID) (ps : PipelineSpec) : Prop :=
  ∃ p ∈ s.pipelines, p.customerID = id ∧ p.name = ps.name ∧
    ∃ v, Current s p v ∧ ∃ g, readDocument v.graph = some g ∧ graphEqual g ps.graph

end Reading

section Customers

variable {s : Server}

theorem Server.WF.customer?_eq (h : s.WF) (hc : c ∈ s.accounts.customers) :
    s.db.customer? c.id = some c.toCustomer := by
  have hids : (s.db.customers.map (·.id)).Nodup := by
    rw [Server.db, List.map_map]
    exact h.customerIDs
  refine Assoc.find?_unique (fun d hd hid => ?_) (List.mem_map_of_mem hc) (by simp)
  exact List.inj_on_of_nodup_map hids hd (List.mem_map_of_mem hc) (by simpa using hid)

theorem Server.WF.getCustomer_eq (h : s.WF) (hc : c ∈ s.accounts.customers)
    (hlive : c.status ≠ .deleted) : s.db.getCustomer c.id = .ok c.toCustomer := by
  rw [DB.getCustomer, h.customer?_eq hc, Option.filter_some, if_pos (by simpa using hlive)]
  rfl

theorem live_of_getCustomer {id : UUID} (hg : s.db.getCustomer id = .ok cust) : Live s id := by
  unfold DB.getCustomer at hg
  cases hf : s.db.customer? id
  case none =>
    rw [hf] at hg
    cases hg
  case some d =>
    rw [hf, Option.filter_some] at hg
    split_ifs at hg with hs
    · obtain ⟨c, hc, rfl⟩ := List.mem_map.mp (List.mem_of_find?_eq_some hf)
      exact ⟨c, hc, by simpa using List.find?_some hf, by simpa using hs⟩
    · cases hg

theorem Server.WF.customer_unique (h : s.WF) (hc : c ∈ s.accounts.customers)
    (hd : d ∈ s.accounts.customers) (hid : c.id = d.id) : c = d :=
  List.inj_on_of_nodup_map h.customerIDs hc hd hid

end Customers

section Versions

theorem Server.WF.exists_current (h : s.WF) (hp : p ∈ s.pipelines) : ∃ v, Current s p v := by
  cases ha : p.activeVersionID
  case some id =>
    obtain ⟨v, hv, hid, howner, _⟩ := h.db.active p hp id ha
    exact ⟨v, hv, howner, .inl (by rw [ha, hid])⟩
  case none =>
    obtain ⟨k, hk, _, hperm⟩ := h.db.latest_eq hp
    have hlast : k ∈ (s.db.versionsOf p.id).map (·.version) :=
      hperm.mem_iff.mpr (by simp only [List.mem_range'_1]; omega)
    obtain ⟨v, hv, rfl⟩ := List.mem_map.mp hlast
    obtain ⟨hm, howner⟩ := DB.mem_versionsOf.mp hv
    refine ⟨v, hm, howner, .inr ⟨ha, fun w hw hwp => ?_⟩⟩
    have hw : w.version ∈ (s.db.versionsOf p.id).map (·.version) :=
      List.mem_map_of_mem (DB.mem_versionsOf.mpr ⟨hw, hwp⟩)
    have := hperm.mem_iff.mp hw
    simp only [List.mem_range'_1] at this
    omega

theorem Current.unique (h : s.WF) (hv : Current s p v) (hw : Current s p w) : v = w := by
  obtain ha | ⟨ha, hle⟩ := hv.current <;> obtain hb | ⟨hb, hle'⟩ := hw.current
  · exact List.inj_on_of_nodup_map h.db.versionIDs hv.mem hw.mem (Option.some.inj (ha.symm.trans hb))
  · cases ha.symm.trans hb
  · cases ha.symm.trans hb
  · exact h.db.version_unique hv.mem hw.mem (hv.owner.trans hw.owner.symm)
      (le_antisymm (hle' v hv.mem hv.owner) (hle w hw.mem hw.owner))

theorem Current.number (h : s.WF) (hv : Current s p v) :
    ((p.activeVersionID.bind s.db.version?).map (·.version)).or (s.db.latest p.id) = some v.version := by
  obtain ha | ⟨ha, hle⟩ := hv.current
  · rw [ha, Option.bind_some, h.db.version?_eq hv.mem]
    rfl
  · rw [ha, Option.bind_none, Option.map_none, Option.none_or]
    refine List.max?_eq_some_iff.mpr ⟨?_, fun n hn => ?_⟩
    · exact List.mem_map_of_mem (DB.mem_versionsOf.mpr ⟨hv.mem, hv.owner⟩)
    · obtain ⟨w, hw, rfl⟩ := List.mem_map.mp hn
      obtain ⟨hw, hwp⟩ := DB.mem_versionsOf.mp hw
      exact hle w hw hwp

end Versions

section Pipelines

variable {s : Server}

def Server.view (s : Server) (p : PipelineRow) (c : Store.Customer) : Api.Pipeline where
  id := p.id
  customerID := p.customerID
  customerName := c.name
  name := p.name
  targetClass := p.targetClass
  activeVersion := (p.activeVersionID.bind s.db.version?).map (·.version)
  latestVersion := s.db.latest p.id

theorem Current.currentVersion_view (h : s.WF) (hv : Current s p v)
    (c : Store.Customer) : currentVersion (s.view p c) = some v.version :=
  hv.number h

theorem Server.WF.listPipelines_eq_ok (h : s.WF) {id : UUID} : (∃ L, s.listPipelines id = .ok L) ↔ Live s id := by
  constructor
  · rintro ⟨L, hL⟩
    unfold Server.listPipelines at hL
    split at hL
    case _ => cases hL
    case _ => cases hL
    case _ hg => exact live_of_getCustomer hg
  · rintro ⟨c, hc, rfl, hlive⟩
    rw [Server.listPipelines, h.getCustomer_eq hc hlive]
    exact ⟨_, rfl⟩

theorem Server.WF.mem_listPipelines (h : s.WF) {id : UUID} (hL : s.listPipelines id = .ok L)
    : P ∈ L ↔ ∃ p ∈ s.pipelines, p.customerID = id ∧
      ∃ c ∈ s.accounts.customers, c.id = id ∧ P = s.view p c.toCustomer := by
  obtain ⟨c, hc, rfl, hlive⟩ := h.listPipelines_eq_ok.mp ⟨L, hL⟩
  have hcust := h.customer?_eq hc
  rw [Server.listPipelines, h.getCustomer_eq hc hlive] at hL
  cases hL
  simp only [DB.listPipelines, List.mem_map, List.mem_insertionSort, List.mem_filterMap, List.mem_filter,
    decide_eq_true_eq, Option.all_some]
  have hview {p : PipelineRow} (hid : p.customerID = c.id) :
      ∃ q, s.db.readPipeline p = some q ∧ Api.toPipeline q = s.view p c.toCustomer := by
    have hcust : s.db.customer? p.customerID = some c.toCustomer := hid ▸ hcust
    rw [DB.readPipeline, hcust]
    exact ⟨_, rfl, rfl⟩
  constructor
  · rintro ⟨q, ⟨p, ⟨hp, _, hid⟩, hr⟩, rfl⟩
    obtain ⟨q', hr', hv⟩ := hview hid.symm
    cases hr.symm.trans hr'
    exact ⟨p, hp, hid.symm, c, hc, rfl, hv⟩
  · rintro ⟨p, hp, hid, d, hd, hdid, rfl⟩
    obtain rfl := h.customer_unique hd hc hdid
    obtain ⟨q, hr, hv⟩ := hview hid
    refine ⟨q, ⟨p, ⟨hp, ?_, hid.symm⟩, hr⟩, hv⟩
    rw [hid, hcust]
    simpa using hlive

theorem Server.WF.find?_pipeline (h : s.WF) {id : UUID} (hL : s.listPipelines id = .ok L)
    : L.reverse.find? (·.name = name) = some P ↔ P ∈ L ∧ P.name = name := by
  constructor
  · intro hf
    exact ⟨List.mem_reverse.mp (List.mem_of_find?_eq_some hf), by simpa using List.find?_some hf⟩
  · rintro ⟨hP, hname⟩
    refine Assoc.find?_unique (fun Q hQ hn => ?_) (List.mem_reverse.mpr hP) (by simpa using hname)
    obtain ⟨p, hp, hid, c, hc, hcid, rfl⟩ := (h.mem_listPipelines hL).mp hP
    obtain ⟨q, hq, hqid, d, hd, hdid, rfl⟩ := (h.mem_listPipelines hL).mp (List.mem_reverse.mp hQ)
    obtain rfl := h.names q hq p hp (hqid.trans hid.symm) ((of_decide_eq_true hn : q.name = name).trans hname.symm)
    obtain rfl := h.customer_unique hd hc (hdid.trans hcid.symm)
    rfl

theorem Server.WF.find?_pipeline_eq_none (h : s.WF) {id : UUID} (hL : s.listPipelines id = .ok L) :
    L.reverse.find? (·.name = name) = none ↔ ∀ p ∈ s.pipelines, p.customerID = id → p.name ≠ name := by
  simp only [List.find?_eq_none, List.mem_reverse, decide_eq_true_eq]
  obtain ⟨c, hc, rfl, _⟩ := h.listPipelines_eq_ok.mp ⟨L, hL⟩
  constructor
  · exact fun hn p hp hid => hn _ ((h.mem_listPipelines hL).mpr ⟨p, hp, hid, c, hc, rfl, rfl⟩)
  · intro hn P hP
    obtain ⟨p, hp, hid, _, _, _, rfl⟩ := (h.mem_listPipelines hL).mp hP
    exact hn p hp hid

variable [Runtime] {c : Client}

omit [Runtime] in
theorem requirePipelineAccess_principal (db : DB) (id : UUID) :
    Api.requirePipelineAccess c.principal db id = true := by
  unfold Api.requirePipelineAccess
  split <;> rfl

theorem Server.WF.getPipelineVersion_eq_ok (h : s.WF) (hv : v ∈ s.versions) :
    s.getPipelineVersion c v.pipelineID v.version = .ok g ↔ readDocument v.graph = some g := by
  obtain ⟨w, hw, rfl⟩ := h.db.getPipelineVersion_eq hv
  rw [Server.getPipelineVersion, Api.getPipelineVersion, requirePipelineAccess_principal, hw]
  simp only [Bool.not_true, Bool.false_eq_true, if_false, Api.versionResponse, Api.toVersion, readDocument]
  cases hp : Pipelines.parseGraph w.graph
  case error e => simp [Api.internalError]
  case ok gr =>
    simp only [Server.readGraph]
    cases toAPIGraph (Pipelines.redactGraphSecrets gr) <;> simp

theorem Server.WF.unchanged_eq_ok (h : s.WF) {v : VersionRow} (hv : v ∈ s.versions) {P : Api.Pipeline}
    (hid : v.pipelineID = P.id) (hn : currentVersion P = some v.version) {ps : PipelineSpec} {b : Bool} :
    unchanged c s P ps = .ok b ↔ ∃ g, readDocument v.graph = some g ∧ graphEqual g ps.graph = b := by
  have hread {g : PipelineGraph} : s.getPipelineVersion c P.id v.version = .ok g ↔ _ :=
    hid ▸ h.getPipelineVersion_eq_ok hv
  simp only [unchanged, hn, ← hread]
  cases s.getPipelineVersion c P.id v.version <;> simp

end Pipelines

end Otelfleetctl
