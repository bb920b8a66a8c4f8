import OtelFleet.Otelfleetctl.Theorems.Quiet
import OtelFleet.Otelfleetctl.Theorems.Server
import OtelFleet.Pipelines.Theorems.Activation
import OtelFleet.Pipelines.Theorems.Predecessor

open Store (UUID DB PipelineRow VersionRow NewPipelineVersion)
open Pipelines (Graph prepare marshalGraph create)

-- What a run does to the pipelines of a customer.
namespace Otelfleetctl

structure Same (K : UUID → String → Prop) (s s' : Server) : Prop where
  rows : ∀ p : PipelineRow, K p.customerID p.name → (p ∈ s'.pipelines ↔ p ∈ s.pipelines)
  versions : ∀ p ∈ s.pipelines, K p.customerID p.name →
    ∀ v : VersionRow, v.pipelineID = p.id → (v ∈ s'.versions ↔ v ∈ s.versions)

namespace Same

theorem refl (K : UUID → String → Prop) (s : Server) : Same K s s where
  rows := fun _ _ => Iff.rfl
  versions := fun _ _ _ _ _ => Iff.rfl

theorem trans (h : Same K s s') (h' : Same K s' s'') : Same K s s'' where
  rows := fun p hp => (h'.rows p hp).trans (h.rows p hp)
  versions := fun p hp hK v hv => (h'.versions p ((h.rows p hK).mpr hp) hK v hv).trans (h.versions p hp hK v hv)

theorem mono (h : Same K s s') (hK : ∀ id name, K' id name → K id name) : Same K' s s' where
  rows := fun p hp => h.rows p (hK _ _ hp)
  versions := fun p hp hp' => h.versions p hp (hK _ _ hp')

theorem of_none (h : ∀ p ∈ s.pipelines, ¬K p.customerID p.name) (h' : ∀ p ∈ s'.pipelines, ¬K p.customerID p.name) :
    Same K s s' where
  rows := fun p hK => iff_of_false (fun hp => h' p hp hK) fun hp => h p hp hK
  versions := fun p hp hK => absurd hK (h p hp)

theorem current (h : Same K s s') (hp : p ∈ s.pipelines) (hK : K p.customerID p.name)
    (hv : Current s p v) : Current s' p v := by
  obtain ⟨hm, ho, hc⟩ := hv
  refine ⟨(h.versions p hp hK v ho).mpr hm, ho, hc.imp_right fun ⟨ha, hle⟩ => ⟨ha, fun w hw hwp => ?_⟩⟩
  exact hle w ((h.versions p hp hK w hwp).mp hw) hwp

theorem symm (h : Same K s s') : Same K s' s where
  rows := fun p hp => (h.rows p hp).symm
  versions := fun p hp hK v hv => (h.versions p ((h.rows p hK).mp hp) hK v hv).symm

theorem holds [Runtime] (h : Same K s s') {id : UUID} (hK : K id ps.name) (hs : Holds s id ps) : Holds s' id ps := by
  obtain ⟨p, hp, rfl, hn, v, hv, hg⟩ := hs
  rw [← hn] at hK
  exact ⟨p, (h.rows p hK).mpr hp, rfl, hn, v, h.current hp hK hv, hg⟩

end Same

theorem Server.WF.quietPipeline_iff [Runtime] {c : Client} {s : Server} (h : s.WF) {id : UUID} {L : List Api.Pipeline}
    (hL : s.listPipelines id = .ok L) {ps : PipelineSpec} : QuietPipeline c L s ps ↔ Holds s id ps := by
  constructor
  · rintro ⟨P, hf, hu⟩
    obtain ⟨hP, hn⟩ := (h.find?_pipeline hL).mp hf
    obtain ⟨p, hp, hid, d, _, _, rfl⟩ := (h.mem_listPipelines hL).mp hP
    obtain ⟨v, hv⟩ := h.exists_current hp
    exact ⟨p, hp, hid, hn, v, hv, (h.unchanged_eq_ok hv.mem hv.owner (hv.currentVersion_view h _)).mp hu⟩
  · rintro ⟨p, hp, hid, hn, v, hv, hg⟩
    obtain ⟨d, hd, hdid, _⟩ := h.listPipelines_eq_ok.mp ⟨L, hL⟩
    have hP : s.view p d.toCustomer ∈ L := (h.mem_listPipelines hL).mpr ⟨p, hp, hid, d, hd, hdid, rfl⟩
    exact ⟨_, (h.find?_pipeline hL).mpr ⟨hP, hn⟩, (h.unchanged_eq_ok hv.mem hv.owner (hv.currentVersion_view h _)).mpr hg⟩

section Insertions

variable {s : Server}

theorem Server.put_put (s : Server) (db db' : DB) : (s.put db).put db' = s.put db' :=
  rfl

structure Inserted (s : Server) (db : DB) (p : PipelineRow) (v : VersionRow) : Prop where
  wf : (s.put db).WF
  mem : p ∈ db.pipelines
  rows : ∀ q, q ≠ p → (q ∈ db.pipelines ↔ q ∈ s.pipelines)
  versions : db.versions = s.versions ++ [v]
  owner : v.pipelineID = p.id

theorem Server.WF.put_db (h : s.WF) {db : DB} (hdb : db.WF)
    (howners : ∀ p ∈ db.pipelines, ∃ c ∈ s.accounts.customers, c.id = p.customerID)
    (hnames : ∀ p ∈ db.pipelines, ∀ q ∈ db.pipelines, p.customerID = q.customerID → p.name = q.name → p = q) :
    (s.put db).WF where
  db := ⟨hdb.pipelineIDs, hdb.versionIDs, hdb.owned, hdb.numbered, hdb.active⟩
  customerIDs := h.customerIDs
  slugs := h.slugs
  named := h.named
  owners := howners
  names := hnames

theorem Server.WF.createPipeline (h : s.WF) {db : DB}
    (hc : s.db.createPipeline n nv = .ok db) (howner : ∃ c ∈ s.accounts.customers, c.id = n.customerID) :
    Inserted s db n.row (nv.row 1) := by
  obtain ⟨hname, hid, hv⟩ := DB.createPipeline_eq_ok hc
  have hpid := DB.createPipeline_latest h.db hv
  obtain ⟨_, _, _, hdb⟩ := DB.insertPipelineVersion_eq_ok hv
  have hrows : db.pipelines = s.pipelines ++ [n.row] := hdb ▸ rfl
  have hmem {p : PipelineRow} : p ∈ db.pipelines ↔ p ∈ s.pipelines ∨ p = n.row := by simp [hrows]
  refine ⟨h.put_db (h.db.createPipeline hc) ?_ ?_, hmem.mpr (.inr rfl), ?_, hdb ▸ rfl, hpid⟩
  · intro p hp
    obtain hp | rfl := hmem.mp hp
    exacts [h.owners p hp, howner]
  · intro p hp q hq hcust hn
    obtain hp | rfl := hmem.mp hp <;> obtain hq | rfl := hmem.mp hq
    · exact h.names p hp q hq hcust hn
    · exact absurd hn (hname p hp hcust)
    · exact absurd hn.symm (hname q hq hcust.symm)
    · rfl
  · intro q hq
    simp [hmem, hq]

theorem Server.WF.createPipelineVersion (h : s.WF) {db : DB}
    (hc : s.db.createPipelineVersion nv = .ok db) (hp : p ∈ s.pipelines) (hid : p.id = nv.pipelineID) :
    ∃ n, Inserted s db p (nv.row n) := by
  have hv := DB.createPipelineVersion_eq_ok hc
  obtain ⟨_, _, _, hdb⟩ := DB.insertPipelineVersion_eq_ok hv
  have hrows : db.pipelines = s.pipelines := hdb ▸ rfl
  have hvers : db.versions = s.versions ++ [nv.row ((s.db.latest nv.pipelineID).getD 0 + 1)] := hdb ▸ rfl
  refine ⟨_, h.put_db (h.db.insertPipelineVersion hv) ?_ ?_, hrows ▸ hp, fun q _ => hrows ▸ Iff.rfl, hvers, hid.symm⟩
  · exact hrows ▸ h.owners
  · exact hrows ▸ h.names

-- Pipelines keep their ids and names, and versions stay as they are.
structure Grows (s s' : Server) : Prop where
  rows : ∀ p ∈ s.pipelines, ∃ q ∈ s'.pipelines, q.id = p.id ∧ q.customerID = p.customerID ∧ q.name = p.name
  versions : ∀ v ∈ s.versions, v ∈ s'.versions

theorem Grows.refl (s : Server) : Grows s s :=
  ⟨fun p hp => ⟨p, hp, rfl, rfl, rfl⟩, fun _ hv => hv⟩

theorem Grows.trans (h : Grows s s') (h' : Grows s' s'') : Grows s s'' where
  rows p hp := by
    obtain ⟨q, hq, hid, hcust, hname⟩ := h.rows p hp
    obtain ⟨q', hq', hid', hcust', hname'⟩ := h'.rows q hq
    exact ⟨q', hq', hid'.trans hid, hcust'.trans hcust, hname'.trans hname⟩
  versions v hv := h'.versions v (h.versions v hv)

structure Written (s s' : Server) (p : PipelineRow) (v : VersionRow) : Prop where
  wf : s'.WF
  grows : Grows s s'
  others : ∃ db, s' = s.put db
  mem : p ∈ s'.pipelines
  current : Current s' p v
  same : Same (fun id name => ¬(id = p.customerID ∧ name = p.name)) s s'

theorem Inserted.version?_eq (h : Inserted s db p v) : db.version? v.id = some v :=
  h.wf.db.version?_eq (show v ∈ db.versions by simp [h.versions])

theorem Inserted.activate (h : Inserted s db p v)
    (ha : (s.put db).db.activatePipelineVersion p.id v.version = .ok db') :
    Written s (s.put db') { p with activeVersionID := some v.id } v := by
  have hwf := h.wf.db
  have hv : v ∈ db.versions := by simp [h.versions]
  have hunique {q : PipelineRow} (hq : q ∈ db.pipelines) (hid : q.id = p.id) : q = p :=
    List.inj_on_of_nodup_map hwf.pipelineIDs hq h.mem hid
  obtain ⟨w, hw, hwp, hwn, _, hdb⟩ := DB.activatePipelineVersion_eq_ok ha
  obtain rfl : w = v := hwf.version_unique hw hv (hwp.trans h.owner.symm) hwn
  have hkeys {q : PipelineRow} (hq : q ∈ db'.pipelines) :
      ∃ q₀ ∈ db.pipelines, q₀.customerID = q.customerID ∧ q₀.name = q.name ∧
        q = if q₀.id = p.id then { q₀ with activeVersionID := some w.id } else q₀ := by
    rw [hdb] at hq
    obtain ⟨q₀, hq₀, rfl⟩ := List.mem_map.mp hq
    refine ⟨q₀, hq₀, ?_, ?_, rfl⟩ <;> split_ifs <;> rfl
  have hvers : db'.versions = s.versions ++ [w] := hdb ▸ h.versions
  refine ⟨h.wf.put_db (hwf.activatePipelineVersion ha) ?_ ?_, ⟨fun q hq => ?_, fun u hu => ?_⟩, ⟨db', rfl⟩, ?_,
    ⟨hdb ▸ hv, h.owner, .inl rfl⟩, ?_, ?_⟩
  · intro q hq
    obtain ⟨q₀, hq₀, hcust, _⟩ := hkeys hq
    exact hcust ▸ h.wf.owners q₀ hq₀
  · intro q hq q' hq' hcust hname
    obtain ⟨q₀, hq₀, hc, hn, rfl⟩ := hkeys hq
    obtain ⟨q₁, hq₁, hc', hn', rfl⟩ := hkeys hq'
    obtain rfl := h.wf.names q₀ hq₀ q₁ hq₁ (hc.trans (hcust.trans hc'.symm)) (hn.trans (hname.trans hn'.symm))
    rfl
  · have hq : q ∈ db.pipelines := by
      by_cases hqp : q = p
      exacts [hqp ▸ h.mem, (h.rows q hqp).mpr hq]
    refine ⟨if q.id = p.id then { q with activeVersionID := some w.id } else q, hdb ▸ List.mem_map_of_mem hq, ?_⟩
    split_ifs <;> exact ⟨rfl, rfl, rfl⟩
  · simp [Server.put, hvers, hu]
  · exact hdb ▸ List.mem_map.mpr ⟨p, h.mem, if_pos rfl⟩
  · intro q hK
    have hne : q ≠ p := by
      rintro rfl
      exact hK ⟨rfl, rfl⟩
    rw [← h.rows q hne]
    constructor
    · intro hq
      obtain ⟨q₀, hq₀, hcust, hname, he⟩ := hkeys hq
      split_ifs at he with hid
      · obtain rfl := hunique hq₀ hid
        exact absurd ⟨hcust.symm, hname.symm⟩ hK
      · exact he ▸ hq₀
    · intro hq
      have hid : q.id ≠ p.id := fun hid => hne (hunique hq hid)
      exact hdb ▸ List.mem_map.mpr ⟨q, hq, if_neg hid⟩
  · intro q hq hK u hu
    have hne : q ≠ p := by
      rintro rfl
      exact hK ⟨rfl, rfl⟩
    have huw : u ≠ w := by
      rintro rfl
      exact hne (hunique ((h.rows q hne).mpr hq) (hu.symm.trans h.owner))
    simp [Server.put, hvers, huw]

end Insertions

section Calls

variable [Runtime] {s : Server}

omit [Runtime] in
theorem encryptGraphSecrets_noSecrets
    (h : Pipelines.encryptGraphSecrets g cipher rnd prev = .ok out) (hg : g.secrets = []) : out = g := by
  rw [(Pipelines.encryptGraphSecrets_eq_ok.mp h).right]
  exact Graph.mapSecrets_id (by simp [hg])

theorem prepare_graph (h : prepare svc cand active = .ok (.version nv res))
    (hg : cand.graph.secrets = []) : nv.graph = marshalGraph cand.graph := by
  obtain ⟨stored, _, _, henc, _, _, _, hgraph, _⟩ := Pipelines.prepare_eq_version h
  rw [hgraph, encryptGraphSecrets_noSecrets henc hg]

def Carries (v : VersionRow) (ps : PipelineSpec) : Prop :=
  ∃ g gr, ps.graph = .ok g ∧ fromAPIGraph g = some gr ∧ (gr.secrets = [] → v.graph = marshalGraph gr)

theorem body_eq_ok (h : Server.body graph = .ok gr) : ∃ g, graph = .ok g ∧ fromAPIGraph g = some gr := by
  cases graph
  case error e => cases h
  case ok g =>
    refine ⟨g, rfl, ?_⟩
    simp only [Server.body] at h
    cases hg : fromAPIGraph g
    case none =>
      rw [hg] at h
      cases h
    case some g' =>
      rw [hg] at h
      exact congrArg some (Except.ok.inj h)

theorem createPipeline_id (hr : Api.createPipeline svc db who a = .pipeline status P)
    (hc : create svc db a = .ok (.stored db')) : P.id = a.pipelineID := by
  simp only [Api.createPipeline, hc] at hr
  split_ifs at hr
  · cases hr
  · split at hr
    case _ => cases hr
    case _ pipe hg =>
      cases hr
      obtain ⟨p, hp, _⟩ := DB.getPipeline_eq_ok hg
      rw [Api.toPipeline, ← (DB.getPipeline_row hg hp).left]
      exact (DB.mem_of_pipeline? hp).right

theorem createPipelineVersion_number (hr : Api.createPipelineVersion svc db who a = .version status v)
    (hc : Pipelines.createVersion svc db a = .ok (.stored db'))
    (hrow : db'.version? a.versionID = some row) : v.version = row.version := by
  simp only [Api.createPipelineVersion, hc, Api.savedResponse] at hr
  split_ifs at hr
  · cases hr
  · split at hr
    case _ => cases hr
    case _ w hw =>
      rw [DB.versionByID, hrow, Option.bind_some] at hw
      obtain ⟨p, _, rfl⟩ := Option.map_eq_some_iff.mp hw
      unfold Api.versionResponse Api.toVersion at hr
      split at hr
      case _ => cases hr
      case _ out ho =>
        split at ho
        case _ => cases ho
        case _ =>
          cases ho
          cases hr
          rfl

theorem Server.WF.createPipeline_eq_ok (h : s.WF) {id : UUID} (hid : ∃ c ∈ s.accounts.customers, c.id = id)
    {cls : String} (hc : (s.createPipeline c d id ps.name cls ps.graph).1 = .ok P) :
    ∃ db p v, (s.createPipeline c d id ps.name cls ps.graph).2 = s.put db ∧ Inserted s db p v ∧
      p.id = P.id ∧ p.customerID = id ∧ p.name = Strings.trimSpace ps.name ∧ v.version = 1 ∧ Carries v ps := by
  generalize hres : s.createPipeline c d id ps.name cls ps.graph = res at hc ⊢
  unfold Server.createPipeline at hres
  split at hres
  case _ =>
    subst hres
    cases hc
  case _ =>
    subst hres
    cases hc
  case _ gr cls' hb hcls =>
    obtain ⟨g, hgraph, hg⟩ := body_eq_ok hb
    dsimp only at hres
    split at hres
    case _ status q db hresp hcreate =>
      subst hres
      cases hc
      obtain ⟨cust, nv, res, hprep, hdb⟩ := Pipelines.create_prepared hcreate
      have hins := h.createPipeline hdb hid
      exact ⟨db, _, _, rfl, hins, (createPipeline_id hresp hcreate).symm, rfl, rfl, rfl, g, gr, hgraph, hg,
        fun hs => prepare_graph hprep hs⟩
    case _ =>
      subst hres
      cases hc

theorem Server.WF.createPipelineVersion_eq_ok (h : s.WF) (hp : p ∈ s.pipelines) {ps : PipelineSpec}
    (hc : (s.createPipelineVersion c d p.id ps.graph).1 = .ok n) :
    ∃ db v, (s.createPipelineVersion c d p.id ps.graph).2 = s.put db ∧ Inserted s db p v ∧ v.version = n ∧
      Carries v ps := by
  generalize hres : s.createPipelineVersion c d p.id ps.graph = res at hc ⊢
  unfold Server.createPipelineVersion at hres
  split at hres
  case _ =>
    subst hres
    cases hc
  case _ gr hb =>
    obtain ⟨g, hgraph, hg⟩ := body_eq_ok hb
    dsimp only at hres
    split at hres
    case _ status v db hresp hcreate =>
      subst hres
      obtain ⟨pipe, prev, nv, res, hprep, hdb⟩ := Pipelines.createVersion_prepared hcreate
      obtain ⟨k, hins⟩ := h.createPipelineVersion hdb hp rfl
      have hnum := createPipelineVersion_number hresp hcreate (Pipelines.prepare_versionID hprep ▸ hins.version?_eq)
      refine ⟨db, _, rfl, hins, ?_, g, gr, hgraph, hg, fun hs => prepare_graph hprep hs⟩
      cases hr : Server.readGraph v.graph
      case error =>
        rw [hr] at hc
        cases hc
      case ok =>
        rw [hr] at hc
        cases hc
        exact hnum.symm
    case _ =>
      subst hres
      cases hc

theorem activateVersion_eq_ok {id : UUID} (ha : (s.activateVersion c d id n).1 = .ok ()) :
    ∃ db, s.db.activatePipelineVersion id n = .ok db ∧ (s.activateVersion c d id n).2 = s.put db := by
  unfold Server.activateVersion at ha ⊢
  dsimp only at ha ⊢
  split at ha
  case _ => cases ha
  case _ out ho =>
    obtain ⟨db, _, _, hdb, _, _, he, _⟩ := Pipelines.activate_eq_ok (by rw [ho]; rfl)
    exact ⟨db, hdb, by rw [← he]⟩

end Calls

section Entries

open Strings (trimSpace)

variable [Runtime] {s₀ s s' : Server} {ps : PipelineSpec} {specs : List PipelineSpec} {id : UUID}

def NoPasswords (ps : PipelineSpec) : Prop :=
  ∀ g, ps.graph = .ok g → ∀ gr, fromAPIGraph g = some gr → gr.secrets = []

def CanonicalGraph (ps : PipelineSpec) : Prop :=
  ∃ g, ps.graph = .ok g ∧ Canonical g

def HasName (s : Server) (id : UUID) (name : String) : Prop :=
  ∃ p ∈ s.pipelines, p.customerID = id ∧ p.name = name

-- The entry is as the server would give it back, or it is there already.
def Keeps (s : Server) (id : UUID) (ps : PipelineSpec) : Prop :=
  (trimSpace ps.name = ps.name ∨ HasName s id ps.name) ∧ (CanonicalGraph ps ∨ Holds s id ps)

omit [Runtime] in
theorem redactGraphSecrets_noSecrets {gr : Graph} (h : gr.secrets = []) :
    Pipelines.redactGraphSecrets gr.stored = gr.stored := by
  rw [Pipelines.redactGraphSecrets_eq]
  refine Graph.mapSecrets_id fun e he => ?_
  obtain ⟨x, hx, _⟩ := Pipelines.mem_secrets_stored.mp he
  simp [h] at hx

theorem Carries.reads_iff {v : VersionRow} (h : Carries v ps) (hn : NoPasswords ps) :
    (∃ g, readDocument v.graph = some g ∧ graphEqual g ps.graph) ↔ CanonicalGraph ps := by
  obtain ⟨g, gr, hg, hgr, hv⟩ := h
  have hs := hn g hg gr hgr
  have hread : readDocument v.graph = toAPIGraph gr.stored := by
    rw [hv hs, readDocument, marshalGraph, Pipelines.parseGraph]
    dsimp only
    rw [redactGraphSecrets_noSecrets hs]
  rw [hread, hg, readBack_iff hgr, CanonicalGraph, hg]
  simp

theorem Written.holds_iff (h : Written s s' p v) (hc : Carries v ps)
    (hn : NoPasswords ps) (hname : p.name = ps.name) : Holds s' p.customerID ps ↔ CanonicalGraph ps := by
  rw [← hc.reads_iff hn]
  constructor
  · rintro ⟨q, hq, hcust, hqn, w, hw, hg⟩
    obtain rfl := h.wf.names q hq p h.mem hcust (hqn.trans hname.symm)
    exact Current.unique h.wf hw h.current ▸ hg
  · exact fun hg => ⟨p, h.mem, rfl, hname, v, h.current, hg⟩

theorem addPipeline_written (h : r.server.WF) (hid : ∃ c ∈ r.server.accounts.customers, c.id = cust.id)
    (ha : addPipeline c false cust r ps = .ok r') :
    ∃ p v, Written r.server r'.server p v ∧ p.customerID = cust.id ∧ p.name = trimSpace ps.name ∧ Carries v ps := by
  obtain ⟨⟨P, r₁⟩, h₁, hrest⟩ := bind_eq_ok.mp ha
  obtain ⟨⟨_, r₂⟩, h₂, hlast⟩ := bind_eq_ok.mp hrest
  cases hlast
  obtain ⟨hcreate, rfl⟩ := call_eq_ok.mp h₁
  obtain ⟨hactivate, rfl⟩ := call_eq_ok.mp h₂
  dsimp only [Run.add] at hcreate hactivate ⊢
  obtain ⟨db, p, v, hs, hins, hpid, hcust, hname, hone, hcarries⟩ := h.createPipeline_eq_ok hid hcreate
  obtain ⟨db', hdb', hs'⟩ := activateVersion_eq_ok hactivate
  rw [hs, ← hpid, ← hone] at hdb'
  refine ⟨{ p with activeVersionID := some v.id }, v, ?_, hcust, hname, hcarries⟩
  rw [hs', hs, Server.put_put]
  exact hins.activate hdb'

theorem addVersion_written (h : r.server.WF) {p : PipelineRow} (hp : p ∈ r.server.pipelines)
    (hid : P.id = p.id) (ha : addVersion c false cust P r ps = .ok r') :
    ∃ p' v, Written r.server r'.server p' v ∧ p'.customerID = p.customerID ∧ p'.name = p.name ∧ Carries v ps := by
  obtain ⟨⟨n, r₁⟩, h₁, hrest⟩ := bind_eq_ok.mp ha
  obtain ⟨⟨_, r₂⟩, h₂, hlast⟩ := bind_eq_ok.mp hrest
  cases hlast
  obtain ⟨hcreate, rfl⟩ := call_eq_ok.mp h₁
  obtain ⟨hactivate, rfl⟩ := call_eq_ok.mp h₂
  dsimp only [Run.add] at hcreate hactivate ⊢
  rw [hid] at hcreate hactivate ⊢
  obtain ⟨db, v, hs, hins, hnum, hcarries⟩ := h.createPipelineVersion_eq_ok hp hcreate
  obtain ⟨db', hdb', hs'⟩ := activateVersion_eq_ok hactivate
  rw [hs, ← hnum] at hdb'
  refine ⟨{ p with activeVersionID := some v.id }, v, ?_, rfl, rfl, hcarries⟩
  rw [hs', hs, Server.put_put]
  exact hins.activate hdb'

def SameGraph (a b : PipelineSpec) : Prop :=
  a.graph.map (·.encoded) = b.graph.map (·.encoded)

-- No two entries ask for different graphs under one name.
def Agreeing (specs : List PipelineSpec) : Prop :=
  ∀ a ∈ specs, ∀ b ∈ specs, a.name = b.name → SameGraph a b

omit [Runtime] in
theorem graphEqual_iff {g : PipelineGraph} {x : Except String PipelineGraph} :
    graphEqual g x ↔ x.map (·.encoded) = .ok g.encoded := by
  cases x <;> simp [graphEqual, Except.map, eq_comm]

theorem Holds.congr (h : Holds s id a) (hname : a.name = b.name) (hg : SameGraph a b) : Holds s id b := by
  obtain ⟨p, hp, hid, hn, v, hv, g, hread, heq⟩ := h
  exact ⟨p, hp, hid, hn.trans hname, v, hv, g, hread, graphEqual_iff.mpr (hg ▸ graphEqual_iff.mp heq)⟩

theorem Holds.sameGraph (h : s.WF) (ha : Holds s id a) (hb : Holds s id b) (hname : a.name = b.name) : SameGraph a b := by
  obtain ⟨p, hp, hid, hn, v, hv, g, hread, heq⟩ := ha
  obtain ⟨q, hq, hid', hn', w, hw, g', hread', heq'⟩ := hb
  obtain rfl := h.names p hp q hq (hid.trans hid'.symm) (hn.trans (hname.trans hn'.symm))
  obtain rfl := Current.unique h hv hw
  cases hread.symm.trans hread'
  exact (graphEqual_iff.mp heq).trans (graphEqual_iff.mp heq').symm

theorem Carries.congr {v : VersionRow} (h : Carries v a) (hg : SameGraph a b) : Carries v b := by
  obtain ⟨g, gr, ha, hgr, hv⟩ := h
  unfold SameGraph at hg
  rw [ha] at hg
  cases hb : b.graph
  case error e =>
    rw [hb] at hg
    cases hg
  case ok g' =>
    rw [hb] at hg
    have henc : g.encoded = g'.encoded := Except.ok.inj hg
    have hsignals : g.signals = g'.signals := congrArg (·.signals) henc
    refine ⟨g', gr, hb, ?_, hv⟩
    rw [← hgr, fromAPIGraph, fromAPIGraph, henc, hsignals]

-- Where the pipeline of a name comes from: it is as before, or an entry has written it.
def Origin (id : UUID) (specs : List PipelineSpec) (s s' : Server) (name : String) : Prop :=
  Same (fun id' name' => id' = id ∧ name' = name) s s' ∨
    ∃ ps ∈ specs, (name = ps.name ∨ name = trimSpace ps.name ∧ ¬HasName s id ps.name) ∧
      ∃ p ∈ s'.pipelines, p.customerID = id ∧ p.name = name ∧ ∃ v, Current s' p v ∧ Carries v ps

theorem Origin.same (h : Origin id specs s s' name) (hs : Same (fun id' name' => id' = id ∧ name' = name) s' s'') :
    Origin id specs s s'' name := by
  obtain h | ⟨ps, hps, hname, p, hp, hid, hn, v, hv, hc⟩ := h
  · exact .inl (h.trans hs)
  · exact .inr ⟨ps, hps, hname, p, (hs.rows p ⟨hid, hn⟩).mpr hp, hid, hn, v, hs.current hp ⟨hid, hn⟩ hv, hc⟩

theorem Origin.mono (h : Origin id specs s s' name) (hsub : specs ⊆ specs') : Origin id specs' s s' name :=
  h.imp_right fun ⟨ps, hps, hrest⟩ => ⟨ps, hsub hps, hrest⟩

-- Entries have been applied to the pipelines of a customer.
structure Applied (id : UUID) (specs : List PipelineSpec) (s s' : Server) : Prop where
  grows : ∀ name, HasName s id name → HasName s' id name
  named : ∀ name, HasName s' id name → HasName s id name ∨ trimSpace name = name
  origin : ∀ name, Origin id specs s s' name
  keeps : ∀ all, specs ⊆ all → (∀ ps ∈ all, NoPasswords ps ∧ Keeps s id ps) → Agreeing all →
    (∀ ps ∈ all, Holds s id ps → Holds s' id ps) ∧ ∀ ps ∈ specs, Holds s' id ps

omit [Runtime] in
theorem Same.hasName (h : Same (fun id' _ => id' = id) s s') (hn : HasName s id name) : HasName s' id name := by
  obtain ⟨p, hp, hid, hn⟩ := hn
  exact ⟨p, (h.rows p hid).mpr hp, hid, hn⟩

theorem Applied.of_same (h : Same (fun id' _ => id' = id) s s') : Applied id [] s s' where
  grows _ := h.hasName
  named _ hn := .inl (h.symm.hasName hn)
  origin _ := .inl (h.mono fun _ _ hid => hid.left)
  keeps _ _ _ _ := ⟨fun _ _ => h.holds rfl, by simp⟩

theorem Applied.trans (h : Applied id specs s s') (h' : Applied id specs' s' s'') :
    Applied id (specs ++ specs') s s'' where
  grows name hn := h'.grows name (h.grows name hn)
  named name hn := (h'.named name hn).elim (h.named name) .inr
  origin name := by
    obtain hs | ⟨ps, hps, hname, hrest⟩ := h'.origin name
    · exact ((h.origin name).same hs).mono (List.subset_append_left _ _)
    · refine .inr ⟨ps, List.mem_append_right _ hps, hname.imp_right (And.imp_right fun hno hn => ?_), hrest⟩
      exact hno (h.grows _ hn)
  keeps all hsub hall hagree := by
    rw [List.append_subset] at hsub
    obtain ⟨hmono, hheld⟩ := h.keeps all hsub.left hall hagree
    have hall' (ps : PipelineSpec) (hps : ps ∈ all) : NoPasswords ps ∧ Keeps s' id ps :=
      (hall ps hps).imp_right (And.imp (Or.imp_right (h.grows _)) (Or.imp_right (hmono ps hps)))
    obtain ⟨hmono', hheld'⟩ := h'.keeps all hsub.right hall' hagree
    refine ⟨fun ps hps hs => hmono' ps hps (hmono ps hps hs), fun ps hps => ?_⟩
    obtain hps | hps := List.mem_append.mp hps
    exacts [hmono' ps (hsub.left hps) (hheld ps hps), hheld' ps hps]

-- Once they are applied, all entries are found again exactly if the server gives back what is written, or has
-- had it before, and no two of them are at odds.
theorem Applied.holds_iff (h : Applied id specs s s') (hwf : s'.WF) (hn : ∀ ps ∈ specs, NoPasswords ps) :
    (∀ ps ∈ specs, Holds s' id ps) ↔ (∀ ps ∈ specs, Keeps s id ps) ∧ Agreeing specs := by
  constructor
  case mpr => exact fun ⟨hkeeps, hagree⟩ =>
    (h.keeps specs (List.Subset.refl _) (fun ps hps => ⟨hn ps hps, hkeeps ps hps⟩) hagree).right
  case mp =>
    intro hheld
    have hagree : Agreeing specs := fun a ha b hb => (hheld a ha).sameGraph hwf (hheld b hb)
    have hname (ps : PipelineSpec) (hps : ps ∈ specs) : trimSpace ps.name = ps.name ∨ HasName s id ps.name := by
      obtain ⟨p, hp, hid, hpn, _⟩ := hheld ps hps
      exact (h.named ps.name ⟨p, hp, hid, hpn⟩).symm
    refine ⟨fun ps hps => ⟨hname ps hps, ?_⟩, hagree⟩
    obtain hs | ⟨q, hq, hqn, p, hp, hid, hpn, v, hv, hcarries⟩ := h.origin ps.name
    case inl => exact .inr (hs.symm.holds ⟨rfl, rfl⟩ (hheld ps hps))
    case inr =>
      have hqn : ps.name = q.name := by
        obtain hqn | ⟨hqn, hnew⟩ := hqn
        exacts [hqn, hqn.trans ((hname q hq).resolve_right hnew)]
      refine .inl ((hcarries.congr (hagree q hq ps hps hqn.symm)).reads_iff (hn ps hps) |>.mp ?_)
      obtain ⟨p', hp', hid', hpn', v', hv', hg⟩ := hheld ps hps
      obtain rfl := hwf.names p' hp' p hp (hid'.trans hid.symm) (hpn'.trans hpn.symm)
      exact Current.unique hwf hv' hv ▸ hg

-- What one entry does to a customer whose pipelines have been listed before.
inductive Outcome (t s s' : Server) (id : UUID) (ps : PipelineSpec) : Prop where
  | kept : Holds t id ps → s' = s → Outcome t s s' id ps
  | written {p v} : ¬Holds t id ps → Written s s' p v → p.customerID = id → Carries v ps →
      p.name = ps.name ∧ HasName t id ps.name ∨ p.name = trimSpace ps.name ∧ ¬HasName t id ps.name →
      Outcome t s s' id ps

theorem applyPipeline_outcome {t : Server} (ht : t.WF) (hL : t.listPipelines cust.id = .ok L) (h : r.server.WF)
    (hid : ∃ c ∈ r.server.accounts.customers, c.id = cust.id) (hgrows : Grows t r.server)
    (ha : applyPipeline c false cust L r ps = .ok r') : Outcome t r.server r'.server cust.id ps := by
  unfold applyPipeline at ha
  split at ha
  case _ hnone =>
    have hfree : ¬HasName t cust.id ps.name := by
      rintro ⟨p, hp, hcust, hname⟩
      exact (ht.find?_pipeline_eq_none hL).mp hnone p hp hcust hname
    obtain ⟨p, v, hw, hcust, hname, hcarries⟩ := addPipeline_written h hid ha
    exact .written (fun ⟨p, hp, hcust, hname, _⟩ => hfree ⟨p, hp, hcust, hname⟩) hw hcust hcarries (.inr ⟨hname, hfree⟩)
  case _ P hf =>
    obtain ⟨hP, hPn⟩ := (ht.find?_pipeline hL).mp hf
    obtain ⟨p, hp, hcust, d, _, _, rfl⟩ := (ht.mem_listPipelines hL).mp hP
    have hPn : p.name = ps.name := hPn
    obtain ⟨v, hv⟩ := ht.exists_current hp
    have hun {b : Bool} := @Server.WF.unchanged_eq_ok _ _ c h v (hgrows.versions v hv.mem) (t.view p d.toCustomer) hv.owner
      (hv.currentVersion_view ht _) ps b
    split at ha
    case _ => cases ha
    case _ hu =>
      cases ha
      exact .kept ⟨p, hp, hcust, hPn, v, hv, hun.mp hu⟩ rfl
    case _ hu =>
      have hnot : ¬Holds t cust.id ps := by
        rintro ⟨q, hq, hqc, hqn, w, hw, g, hg, heq⟩
        obtain rfl := ht.names q hq p hp (hqc.trans hcust.symm) (hqn.trans hPn.symm)
        obtain rfl := Current.unique ht hw hv
        obtain ⟨g', hg', hne⟩ := hun.mp hu
        cases hg.symm.trans hg'
        exact absurd (heq.symm.trans hne) (by decide)
      obtain ⟨q, hq, hqid, hqc, hqn⟩ := hgrows.rows p hp
      obtain ⟨p', v', hw, hc', hn', hcarries⟩ := addVersion_written h hq (P := t.view p d.toCustomer) hqid.symm ha
      exact .written hnot hw (hc'.trans (hqc.trans hcust)) hcarries
        (.inl ⟨hn'.trans (hqn.trans hPn), p, hp, hcust, hPn⟩)

theorem Applied.outcome (h : Applied id done t s) (hs : Outcome t s s' id ps) : Applied id (done ++ [ps]) t s' := by
  cases hs
  case kept hheld hsame =>
    subst hsame
    refine ⟨h.grows, h.named, fun name => (h.origin name).mono (List.subset_append_left _ _), fun all hsub hall hagree => ?_⟩
    rw [List.append_subset] at hsub
    obtain ⟨hmono, hdone⟩ := h.keeps all hsub.left hall hagree
    refine ⟨hmono, List.forall_mem_append.mpr ⟨hdone, List.forall_mem_singleton.mpr ?_⟩⟩
    exact hmono ps (hsub.right (List.mem_singleton_self ps)) hheld
  case written p v hnot hw hcust hcarries hname =>
    have hother {name : String} (hne : name ≠ p.name) : Same (fun id' name' => id' = id ∧ name' = name) s s' :=
      hw.same.mono fun _ _ hK hp => hne (hK.right.symm.trans hp.right)
    refine ⟨fun name hn => ?_, fun name hn => ?_, fun name => ?_, fun all hsub hall hagree => ?_⟩
    case refine_1 =>
      obtain ⟨q, hq, hqc, hqn⟩ := h.grows name hn
      obtain ⟨q', hq', -, hc', hn'⟩ := hw.grows.rows q hq
      exact ⟨q', hq', hc'.trans hqc, hn'.trans hqn⟩
    case refine_2 =>
      by_cases hp : name = p.name
      case pos =>
        obtain ⟨hpn, hold⟩ | ⟨hpn, -⟩ := hname
        · exact .inl (by rwa [hp, hpn])
        · exact .inr (by rw [hp, hpn, Strings.trimSpace_trimSpace])
      case neg =>
        obtain ⟨q, hq, hqc, hqn⟩ := hn
        exact h.named name ⟨q, ((hother hp).rows q ⟨hqc, hqn⟩).mp hq, hqc, hqn⟩
    case refine_3 =>
      by_cases hp : name = p.name
      case pos =>
        refine .inr ⟨ps, by simp, ?_, p, hw.mem, hcust, hp.symm, v, hw.current, hcarries⟩
        rw [hp]
        exact hname.imp_left And.left
      case neg => exact ((h.origin name).same (hother hp)).mono (List.subset_append_left _ _)
    case refine_4 =>
      rw [List.append_subset] at hsub
      obtain ⟨hmono, hdone⟩ := h.keeps all hsub.left hall hagree
      have hps := hsub.right (List.mem_singleton_self ps)
      have hpn : p.name = ps.name := by
        obtain ⟨hpn, -⟩ | ⟨hpn, hnew⟩ := hname
        exacts [hpn, hpn.trans ((hall ps hps).right.left.resolve_right hnew)]
      -- Whatever has the name is of the same graph, which is not there yet and so comes back as it is.
      have hwrote (q : PipelineSpec) (hq : q ∈ all) (hqn : ps.name = q.name) : Holds s' id q := by
        have hsame := hagree ps hps q hq hqn
        rw [← hcust, hw.holds_iff (hcarries.congr hsame) (hall q hq).left (hpn.trans hqn)]
        refine (hall q hq).right.right.resolve_right fun hold => hnot ?_
        exact hold.congr hqn.symm (hagree q hq ps hps hqn.symm)
      have hkept (q : PipelineSpec) (hq : q ∈ all) (hs : Holds s id q) : Holds s' id q := by
        by_cases hqn : ps.name = q.name
        case pos => exact hwrote q hq hqn
        case neg => exact (hother fun he => hqn (hpn.symm.trans he.symm)).holds ⟨rfl, rfl⟩ hs
      refine ⟨fun q hq hs => hkept q hq (hmono q hq hs), List.forall_mem_append.mpr ⟨fun q hq => ?_, ?_⟩⟩
      · exact hkept q (hsub.left hq) (hdone q hq)
      · exact List.forall_mem_singleton.mpr (hwrote ps hps rfl)

-- Entries have been applied to the pipelines of a customer, and nothing else has changed.
structure Reconciled (s s' : Server) (id : UUID) (specs : List PipelineSpec) : Prop where
  wf : s'.WF
  others : ∃ db, s' = s.put db
  grows : Grows s s'
  same : Same (fun id' _ => id' ≠ id) s s'
  applied : Applied id specs s s'

theorem foldlM_reconciled {t : Server} (ht : t.WF) (hL : t.listPipelines cust.id = .ok L)
    (hid : ∃ c ∈ t.accounts.customers, c.id = cust.id) (h : Reconciled t r.server cust.id done)
    (ha : specs.foldlM (applyPipeline c false cust L) r = .ok r') :
    Reconciled t r'.server cust.id (done ++ specs) := by
  induction specs generalizing r done
  case nil =>
    cases ha
    rwa [List.append_nil]
  case cons ps rest hi =>
    obtain ⟨r₁, hfirst, hrest⟩ := foldlM_cons_eq_ok.mp ha
    obtain ⟨db, hdb⟩ := h.others
    have hs := applyPipeline_outcome ht hL h.wf (hdb ▸ hid) h.grows hfirst
    rw [List.append_cons]
    refine hi ?_ hrest
    have happlied := h.applied.outcome hs
    cases hs
    case kept _ hsame =>
      rw [hsame] at happlied ⊢
      exact ⟨h.wf, h.others, h.grows, h.same, happlied⟩
    case written hw hcust _ _ =>
      obtain ⟨db', hdb'⟩ := hw.others
      refine ⟨hw.wf, ⟨db', by rw [hdb', hdb, Server.put_put]⟩, h.grows.trans hw.grows, h.same.trans (hw.same.mono ?_), happlied⟩
      exact fun _ _ hne hp => hne (hp.left.trans hcust)

end Entries

end Otelfleetctl
