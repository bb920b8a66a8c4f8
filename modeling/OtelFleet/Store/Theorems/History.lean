import OtelFleet.Store.Tables
import Mathlib.Data.List.Nodup
import Mathlib.Data.List.Range

-- The tables stay well formed under the transactions.
namespace Store

namespace DB

-- The versions of a pipeline are numbered from 1 on, none outlives its pipeline, and only a valid
-- version of the same pipeline can be active.
structure WF (db : DB) : Prop where
  pipelineIDs : (db.pipelines.map (·.id)).Nodup
  versionIDs : (db.versions.map (·.id)).Nodup
  owned : ∀ v ∈ db.versions, ∃ p ∈ db.pipelines, p.id = v.pipelineID
  numbered : ∀ p ∈ db.pipelines, ∃ k, 0 < k ∧
    ((db.versionsOf p.id).map (·.version)).Perm (List.range' 1 k)
  active : ∀ p ∈ db.pipelines, ∀ id, p.activeVersionID = some id →
    ∃ v ∈ db.versions, v.id = id ∧ v.pipelineID = p.id ∧ v.validationStatus = .valid

-- One of the transactions goes through.
inductive Commit (db db' : DB) : Prop where
  | create {p : NewPipeline} {v : NewPipelineVersion} (h : db.createPipeline p v = .ok db')
  | version {v : NewPipelineVersion} (h : db.createPipelineVersion v = .ok db')
  | activate {pipelineID : UUID} {version : Nat} (h : db.activatePipelineVersion pipelineID version = .ok db')
  | delete {id : UUID} (h : db.deletePipeline id = .ok db')

section Queries

variable {db : DB} {id : UUID}

theorem mem_of_pipeline? (h : db.pipeline? id = some p) : p ∈ db.pipelines ∧ p.id = id :=
  ⟨List.mem_of_find?_eq_some h, by simpa using List.find?_some h⟩

theorem mem_of_version? (h : db.version? id = some v) : v ∈ db.versions ∧ v.id = id :=
  ⟨List.mem_of_find?_eq_some h, by simpa using List.find?_some h⟩

theorem pipeline?_eq_none : db.pipeline? id = none ↔ ∀ p ∈ db.pipelines, p.id ≠ id := by
  simp [pipeline?]

theorem version?_eq_none : db.version? id = none ↔ ∀ v ∈ db.versions, v.id ≠ id := by
  simp [version?]

theorem WF.pipeline?_eq (h : db.WF) (hp : p ∈ db.pipelines) : db.pipeline? p.id = some p :=
  Assoc.find?_unique (fun q hq hid => List.inj_on_of_nodup_map h.pipelineIDs hq hp (by simpa using hid))
    hp (by simp)

theorem WF.version?_eq (h : db.WF) (hv : v ∈ db.versions) : db.version? v.id = some v :=
  Assoc.find?_unique (fun w hw hid => List.inj_on_of_nodup_map h.versionIDs hw hv (by simpa using hid))
    hv (by simp)

theorem mem_versionsOf : v ∈ db.versionsOf id ↔ v ∈ db.versions ∧ v.pipelineID = id := by
  simp [versionsOf]

theorem WF.version_unique (h : db.WF) (hv : v ∈ db.versions) (hw : w ∈ db.versions)
    (hp : v.pipelineID = w.pipelineID) (hn : v.version = w.version) : v = w := by
  have ⟨p, hp', he⟩ := h.owned v hv
  have ⟨k, _, hk⟩ := h.numbered p hp'
  have hnd : ((db.versionsOf p.id).map (·.version)).Nodup := hk.nodup_iff.mpr List.nodup_range'
  exact List.inj_on_of_nodup_map hnd (mem_versionsOf.mpr ⟨hv, he.symm⟩)
    (mem_versionsOf.mpr ⟨hw, hp ▸ he.symm⟩) hn

theorem WF.getPipelineVersion_eq (h : db.WF) (hv : v ∈ db.versions) :
    ∃ w, db.getPipelineVersion v.pipelineID v.version = .ok w ∧ w.toVersionRow = v := by
  have ⟨p, hp, he⟩ := h.owned v hv
  have hf : db.versions.find? (fun w => w.pipelineID = v.pipelineID ∧ w.version = v.version) = some v := by
    refine Assoc.find?_unique (fun w hw hk => ?_) hv (by simp)
    have hk := of_decide_eq_true hk
    exact h.version_unique hw hv hk.left hk.right
  have hread : db.pipeline? v.pipelineID = some p := he ▸ h.pipeline?_eq hp
  simp only [getPipelineVersion, hf, Option.bind_some, readVersion, hread, Option.map_some,
    Option.elim_some, Except.ok.injEq]
  exact ⟨_, rfl, rfl⟩

theorem getPipelineVersion_eq_ok (h : db.getPipelineVersion id version = .ok w) :
    w.toVersionRow ∈ db.versions ∧ w.pipelineID = id ∧ w.version = version := by
  unfold getPipelineVersion at h
  cases hf : db.versions.find? (fun v => v.pipelineID = id ∧ v.version = version)
  case none =>
    simp only [hf] at h
    cases h
  case some v =>
    simp only [hf, Option.bind_some, readVersion] at h
    cases hp : db.pipeline? v.pipelineID
    case none =>
      rw [hp] at h
      cases h
    case some p =>
      have hv := List.find?_some hf
      rw [hp] at h
      cases h
      exact ⟨List.mem_of_find?_eq_some hf, of_decide_eq_true hv⟩

theorem getPipeline_eq_ok (h : db.getPipeline id = .ok pipe) :
    ∃ p, db.pipeline? id = some p ∧ db.readPipeline p = some pipe := by
  unfold getPipeline at h
  cases hp : db.pipeline? id
  case none => simp [hp] at h
  case some p =>
    cases hr : db.readPipeline p
    case none => simp [hp, hr] at h
    case some q => exact ⟨p, rfl, by simpa [hp, hr] using h⟩

theorem getPipeline_row (hg : db.getPipeline id = .ok pipe) (hp : db.pipeline? id = some p) :
    p.id = pipe.id ∧ p.targetClass = pipe.targetClass ∧ p.customerID = pipe.customerID ∧
      p.activeVersionID = pipe.activeVersionID := by
  have ⟨q, hq, hr⟩ := getPipeline_eq_ok hg
  obtain rfl : p = q := Option.some.inj (hp.symm.trans hq)
  have ⟨c, _, he⟩ := Option.map_eq_some_iff.mp hr
  rw [← he]
  exact ⟨rfl, rfl, rfl, rfl⟩

theorem WF.latest_eq (h : db.WF) (hp : p ∈ db.pipelines) :
    ∃ k, 0 < k ∧ db.latest p.id = some k ∧
      ((db.versionsOf p.id).map (·.version)).Perm (List.range' 1 k) := by
  have ⟨k, hk, hperm⟩ := h.numbered p hp
  refine ⟨k, hk, List.max?_eq_some_iff.mpr ⟨hperm.mem_iff.mpr ?_, fun n hn => ?_⟩, hperm⟩
  · simp only [List.mem_range'_1]
    omega
  · have hn := hperm.mem_iff.mp hn
    simp only [List.mem_range'_1] at hn
    omega

end Queries

section Transactions

variable {db db' : DB}

theorem insertPipelineVersion_eq_ok (h : db.insertPipelineVersion v n = .ok db') :
    (∀ w ∈ db.versions, w.id ≠ v.id) ∧ (∃ p ∈ db.pipelines, p.id = v.pipelineID) ∧
      (∀ w ∈ db.versions, w.pipelineID = v.pipelineID → w.version ≠ n) ∧
      db' = { db with versions := db.versions ++ [v.row n] } := by
  unfold insertPipelineVersion at h
  split_ifs at h with hc
  simp only [not_or, Option.not_isSome_iff_eq_none, version?_eq_none, Option.isNone_iff_eq_none,
    pipeline?_eq_none, not_exists, not_and, not_forall, not_not] at hc
  obtain ⟨hid, ⟨p, hp, he⟩, hn⟩ := hc
  cases h
  exact ⟨hid, ⟨p, hp, he⟩, hn, rfl⟩

theorem createPipeline_eq_ok (h : db.createPipeline p v = .ok db') :
    (∀ q ∈ db.pipelines, q.customerID = p.customerID → q.name ≠ p.name) ∧
      (∀ q ∈ db.pipelines, q.id ≠ p.id) ∧
      { db with pipelines := db.pipelines ++ [p.row] }.insertPipelineVersion v 1 = .ok db' := by
  unfold createPipeline at h
  split_ifs at h with hc hn hp
  simp only [not_exists, not_and] at hn
  rw [Option.not_isSome_iff_eq_none, pipeline?_eq_none] at hp
  exact ⟨hn, hp, h⟩

theorem createPipelineVersion_eq_ok (h : db.createPipelineVersion v = .ok db') :
    db.insertPipelineVersion v ((db.latest v.pipelineID).getD 0 + 1) = .ok db' := by
  unfold createPipelineVersion at h
  split_ifs at h
  exact h

theorem versionsOf_createPipelineVersion (h : db.createPipelineVersion v = .ok db') :
    ∃ n, db'.versionsOf v.pipelineID = db.versionsOf v.pipelineID ++ [v.row n] := by
  have ⟨_, _, _, he⟩ := insertPipelineVersion_eq_ok (createPipelineVersion_eq_ok h)
  refine ⟨(db.latest v.pipelineID).getD 0 + 1, ?_⟩
  rw [he, versionsOf, List.filter_append]
  simp [NewPipelineVersion.row, versionsOf]

theorem activatePipelineVersion_eq_ok (h : db.activatePipelineVersion pipelineID version = .ok db') :
    ∃ v ∈ db.versions, v.pipelineID = pipelineID ∧ v.version = version ∧
      v.validationStatus = .valid ∧ db' = db.setActive pipelineID v.id := by
  unfold activatePipelineVersion at h
  split at h
  case _ => cases h
  case _ v hv =>
    have ⟨hm, hp, hn⟩ := getPipelineVersion_eq_ok hv
    split_ifs at h with hs
    · cases h
      exact ⟨_, hm, hp, hn, not_not.mp hs, rfl⟩

theorem deletePipeline_eq_ok {id : UUID} (h : db.deletePipeline id = .ok db') :
    db' = { db with
      pipelines := db.pipelines.filter (·.id ≠ id)
      versions := db.versions.filter (·.pipelineID ≠ id) } := by
  unfold deletePipeline at h
  split_ifs at h
  cases h
  rfl

end Transactions

section Invariant

variable {db db' : DB}

theorem versionsOf_insert (v : VersionRow) (id : UUID) :
    { db with versions := db.versions ++ [v] }.versionsOf id =
      db.versionsOf id ++ if v.pipelineID = id then [v] else [] := by
  by_cases h : v.pipelineID = id <;> simp [versionsOf, h]

theorem WF.insertPipelineVersion (h : db.WF)
    (hv : db.insertPipelineVersion v ((db.latest v.pipelineID).getD 0 + 1) = .ok db') : db'.WF := by
  have ⟨hid, ⟨p, hp, he⟩, _, hdb⟩ := insertPipelineVersion_eq_ok hv
  subst hdb
  constructor
  case pipelineIDs => exact h.pipelineIDs
  case versionIDs => exact Assoc.nodup_map_concat h.versionIDs hid
  case owned =>
    intro w hw
    obtain hw | hw := List.mem_append.mp hw
    · exact h.owned w hw
    · rw [List.mem_singleton.mp hw]
      exact ⟨p, hp, he⟩
  case numbered =>
    intro q hq
    have ⟨k, hk, hlatest, hperm⟩ := h.latest_eq hq
    rw [versionsOf_insert]
    by_cases hv : v.pipelineID = q.id
    case pos =>
      refine ⟨k + 1, by omega, ?_⟩
      rw [hv, hlatest, List.range'_concat]
      refine (List.map_append ▸ hperm.append ?_)
      simp [NewPipelineVersion.row, hv, Nat.add_comm]
    case neg =>
      refine ⟨k, hk, ?_⟩
      rwa [show (v.row _).pipelineID = v.pipelineID from rfl, if_neg hv, List.append_nil]
  case active =>
    intro q hq id ha
    have ⟨w, hw, hw'⟩ := h.active q hq id ha
    exact ⟨w, List.mem_append_left _ hw, hw'⟩

theorem createPipeline_latest (h : db.WF) {p : NewPipeline}
    (hv : { db with pipelines := db.pipelines ++ [p.row] }.insertPipelineVersion v 1 = .ok db') :
    v.pipelineID = p.id := by
  have ⟨_, ⟨q, hq, he⟩, hfree, _⟩ := insertPipelineVersion_eq_ok hv
  obtain hq | hq := List.mem_append.mp hq
  · -- A pipeline that exists has a version 1 already.
    have ⟨k, hk, hperm⟩ := h.numbered q hq
    have hone : 1 ∈ (db.versionsOf q.id).map (·.version) :=
      hperm.mem_iff.mpr (by simp only [List.mem_range'_1]; omega)
    have ⟨w, hw, hw'⟩ := List.mem_map.mp hone
    have ⟨hw, hwp⟩ := mem_versionsOf.mp hw
    exact absurd hw' (hfree w hw (hwp.trans he))
  · rw [← he, List.mem_singleton.mp hq]
    rfl

theorem WF.createPipeline (h : db.WF) {p : NewPipeline} (hc : db.createPipeline p v = .ok db') : db'.WF := by
  have ⟨_, hnew, hv⟩ := createPipeline_eq_ok hc
  have hpid := createPipeline_latest h hv
  have ⟨hid, _, _, hdb⟩ := insertPipelineVersion_eq_ok hv
  subst hdb
  have hnone : db.versionsOf p.id = [] := by
    refine List.filter_eq_nil_iff.mpr fun w hw => ?_
    have ⟨q, hq, he⟩ := h.owned w hw
    simpa [← he] using hnew q hq
  constructor
  case pipelineIDs => exact Assoc.nodup_map_concat h.pipelineIDs hnew
  case versionIDs => exact Assoc.nodup_map_concat h.versionIDs hid
  case owned =>
    intro w hw
    obtain hw | hw := List.mem_append.mp hw
    · have ⟨q, hq, he⟩ := h.owned w hw
      exact ⟨q, List.mem_append_left _ hq, he⟩
    · rw [List.mem_singleton.mp hw]
      exact ⟨p.row, by simp, hpid.symm⟩
  case numbered =>
    intro q hq
    rw [versionsOf_insert, show (v.row 1).pipelineID = p.id from hpid]
    obtain hq | hq := List.mem_append.mp hq
    · have ⟨k, hk, hperm⟩ := h.numbered q hq
      refine ⟨k, hk, ?_⟩
      rwa [if_neg (hnew q hq).symm, List.append_nil]
    · obtain rfl := List.mem_singleton.mp hq
      refine ⟨1, one_pos, ?_⟩
      have hnone : { db with pipelines := db.pipelines ++ [p.row] }.versionsOf p.row.id = [] := hnone
      rw [hnone, if_pos (show p.id = p.row.id from rfl)]
      exact .refl [1]
  case active =>
    intro q hq id ha
    obtain hq | hq := List.mem_append.mp hq
    · have ⟨w, hw, hw'⟩ := h.active q hq id ha
      exact ⟨w, List.mem_append_left _ hw, hw'⟩
    · rw [List.mem_singleton.mp hq] at ha
      cases ha

theorem mem_setActive (h : q ∈ (db.setActive pipelineID versionID).pipelines) :
    ∃ p ∈ db.pipelines, p.id = q.id ∧
      (q = p ∨ q.id = pipelineID ∧ q = { p with activeVersionID := some versionID }) := by
  have ⟨p, hp, he⟩ := List.mem_map.mp h
  split_ifs at he with hid
  · exact ⟨p, hp, he ▸ rfl, .inr ⟨he ▸ hid, he.symm⟩⟩
  · exact ⟨p, hp, he ▸ rfl, .inl he.symm⟩

theorem versionsOf_setActive {pipelineID versionID id : UUID} :
    (db.setActive pipelineID versionID).versionsOf id = db.versionsOf id :=
  rfl

theorem map_id_setActive (db : DB) (pipelineID versionID : UUID) :
    (db.setActive pipelineID versionID).pipelines.map (·.id) = db.pipelines.map (·.id) := by
  rw [setActive, List.map_map]
  refine List.map_congr_left fun p _ => ?_
  simp only [Function.comp_apply]
  split_ifs <;> rfl

theorem WF.activatePipelineVersion (h : db.WF)
    (ha : db.activatePipelineVersion pipelineID version = .ok db') : db'.WF := by
  have ⟨v, hv, hp, _, hvalid, hdb⟩ := activatePipelineVersion_eq_ok ha
  subst hdb
  constructor
  case pipelineIDs => exact map_id_setActive db pipelineID v.id ▸ h.pipelineIDs
  case versionIDs => exact h.versionIDs
  case owned =>
    intro w hw
    have ⟨q, hq, he⟩ := h.owned w hw
    have hm : q.id ∈ (db.setActive pipelineID v.id).pipelines.map (·.id) :=
      map_id_setActive db pipelineID v.id ▸ List.mem_map_of_mem hq
    have ⟨q', hq', he'⟩ := List.mem_map.mp hm
    exact ⟨q', hq', he'.trans he⟩
  case numbered =>
    intro q hq
    have ⟨p, hp, hid, _⟩ := mem_setActive hq
    exact hid ▸ h.numbered p hp
  case active =>
    intro q hq id hid
    have ⟨p, hp', he, hq'⟩ := mem_setActive hq
    obtain rfl | ⟨hqid, hq'⟩ := hq'
    · exact h.active _ hp' id hid
    · rw [hq'] at hid
      cases hid
      exact ⟨v, hv, rfl, hp.trans hqid.symm, hvalid⟩

theorem versionsOf_delete {id id' : UUID} (h : id' ≠ id) :
    { db with pipelines := ps, versions := db.versions.filter (·.pipelineID ≠ id) }.versionsOf id' =
      db.versionsOf id' := by
  simp only [versionsOf, List.filter_filter]
  refine List.filter_congr fun w _ => ?_
  by_cases hw : w.pipelineID = id' <;> simp [hw, h]

theorem WF.deletePipeline (h : db.WF) {id : UUID} (hd : db.deletePipeline id = .ok db') : db'.WF := by
  obtain rfl := deletePipeline_eq_ok hd
  have hkeep : ∀ q ∈ db.pipelines, q.id ≠ id → ∀ w ∈ db.versions, w.pipelineID = q.id →
      w ∈ db.versions.filter (·.pipelineID ≠ id) :=
    fun q _ hne w hw he => List.mem_filter.mpr ⟨hw, by simpa [he] using hne⟩
  have hmem : ∀ q ∈ db.pipelines.filter (·.id ≠ id), q ∈ db.pipelines ∧ q.id ≠ id :=
    fun q hq => by simpa using hq
  constructor
  case pipelineIDs => exact (List.filter_sublist.map _).nodup h.pipelineIDs
  case versionIDs => exact (List.filter_sublist.map _).nodup h.versionIDs
  case owned =>
    intro w hw
    have ⟨hw, hne⟩ : w ∈ db.versions ∧ w.pipelineID ≠ id := by simpa using hw
    have ⟨q, hq, he⟩ := h.owned w hw
    exact ⟨q, List.mem_filter.mpr ⟨hq, by simpa [he] using hne⟩, he⟩
  case numbered =>
    intro q hq
    have ⟨hq, hne⟩ := hmem q hq
    have ⟨k, hk, hperm⟩ := h.numbered q hq
    exact ⟨k, hk, by rwa [versionsOf_delete hne]⟩
  case active =>
    intro q hq vid ha
    have ⟨hq, hne⟩ := hmem q hq
    have ⟨w, hw, hid, hp, hvalid⟩ := h.active q hq vid ha
    exact ⟨w, hkeep q hq hne w hw hp, hid, hp, hvalid⟩

theorem Commit.wf (hc : db.Commit db') (h : db.WF) : db'.WF := by
  cases hc
  case create hc => exact h.createPipeline hc
  case version hc => exact h.insertPipelineVersion (createPipelineVersion_eq_ok hc)
  case activate hc => exact h.activatePipelineVersion hc
  case delete hc => exact h.deletePipeline hc

theorem Commit.customers (hc : db.Commit db') : db'.customers = db.customers := by
  cases hc
  case create hc => rw [(insertPipelineVersion_eq_ok (createPipeline_eq_ok hc).right.right).right.right.right]
  case version hc => rw [(insertPipelineVersion_eq_ok (createPipelineVersion_eq_ok hc)).right.right.right]
  case activate hc =>
    obtain ⟨_, _, _, _, _, rfl⟩ := activatePipelineVersion_eq_ok hc
    rfl
  case delete hc => rw [deletePipeline_eq_ok hc]

end Invariant

end DB
end Store
