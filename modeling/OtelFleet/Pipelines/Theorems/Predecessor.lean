import OtelFleet.Pipelines.Theorems.Calls
import OtelFleet.Pipelines.Theorems.Served

open Json (Value)
open Store (UUID DB VersionRow NewPipelineVersion)
open Walk.Guide (valueAt)

-- Which version a sentinel is resolved against when versions are saved side by side.
namespace Pipelines

def secretsIn (doc : Document) : List (String × Value) :=
  match parseGraph doc with
  | .ok g => g.secrets
  | .error _ => []

def isSentinel : Value → Bool
  | .str s => s == RedactedSentinel
  | _ => false

def keptPaths (g : Graph) : List String :=
  (g.secrets.filter (isSentinel ·.2)).map Prod.fst

-- What the fields that were kept stand for is what they stand for in the version before.
def KeepsSecretsOf (cipher : Crypto.Cipher) (g : Graph) (v u : VersionRow) : Prop :=
  ∀ path ∈ keptPaths g, ∃ x ∈ secretsIn v.graph, ∃ y ∈ secretsIn u.graph,
    x.1 = path ∧ y.1 = path ∧ plaintextOf cipher x.2 = plaintextOf cipher y.2

def KeepsPredecessor (cipher : Crypto.Cipher) (w : World) : Prop :=
  ∀ v ∈ w.db.versions, ∀ a ∈ w.saved, a.versionID = v.id → 1 < v.version →
    ∃ u ∈ w.db.versions, u.pipelineID = v.pipelineID ∧ u.version + 1 = v.version ∧
      KeepsSecretsOf cipher a.graph v u

instance (cipher : Crypto.Cipher) (g : Graph) (v u : VersionRow) : Decidable (KeepsSecretsOf cipher g v u) :=
  inferInstanceAs <| Decidable <| ∀ path ∈ keptPaths g, _

instance (cipher : Crypto.Cipher) (w : World) : Decidable (KeepsPredecessor cipher w) :=
  inferInstanceAs <| Decidable <| ∀ v ∈ w.db.versions, _

-- When a version is inserted, the latest version still has, wherever the request has the sentinel, the
-- secret that the sentinel was resolved to.
def PreviousCurrent (cipher : Crypto.Cipher) (w : World) : Call → Prop
  | .versionInsert a _ prev _ =>
    ∀ u ∈ w.db.versions, u.pipelineID = a.pipelineID → w.db.latest a.pipelineID = some u.version →
      ∀ path ∈ keptPaths a.graph, ∀ x ∈ secretsOf prev, x.1 = path →
        ∃ y ∈ secretsIn u.graph, y.1 = path ∧ plaintextOf cipher x.2 = plaintextOf cipher y.2
  | _ => True

instance (cipher : Crypto.Cipher) (w : World) : (k : Call) → Decidable (PreviousCurrent cipher w k)
  | .versionInsert .. => inferInstanceAs <| Decidable <| ∀ u ∈ w.db.versions, _
  | .idle | .create _ | .createSlug .. | .createPrepare .. | .createInsert .. | .version _ | .versionPrevious ..
  | .versionPrepare .. | .activate .. | .delete _ | .deleteRow _ | .render | .distribute .. => .isTrue trivial

section Sentinels

theorem mem_keptPaths : path ∈ keptPaths g ↔ (path, .str RedactedSentinel) ∈ g.secrets := by
  simp only [keptPaths, List.mem_map, List.mem_filter, Prod.exists, exists_and_right, exists_eq_right]
  constructor
  · rintro ⟨v, hm, hs⟩
    cases v <;> simp only [isSentinel, Bool.false_eq_true, beq_iff_eq] at hs
    exact hs ▸ hm
  · exact fun hm => ⟨_, hm, by simp [isSentinel]⟩

theorem plaintextOf_stored (h : revealed c v = .str x) : plaintextOf c v.stored = x := by
  simp [plaintextOf, revealed_stored, h, Value.stored]

variable [Runtime]

theorem prepare_versionID (h : prepare s c active = .ok (.version nv res)) : nv.id = c.versionID := by
  unfold prepare at h
  split at h
  case _ => cases h
  case _ => cases h
  case _ =>
    split at h
    case _ => cases h
    case _ =>
      split at h
      case _ => cases h
      case _ =>
        simp only [Bool.not_eq_true'] at h
        split_ifs at h
        · cases h
        · cases h
          rfl

theorem prepare_sentinel (h : prepare s c active = .ok (.version nv res)) (hm : path ∈ keptPaths c.graph) :
    ∃ x ∈ secretsIn nv.graph, ∃ y ∈ secretsOf c.prev,
      x.1 = path ∧ y.1 = path ∧ plaintextOf s.cipher x.2 = plaintextOf s.cipher y.2 := by
  obtain ⟨stored, _, _, henc, hdec, _, _, hgraph, _⟩ := prepare_eq_version h
  obtain ⟨hfields, hstored⟩ := encryptGraphSecrets_eq_ok.mp henc
  obtain ⟨hread, _⟩ := decryptGraphSecrets_eq_ok.mp hdec
  have hm := mem_keptPaths.mp hm
  obtain ⟨v, hv⟩ := hfields _ hm
  have hmem : (path, v) ∈ stored.secrets := by
    rw [hstored, Graph.secrets_mapSecrets]
    exact List.mem_map.mpr ⟨_, hm, by simp [valueAt, hv]⟩
  obtain ⟨ct, he, _, hold⟩ := encryptField_str hv
  obtain ⟨plaintext, hd⟩ := hread _ hmem ct he
  obtain ⟨y, hl, hp⟩ := hold rfl
  refine ⟨(path, v.stored), ?_, (path, y), List.mem_reverse.mp (Assoc.mem_of_lookup hl), rfl, rfl, ?_⟩
  · rw [secretsIn, hgraph]
    exact mem_secrets_stored.mpr ⟨v, hmem, rfl⟩
  · rw [plaintextOf_stored (revealed_of_decrypt he hd), hp plaintext hd]

end Sentinels

section Tables

variable {w : World}

def Traced (w : World) : Prop :=
  ∀ a ∈ w.saved, ∃ v ∈ w.db.versions, v.id = a.versionID ∧ v.pipelineID = a.pipelineID

theorem Traced.append (h : Traced w) (hdb : db.versions = w.db.versions ++ [r]) : Traced { w with db := db } := by
  intro a ha
  have ⟨v, hv, he⟩ := h a ha
  exact ⟨v, hdb ▸ List.mem_append_left _ hv, he⟩

theorem KeepsPredecessor.append (h : KeepsPredecessor cipher w) (ht : Traced w)
    (hdb : db.versions = w.db.versions ++ [r]) (hid : ∀ v ∈ w.db.versions, v.id ≠ r.id) :
    KeepsPredecessor cipher { w with db := db } := by
  intro v hv a ha hav hn
  rw [show ({ w with db := db } : World).db.versions = w.db.versions ++ [r] from hdb] at hv ⊢
  obtain hv | hv := List.mem_append.mp hv
  · have ⟨u, hu, hkeeps⟩ := h v hv a ha hav hn
    exact ⟨u, List.mem_append_left _ hu, hkeeps⟩
  · have ⟨u, hu, hua, _⟩ := ht a ha
    rw [List.mem_singleton.mp hv] at hav
    exact absurd (hua.trans hav) (hid u hu)

theorem mem_versions_delete {db db' : DB} {id : UUID} (h : db.deletePipeline id = .ok db') :
    v ∈ db'.versions ↔ v ∈ db.versions ∧ v.pipelineID ≠ id := by
  rw [DB.deletePipeline_eq_ok h]
  simp

theorem Traced.delete (h : Traced w) {id : UUID} {db : DB} (hd : w.db.deletePipeline id = .ok db) :
    Traced { w with db := db, saved := w.saved.filter (·.pipelineID ≠ id) } := by
  intro a ha
  have ⟨ha, hne⟩ : a ∈ w.saved ∧ a.pipelineID ≠ id := by simpa using ha
  have ⟨v, hv, hid, hp⟩ := h a ha
  exact ⟨v, (mem_versions_delete hd).mpr ⟨hv, hp ▸ hne⟩, hid, hp⟩

theorem KeepsPredecessor.delete (h : KeepsPredecessor cipher w) {id : UUID} {db : DB}
    (hd : w.db.deletePipeline id = .ok db) :
    KeepsPredecessor cipher { w with db := db, saved := w.saved.filter (·.pipelineID ≠ id) } := by
  intro v hv a ha hav hn
  have ⟨hv, hne⟩ := (mem_versions_delete hd).mp hv
  have ⟨u, hu, hup, hkeeps⟩ := h v hv a (List.mem_of_mem_filter ha) hav hn
  exact ⟨u, (mem_versions_delete hd).mpr ⟨hu, hup ▸ hne⟩, hup, hkeeps⟩

theorem exists_latest {db : DB} {id : UUID} (h : db.latest id = some n) :
    ∃ u ∈ db.versions, u.pipelineID = id ∧ u.version = n := by
  have ⟨u, hu, hn⟩ := List.mem_map.mp (List.max?_mem h)
  have ⟨hm, hid⟩ : u ∈ db.versions ∧ u.pipelineID = id := by simpa [DB.versionsOf] using hu
  exact ⟨u, hm, hid, hn⟩

end Tables

section Steps

variable [Runtime] {s : Service} {w w' : World}

def VersionPrepared (s : Service) : Call → Prop
  | .versionInsert a pipe prev nv =>
    ∃ active res, prepare s (a.candidate pipe prev) active = .ok (.version nv res)
  | _ => True

theorem Call.Step.versionPrepared (h : Call.Step s w k k' w') : VersionPrepared s k' := by
  cases h
  case prepareVersion h => exact ⟨_, _, h⟩
  case activate | delete => split_ifs <;> trivial
  all_goals trivial

theorem insertVersion_keeps (ht : Traced w) (hk : KeepsPredecessor s.cipher w) {pipe : Store.Pipeline}
    (hv : VersionPrepared s (.versionInsert a pipe prev nv))
    (hok : PreviousCurrent s.cipher w (.versionInsert a pipe prev nv))
    (h : w.db.createPipelineVersion { nv with pipelineID := a.pipelineID } = .ok db) :
    Traced { w with db := db, saved := a :: w.saved } ∧
      KeepsPredecessor s.cipher { w with db := db, saved := a :: w.saved } := by
  have ⟨_, _, hprep⟩ := hv
  have ⟨hid, _, _, hdb⟩ := DB.insertPipelineVersion_eq_ok (DB.createPipelineVersion_eq_ok h)
  generalize hn : (w.db.latest a.pipelineID).getD 0 = n at hdb
  generalize hr : NewPipelineVersion.row { nv with pipelineID := a.pipelineID } (n + 1) = r at hdb
  have hversions : db.versions = w.db.versions ++ [r] := by rw [hdb]
  have hrid : r.id = a.versionID := by
    rw [← hr]
    exact prepare_versionID hprep
  have hfresh : ∀ v ∈ w.db.versions, v.id ≠ r.id := by
    rw [← hr]
    exact hid
  constructor
  · intro b hb
    obtain rfl | hb := List.mem_cons.mp hb
    · refine ⟨r, ?_, hrid, by rw [← hr]; rfl⟩
      exact hversions ▸ List.mem_append_right _ (List.mem_singleton.mpr rfl)
    · exact ht.append hversions b hb
  · intro v hv b hb hbv hlate
    obtain rfl | hb := List.mem_cons.mp hb
    · -- The request is the one behind the new version.
      have hvr : v = r := by
        rw [show ({ w with db := db, saved := b :: w.saved } : World).db.versions = _ from hversions] at hv
        obtain hv | hv := List.mem_append.mp hv
        · exact absurd (hbv.symm.trans hrid.symm) (hfresh v hv)
        · exact List.mem_singleton.mp hv
      subst hvr
      have hvn : v.version = n + 1 := by rw [← hr]; rfl
      have hlatest : w.db.latest b.pipelineID = some n := by
        cases hl : w.db.latest b.pipelineID <;> simp only [hl, Option.getD_none, Option.getD_some] at hn
        · omega
        · rw [hn]
      have ⟨u, hu, hup, hun⟩ := exists_latest hlatest
      refine ⟨u, hversions ▸ List.mem_append_left _ hu, by rw [hup, ← hr]; rfl, by omega, ?_⟩
      intro path hpath
      have ⟨x, hx, y, hy, hxp, hyp, hkeeps⟩ := prepare_sentinel hprep hpath
      have ⟨z, hz, hzp, hsame⟩ := hok u hu hup (hun ▸ hlatest) path hpath y hy hyp
      exact ⟨x, by rw [← hr]; exact hx, z, hz, hxp, hzp, hkeeps.trans hsame⟩
    · exact hk.append ht hversions hfresh v hv b hb hbv hlate

structure Faithful (s : Service) (w : World) : Prop where
  wf : w.db.WF
  traced : Traced w
  keeps : KeepsPredecessor s.cipher w

theorem Call.Step.faithful (h : Call.Step s w k k' w') (hw : Faithful s w) (hk : VersionPrepared s k)
    (hok : PreviousCurrent s.cipher w k) : Faithful s w' := by
  have hwf := h.wf hw.wf
  cases h
  case insert h =>
    have ⟨_, _, hv⟩ := DB.createPipeline_eq_ok h
    have ⟨hid, _, _, hdb⟩ := DB.insertPipelineVersion_eq_ok hv
    have hversions := congrArg DB.versions hdb
    exact ⟨hwf, hw.traced.append hversions, hw.keeps.append hw.traced hversions hid⟩
  case insertVersion h =>
    have ⟨ht, hkeeps⟩ := insertVersion_keeps hw.traced hw.keeps hk hok h
    exact ⟨hwf, ht, hkeeps⟩
  case activate h _ =>
    obtain ⟨_, _, _, _, _, rfl⟩ := DB.activatePipelineVersion_eq_ok h
    exact ⟨hwf, hw.traced, hw.keeps⟩
  case delete h => exact ⟨hwf, hw.traced.delete h, hw.keeps.delete h⟩
  case distribute => exact ⟨hwf, hw.traced, hw.keeps⟩
  all_goals exact hw

theorem predecessor_stable (s : Service) :
    (calls s).Stable (PreviousCurrent s.cipher) (Faithful s) (fun _ k => VersionPrepared s k) where
  begin _ r _ := by cases r <;> trivial
  shared _ w k hw hk hok := (k.step_spec s w).faithful hw hk hok
  own _ w k _ _ _ := (k.step_spec s w).versionPrepared
  other _ _ _ _ _ _ _ hk' := hk'

end Steps

section Sample

open Interleave (Event)

def savedDB : DB :=
  { sampleDB with
    pipelines := [{
      id := 10, customerID := 1, name := "Backup", targetClass := .forwarding, activeVersionID := none }]
    versions := [{
      id := 20
      pipelineID := 10
      version := 1
      graph := .graph (sampleGraph [clickhouse (sampleSecret "alpha")])
      renderedYAML := ""
      configHash := []
      validationStatus := .valid
      validationOutput := none
      createdBy := none }] }

theorem savedDB_wf : savedDB.WF where
  pipelineIDs := by decide
  versionIDs := by decide
  owned := by
    rintro v (_ | ⟨_, ⟨⟩⟩)
    exact ⟨_, List.mem_singleton.mpr rfl, rfl⟩
  numbered := by
    rintro p (_ | ⟨_, ⟨⟩⟩)
    exact ⟨1, by decide, .refl [1]⟩
  active := by
    rintro p (_ | ⟨_, ⟨⟩⟩) id ⟨⟩

def passwordArgs (password : String) (versionID : UUID) : VersionArgs where
  actor := none
  pipelineID := 10
  graph := sampleGraph [clickhouse (.str password)]
  versionID := versionID
  rnd := sampleEntropy

-- Both calls read version 1, and neither changes its password.
def savesSideBySide : List (Event Op Unit) :=
  [.start 0 (.createVersion (passwordArgs RedactedSentinel 21)),
    .start 1 (.createVersion (passwordArgs RedactedSentinel 22)),
    .run 0 (), .run 0 (), .run 0 (), .run 1 (), .run 1 (), .run 1 (), .run 0 (), .run 1 ()]

def rotationOvertaken : List (Event Op Unit) :=
  [.start 0 (.createVersion (passwordArgs "beta" 21)),
    .start 1 (.createVersion (passwordArgs RedactedSentinel 22)),
    .run 0 (), .run 0 (), .run 0 (), .run 1 (), .run 1 (), .run 1 (), .run 0 (), .run 1 ()]

end Sample

end Pipelines
