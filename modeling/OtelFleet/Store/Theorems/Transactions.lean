import OtelFleet.Store.Transactions
import OtelFleet.Store.Theorems.History

-- Interleaved transactions amount to atomic ones.
namespace Store

namespace Txn

def draw : Txn → Option UUID
  | createSelect _ v | createInsert _ v | createVersionRow _ v | createCommit _ v => some v.id
  | versionLock v | versionMax v | versionInsert v _ | versionCommit v _ => some v.id
  | _ => none

def reads : Txn → Option UUID
  | activateUpdate _ versionID | activateRead _ versionID _ | activateCommit _ versionID _ => some versionID
  | _ => none

def holds (t : Txn) : List Lock :=
  (t.draw.map Lock.version).toList ++ t.locks

theorem version_not_mem_locks (t : Txn) (id : UUID) : .version id ∉ t.locks := by
  cases t <;> simp only [locks] <;> first | (split_ifs <;> simp) | simp

theorem mem_holds_of_mem_locks {t : Txn} (h : l ∈ t.locks) : l ∈ t.holds :=
  List.mem_append_right _ h

end Txn

-- What a lock stands for: the row is there, or no row with the key is there.
def DB.Guarded (db : DB) : Lock → Prop
  | .version id => ∀ w ∈ db.versions, w.id ≠ id
  | .row id => ∃ q ∈ db.pipelines, q.id = id
  | .pipeline id => ∀ q ∈ db.pipelines, q.id ≠ id
  | .name customerID name => ∀ q ∈ db.pipelines, q.customerID = customerID → q.name ≠ name
  | .number pipelineID version => ∀ w ∈ db.versions, w.pipelineID = pipelineID → w.version ≠ version

-- A version that was read is gone, or it is what it was.
def DB.Activatable (db : DB) (pipelineID versionID : UUID) : Prop :=
  ∀ w ∈ db.versions, w.id = versionID → w.pipelineID = pipelineID ∧ w.validationStatus = .valid

-- What a transaction has learned from earlier statements and relies on.
def Txn.Knows (s : Server) : Txn → Prop
  | createInsert p _ | createVersionRow p _ => (s.db.customer? p.customerID).any (·.status ≠ .deleted)
  | createCommit p v => (s.db.customer? p.customerID).any (·.status ≠ .deleted) ∧ v.pipelineID = p.id
  | versionInsert v next | versionCommit v next => next = (s.db.latest v.pipelineID).getD 0 + 1
  | activateUpdate pipelineID versionID | activateRead pipelineID versionID _
  | activateCommit pipelineID versionID _ =>
    .version versionID ∈ s.held ∧ s.db.Activatable pipelineID versionID
  | deleteCommit id victims => victims = (s.db.versionsOf id).map (·.id)
  | _ => True

structure Txn.Local (s : Server) (t : Txn) : Prop where
  held : ∀ l ∈ t.holds, l ∈ s.held
  guarded : ∀ l ∈ t.holds, s.db.Guarded l
  knows : t.Knows s

structure Server.Global (s : Server) : Prop where
  wf : s.db.WF
  drawn : ∀ w ∈ s.db.versions, .version w.id ∈ s.held

-- No two transactions hold the same, and none inserts what another one has read.
structure Txn.Apart (t t' : Txn) : Prop where
  holds : ∀ l ∈ t.holds, l ∉ t'.holds
  reads : ∀ id, t.reads = some id → .version id ∉ t'.holds
  readBy : ∀ id, t'.reads = some id → .version id ∉ t.holds

theorem Txn.Apart.symm {t t' : Txn} (h : t.Apart t') : t'.Apart t :=
  ⟨fun l hl hl' => h.holds l hl' hl, h.readBy, h.reads⟩

-- What a statement can do: end the transaction without a trace, go on with some more locks, or
-- commit.
inductive Txn.Step (s : Server) : Txn → Txn → Server → Prop where
  | finish {t : Txn} : Step s t .idle (s.release t)
  | proceed {t t' : Txn} (locks : List Lock) (hfree : ∀ l ∈ locks, l ∉ s.held)
      (hguard : ∀ l ∈ locks, s.db.Guarded l) (hholds : ∀ l ∈ t'.holds, l ∈ locks ∨ l ∈ t.holds)
      (hreads : t'.reads = t.reads ∨ ∃ v ∈ s.db.versions, t'.reads = some v.id)
      (hknows : t.Knows s → t'.Knows (s.acquire locks)) : Step s t t' (s.acquire locks)
  | create {p : NewPipeline} {v : NewPipelineVersion} :
      Step s (.createCommit p v) .idle (s.commit (.createCommit p v) { s.db with
        pipelines := s.db.pipelines ++ [p.row], versions := s.db.versions ++ [v.row 1] })
  | version {v : NewPipelineVersion} {next : Nat} :
      Step s (.versionCommit v next) .idle (s.commit (.versionCommit v next)
        { s.db with versions := s.db.versions ++ [v.row next] })
  | activate {pipelineID versionID : UUID} (h : (s.db.version? versionID).isSome) :
      Step s (.activateCommit pipelineID versionID true) .idle
        (s.commit (.activateCommit pipelineID versionID true) (s.db.setActive pipelineID versionID))
  | delete {id : UUID} {victims : List UUID} :
      Step s (.deleteCommit id victims) .idle (s.commit (.deleteCommit id victims) { s.db with
        pipelines := s.db.pipelines.filter (·.id ≠ id)
        versions := s.db.versions.filter (·.id ∉ victims) })

theorem Txn.Step.stay (t : Txn) : Txn.Step s t t s :=
  .proceed [] nofun nofun (fun _ hl => .inr hl) (.inl rfl) id

theorem Txn.Step.fail (h : t.locks = []) : Txn.Step s t .idle s := by
  have hs : s.release t = s := by
    simp [Server.release, h]
  have hstep : Txn.Step s t .idle (s.release t) := .finish
  rwa [hs] at hstep

def Txn.Steps (s : Server) (t : Txn) : Prop :=
  Txn.Step s t (t.next s).1 (t.next s).2

section Spec

variable {s : Server}

theorem DB.guarded_row {db : DB} {id : UUID} (h : ¬(db.pipeline? id).isNone) : db.Guarded (.row id) := by
  have ⟨q, hq⟩ := Option.ne_none_iff_exists'.mp (mt Option.isNone_iff_eq_none.mpr h)
  have ⟨hmem, hid⟩ := DB.mem_of_pipeline? hq
  exact ⟨q, hmem, hid⟩

theorem Server.Global.guarded_version (h : s.Global) {id : UUID} (hid : .version id ∉ s.held) :
    s.db.Guarded (.version id) :=
  fun w hw he => hid (he ▸ h.drawn w hw)

theorem Server.Global.pipelineID_eq (h : s.Global) {p : NewPipeline} {v : NewPipelineVersion}
    (hfree : ¬∃ w ∈ s.db.versions, w.pipelineID = v.pipelineID ∧ w.version = 1)
    (hrow : ¬(v.pipelineID ≠ p.id ∧ (s.db.pipeline? v.pipelineID).isNone)) : v.pipelineID = p.id := by
  by_contra hne
  have ⟨q, hq, hid⟩ := DB.guarded_row fun hnone => hrow ⟨hne, hnone⟩
  have ⟨k, hk, hperm⟩ := h.wf.numbered q hq
  have hone : 1 ∈ (s.db.versionsOf q.id).map (·.version) :=
    hperm.mem_iff.mpr (List.mem_range'_1.mpr ⟨le_rfl, by omega⟩)
  have ⟨w, hw, hn⟩ := List.mem_map.mp hone
  have ⟨hmem, hp⟩ := DB.mem_versionsOf.mp hw
  exact hfree ⟨w, hmem, hp.trans hid, hn⟩

variable (h : s.Global)
include h

theorem Txn.next_create : (Txn.create p v).Steps s := by
  simp only [Steps, next]
  split_ifs with hheld
  · exact .fail rfl
  · refine .proceed _ (by simpa using hheld) ?_ (fun l hl => .inl hl) (.inl rfl) fun _ => trivial
    simpa using h.guarded_version hheld

theorem Txn.next_version : (Txn.version v).Steps s := by
  simp only [Steps, next]
  split_ifs with hheld
  · exact .fail rfl
  · refine .proceed _ (by simpa using hheld) ?_ (fun l hl => .inl hl) (.inl rfl) fun _ => trivial
    simpa using h.guarded_version hheld

theorem Txn.next_createVersionRow : (Txn.createVersionRow p v).Steps s := by
  simp only [Steps, next]
  split_ifs with hwait hfail
  · exact .stay _
  · exact .finish
  · have ⟨_, hfree, hrow⟩ : _ ∧ _ ∧ _ := ⟨fun h => hfail (.inl h), fun h => hfail (.inr (.inl h)),
      fun h => hfail (.inr (.inr h))⟩
    refine .proceed _ (by simpa using fun h => hwait (.inl h)) ?_ ?_ (.inl rfl)
      fun hk => ⟨hk, h.pipelineID_eq hfree hrow⟩
    · simpa [DB.Guarded] using hfree
    · simp only [holds, draw, locks]
      grind

omit h

theorem Txn.next_createInsert : (Txn.createInsert p v).Steps s := by
  simp only [Steps, next]
  split_ifs with hwait hfail
  · exact .stay _
  · exact .fail rfl
  · rw [not_or] at hwait hfail
    have hnone := DB.pipeline?_eq_none.mp (Option.not_isSome_iff_eq_none.mp hfail.right)
    refine .proceed _ (by simpa using hwait) ?_ ?_ (.inl rfl) id
    · simpa [DB.Guarded] using ⟨hnone, fun q hq hc hn => hfail.left ⟨q, hq, hc, hn⟩⟩
    · simp only [holds, draw, locks]
      grind

theorem Txn.next_versionLock : (Txn.versionLock v).Steps s := by
  simp only [Steps, next]
  split_ifs with hwait hnone
  · exact .stay _
  · exact .fail rfl
  · refine .proceed _ (by simpa using hwait) ?_ ?_ (.inl rfl) fun _ => trivial
    · simpa using DB.guarded_row hnone
    · simp only [holds, draw, locks]
      grind

theorem Txn.next_versionInsert : (Txn.versionInsert v number).Steps s := by
  simp only [Steps, next]
  split_ifs with hwait hfail
  · exact .stay _
  · exact .finish
  · refine .proceed _ (by simpa using hwait) ?_ ?_ (.inl rfl) id
    · have hfree := fun h => hfail (.inr (.inr h))
      simpa [DB.Guarded] using hfree
    · simp only [holds, draw, locks]
      grind

theorem Txn.next_activateUpdate : (Txn.activateUpdate pipelineID versionID).Steps s := by
  simp only [Steps, next]
  split_ifs with hwait hnone
  · exact .stay _
  · exact .proceed [] nofun nofun (by simp [holds, draw, locks]) (.inl rfl) id
  · refine .proceed _ (by simpa using hwait) ?_ ?_ (.inl rfl)
      fun hk => ⟨List.mem_append_right _ hk.left, hk.right⟩
    · simpa using DB.guarded_row hnone
    · simp [holds, draw, locks]

theorem Txn.next_activateRead : (Txn.activateRead pipelineID versionID updated).Steps s := by
  simp only [Steps, next]
  split
  · exact .finish
  · exact .proceed [] nofun nofun (fun _ hl => .inr hl) (.inl rfl) id

theorem Txn.next_activateCommit : (Txn.activateCommit pipelineID versionID updated).Steps s := by
  simp only [Steps, next]
  split_ifs with hok
  · obtain ⟨rfl, hsome⟩ := hok
    exact .activate hsome
  · exact .finish

theorem Txn.next_delete {id : UUID} : (Txn.delete id).Steps s := by
  simp only [Steps, next]
  split_ifs with hwait hnone
  · exact .stay _
  · exact .fail rfl
  · refine .proceed _ (by simpa using hwait) ?_ (fun l hl => .inl hl) (.inl rfl) fun _ => rfl
    simpa using DB.guarded_row hnone

theorem Txn.next_deleteCommit {id : UUID} : (Txn.deleteCommit id victims).Steps s := by
  simp only [Steps, next]
  split_ifs
  · exact .finish
  · exact .delete

theorem Txn.next_activate (h : s.Global) : (Txn.activate pipelineID number).Steps s := by
  simp only [Steps, next]
  split
  case h_1 => exact .fail rfl
  case h_2 v hv =>
    have ⟨hmem, hp, _⟩ := DB.getPipelineVersion_eq_ok hv
    split_ifs with hvalid
    · refine .proceed [] nofun nofun (by simp [holds, draw, locks]) (.inr ⟨_, hmem, rfl⟩)
        fun _ => ⟨h.drawn _ hmem, fun w hw hid => ?_⟩
      -- Identifiers are unique, so the row that was read is the one that is meant.
      rw [List.inj_on_of_nodup_map h.wf.versionIDs hw hmem hid]
      exact ⟨hp, hvalid⟩
    · exact .fail rfl

theorem Txn.step_spec (h : s.Global) (abort : Bool) (t : Txn) : Txn.Step s t (t.step abort s).1 (t.step abort s).2 := by
  unfold step
  split_ifs
  case pos => exact .finish
  case neg =>
    cases t
    case idle => exact .stay _
    case create => exact next_create h
    case createSelect =>
      simp only [next]
      split_ifs with hc
      · exact .proceed [] nofun nofun (fun _ hl => .inr hl) (.inl rfl) fun _ => hc
      · exact .fail rfl
    case createInsert => exact next_createInsert
    case createVersionRow => exact next_createVersionRow h
    case createCommit => exact .create
    case version => exact next_version h
    case versionLock => exact next_versionLock
    case versionMax => exact .proceed [] nofun nofun (fun _ hl => .inr hl) (.inl rfl) fun _ => rfl
    case versionInsert => exact next_versionInsert
    case versionCommit => exact .version
    case activate => exact next_activate h
    case activateUpdate => exact next_activateUpdate
    case activateRead => exact next_activateRead
    case activateCommit => exact next_activateCommit
    case delete => exact next_delete
    case deleteCommit => exact next_deleteCommit

end Spec

section Commit

theorem DB.insertPipelineVersion_of_guarded (db : DB)
    (hid : db.Guarded (.version v.id)) (hrow : db.Guarded (.row v.pipelineID))
    (hnumber : db.Guarded (.number v.pipelineID number)) :
    db.insertPipelineVersion v number = .ok { db with versions := db.versions ++ [v.row number] } := by
  have hfree : ¬((db.version? v.id).isSome ∨ (db.pipeline? v.pipelineID).isNone ∨
      ∃ w ∈ db.versions, w.pipelineID = v.pipelineID ∧ w.version = number) := by
    rintro (hsome | hnone | ⟨w, hw, hp, hn⟩)
    · exact Option.not_isSome_iff_eq_none.mpr (DB.version?_eq_none.mpr hid) hsome
    · have ⟨q, hq, he⟩ := hrow
      exact DB.pipeline?_eq_none.mp (Option.isNone_iff_eq_none.mp hnone) q hq he
    · exact hnumber w hw hp hn
  rw [DB.insertPipelineVersion, if_neg hfree]
  rfl

theorem Txn.Local.createPipeline (h : (Txn.createCommit p v).Local s) :
    s.db.createPipeline p v = .ok { s.db with
      pipelines := s.db.pipelines ++ [p.row], versions := s.db.versions ++ [v.row 1] } := by
  have ⟨hcustomer, hpid⟩ := h.knows
  have hid := h.guarded (.version v.id) (by simp [holds, draw])
  have hpipeline := h.guarded (.pipeline p.id) (by simp [holds, draw, locks])
  have hname := h.guarded (.name p.customerID p.name) (by simp [holds, draw, locks])
  have hnumber := h.guarded (.number v.pipelineID 1) (by simp [holds, draw, locks])
  have hnew : ¬∃ q ∈ s.db.pipelines, q.customerID = p.customerID ∧ q.name = p.name :=
    fun ⟨q, hq, hc, hn⟩ => hname q hq hc hn
  rw [DB.createPipeline, if_neg (not_not_intro hcustomer), if_neg hnew,
    if_neg (Option.not_isSome_iff_eq_none.mpr (DB.pipeline?_eq_none.mpr hpipeline))]
  exact DB.insertPipelineVersion_of_guarded { s.db with pipelines := s.db.pipelines ++ [p.row] }
    hid ⟨p.row, by simp, hpid.symm⟩ hnumber

theorem Txn.Local.createPipelineVersion (h : (Txn.versionCommit v number).Local s) :
    s.db.createPipelineVersion v = .ok { s.db with versions := s.db.versions ++ [v.row number] } := by
  have hid := h.guarded (.version v.id) (by simp [holds, draw])
  have hrow := h.guarded (.row v.pipelineID) (by simp [holds, draw, locks])
  have hnumber := h.guarded (.number v.pipelineID number) (by simp [holds, draw, locks])
  have hsome : ¬(s.db.pipeline? v.pipelineID).isNone := by
    have ⟨q, hq, he⟩ := hrow
    exact fun hnone => DB.pipeline?_eq_none.mp (Option.isNone_iff_eq_none.mp hnone) q hq he
  have hnext : number = (s.db.latest v.pipelineID).getD 0 + 1 := h.knows
  rw [DB.createPipelineVersion, if_neg hsome, ← hnext]
  exact DB.insertPipelineVersion_of_guarded s.db hid hrow hnumber

theorem Txn.Local.activatePipelineVersion (hG : s.Global) (h : (Txn.activateCommit pipelineID versionID true).Local s)
    (hsome : (s.db.version? versionID).isSome) :
    ∃ number, s.db.activatePipelineVersion pipelineID number = .ok (s.db.setActive pipelineID versionID) := by
  have ⟨v, hv⟩ := Option.isSome_iff_exists.mp hsome
  have ⟨hmem, hid⟩ := DB.mem_of_version? hv
  have ⟨hp, hvalid⟩ := h.knows.right v hmem hid
  have ⟨w, hw, he⟩ := hG.wf.getPipelineVersion_eq hmem
  refine ⟨v.version, ?_⟩
  subst he
  rw [hp] at hw
  simp only [DB.activatePipelineVersion, hw, hvalid, ne_eq, not_true_eq_false, if_false, hid]

theorem Txn.Local.deletePipeline (hG : s.Global) {id : UUID} (h : (Txn.deleteCommit id victims).Local s) :
    s.db.deletePipeline id = .ok { s.db with
      pipelines := s.db.pipelines.filter (·.id ≠ id)
      versions := s.db.versions.filter (·.id ∉ victims) } := by
  have ⟨q, hq, he⟩ := h.guarded (.row id) (by simp [holds, draw, locks])
  have hsome : ¬(s.db.pipeline? id).isNone :=
    fun hnone => DB.pipeline?_eq_none.mp (Option.isNone_iff_eq_none.mp hnone) q hq he
  have hvictims : victims = (s.db.versionsOf id).map (·.id) := h.knows
  -- No version of another pipeline has the identifier of a victim.
  have hfilter : s.db.versions.filter (·.id ∉ victims) = s.db.versions.filter (·.pipelineID ≠ id) := by
    refine List.filter_congr fun w hw => ?_
    have hiff : w.id ∈ victims ↔ w.pipelineID = id := by
      rw [hvictims, List.mem_map]
      constructor
      · rintro ⟨w', hw', hid⟩
        have ⟨hmem, hp⟩ := DB.mem_versionsOf.mp hw'
        rw [← List.inj_on_of_nodup_map hG.wf.versionIDs hmem hw hid]
        exact hp
      · exact fun hp => ⟨w, DB.mem_versionsOf.mpr ⟨hw, hp⟩, rfl⟩
    simp only [hiff, ne_eq]
  rw [DB.deletePipeline, if_neg hsome, hfilter]

end Commit

-- What a commit under some locks can change: it adds only what it holds the keys of, and it leaves
-- pipelines alone whose row it does not hold.
structure DB.Change (locks : List Lock) (db db' : DB) : Prop where
  customers : db'.customers = db.customers
  versions : ∀ w ∈ db'.versions, w ∈ db.versions ∨
    .version w.id ∈ locks ∧ .number w.pipelineID w.version ∈ locks
  pipelines : ∀ q ∈ db'.pipelines,
    (∃ p ∈ db.pipelines, p.id = q.id ∧ p.customerID = q.customerID ∧ p.name = q.name) ∨
      .pipeline q.id ∈ locks ∧ .name q.customerID q.name ∈ locks
  kept : ∀ q ∈ db.pipelines, .row q.id ∉ locks → ∃ p ∈ db'.pipelines, p.id = q.id
  versionsOf : ∀ id, .row id ∉ locks → .pipeline id ∉ locks → db'.versionsOf id = db.versionsOf id

namespace DB.Change

variable {s : Server}

theorem create (h : (Txn.createCommit p v).Local s) :
    Change (Txn.createCommit p v).holds s.db { s.db with
      pipelines := s.db.pipelines ++ [p.row], versions := s.db.versions ++ [v.row 1] } where
  customers := rfl
  versions w hw := by
    obtain hw | hw := List.mem_append.mp hw
    · exact .inl hw
    · rw [List.mem_singleton.mp hw]
      exact .inr (by simp [Txn.holds, Txn.draw, Txn.locks, NewPipelineVersion.row])
  pipelines q hq := by
    obtain hq | hq := List.mem_append.mp hq
    · exact .inl ⟨q, hq, rfl, rfl, rfl⟩
    · rw [List.mem_singleton.mp hq]
      exact .inr (by simp [Txn.holds, Txn.draw, Txn.locks, NewPipeline.row])
  kept q hq _ := ⟨q, List.mem_append_left _ hq, rfl⟩
  versionsOf id _ hid := by
    have hne : v.pipelineID ≠ id := by
      rw [h.knows.right]
      exact fun he => hid (by simp [Txn.holds, Txn.draw, Txn.locks, he])
    simp [DB.versionsOf, NewPipelineVersion.row, hne]

theorem version (v : NewPipelineVersion) (number : Nat) :
    Change (Txn.versionCommit v number).holds s.db
      { s.db with versions := s.db.versions ++ [v.row number] } where
  customers := rfl
  versions w hw := by
    obtain hw | hw := List.mem_append.mp hw
    · exact .inl hw
    · rw [List.mem_singleton.mp hw]
      exact .inr (by simp [Txn.holds, Txn.draw, Txn.locks, NewPipelineVersion.row])
  pipelines q hq := .inl ⟨q, hq, rfl, rfl, rfl⟩
  kept q hq _ := ⟨q, hq, rfl⟩
  versionsOf id hid _ := by
    have hne : v.pipelineID ≠ id := fun he => hid (by simp [Txn.holds, Txn.draw, Txn.locks, he])
    simp [DB.versionsOf, NewPipelineVersion.row, hne]

theorem activate (locks : List Lock) (pipelineID versionID : UUID) :
    Change locks db (db.setActive pipelineID versionID) where
  customers := rfl
  versions _ hw := .inl hw
  pipelines q hq := by
    have ⟨p, hp, hid, hor⟩ := mem_setActive hq
    refine .inl ⟨p, hp, hid, ?_⟩
    obtain rfl | ⟨_, rfl⟩ := hor <;> exact ⟨rfl, rfl⟩
  kept q hq _ := by
    have hmem : q.id ∈ (db.setActive pipelineID versionID).pipelines.map (·.id) := by
      rw [map_id_setActive]
      exact List.mem_map_of_mem hq
    simpa using hmem
  versionsOf _ _ _ := rfl

theorem delete {id : UUID} (hid : .row id ∈ locks) (h : db.deletePipeline id = .ok db') : Change locks db db' := by
  obtain rfl := deletePipeline_eq_ok h
  constructor
  case customers => rfl
  case versions => exact fun w hw => .inl (List.mem_filter.mp hw).left
  case pipelines => exact fun q hq => .inl ⟨q, (List.mem_filter.mp hq).left, rfl, rfl, rfl⟩
  case kept =>
    intro q hq hrow
    have hne : q.id ≠ id := fun he => hrow (he ▸ hid)
    exact ⟨q, List.mem_filter.mpr ⟨hq, by simpa using hne⟩, rfl⟩
  case versionsOf =>
    intro id' hrow _
    exact versionsOf_delete fun he => hrow (he ▸ hid)

theorem guarded (h : Change locks db db') (hl : l ∉ locks) (hg : db.Guarded l) : db'.Guarded l := by
  cases l
  case version id =>
    intro w hw he
    obtain hw | ⟨hmem, _⟩ := h.versions w hw
    · exact hg w hw he
    · exact hl (he ▸ hmem)
  case row id =>
    have ⟨q, hq, he⟩ := hg
    have ⟨p, hp, hp'⟩ := h.kept q hq (he ▸ hl)
    exact ⟨p, hp, hp'.trans he⟩
  case pipeline id =>
    intro q hq he
    obtain ⟨p, hp, hid, _⟩ | ⟨hmem, _⟩ := h.pipelines q hq
    · exact hg p hp (hid.trans he)
    · exact hl (he ▸ hmem)
  case name customerID name =>
    intro q hq hc hn
    obtain ⟨p, hp, _, hc', hn'⟩ | ⟨_, hmem⟩ := h.pipelines q hq
    · exact hg p hp (hc'.trans hc) (hn'.trans hn)
    · exact hl (hc ▸ hn ▸ hmem)
  case number pipelineID number =>
    intro w hw hp hn
    obtain hw | ⟨_, hmem⟩ := h.versions w hw
    · exact hg w hw hp hn
    · exact hl (hp ▸ hn ▸ hmem)

theorem refl (locks : List Lock) (db : DB) : Change locks db db where
  customers := rfl
  versions _ hw := .inl hw
  pipelines q hq := .inl ⟨q, hq, rfl, rfl, rfl⟩
  kept q hq _ := ⟨q, hq, rfl⟩
  versionsOf _ _ _ := rfl

end DB.Change

-- A statement goes on, or it ends the transaction; then nothing is committed, or all of it at once.
inductive Txn.Outcome (s : Server) (t : Txn) : Txn → Server → Prop where
  | proceed {t' : Txn} (locks : List Lock) (hfree : ∀ l ∈ locks, l ∉ s.held)
      (hguard : ∀ l ∈ locks, s.db.Guarded l) (hholds : ∀ l ∈ t'.holds, l ∈ locks ∨ l ∈ t.holds)
      (hreads : t'.reads = t.reads ∨ ∃ v ∈ s.db.versions, t'.reads = some v.id)
      (hknows : t'.Knows (s.acquire locks)) : Outcome s t t' (s.acquire locks)
  | done {db : DB} (hdb : db = s.db ∨ s.db.Commit db) (hchange : DB.Change t.holds s.db db) :
      Outcome s t .idle (s.commit t db)

theorem Txn.Step.outcome {s s' : Server} (h : Txn.Step s t t' s') (hG : s.Global)
    (hL : t.Local s) : Txn.Outcome s t t' s' := by
  cases h
  case finish => exact .done (.inl rfl) (.refl _ _)
  case proceed locks hfree hguard hholds hreads hknows =>
    exact .proceed locks hfree hguard hholds hreads (hknows hL.knows)
  case create => exact .done (.inr <| .create hL.createPipeline) (.create hL)
  case version v number => exact .done (.inr <| .version hL.createPipelineVersion) (.version v number)
  case activate hsome =>
    have ⟨_, ha⟩ := hL.activatePipelineVersion hG hsome
    exact .done (.inr <| .activate ha) (.activate _ _ _)
  case delete =>
    have hd := hL.deletePipeline hG
    exact .done (.inr <| .delete hd) (.delete (by simp [holds, draw, locks]) hd)

-- The versions of `old` were committed before: nobody can change them or take their identifiers.
structure Server.Invariant (old : VersionRow → Prop) (s : Server) : Prop extends s.Global where
  kept : ∀ v, old v → .version v.id ∈ s.held ∧ ∀ w ∈ s.db.versions, w.id = v.id → w = v

structure Txn.Invariant (old : VersionRow → Prop) (s : Server) (t : Txn) : Prop extends t.Local s where
  fresh : ∀ v, old v → .version v.id ∉ t.holds

section Invariant

variable {s s' : Server} {t t' u : Txn}

theorem Server.mem_release : l ∈ (s.release t).held ↔ l ∈ s.held ∧ l ∉ t.locks := by
  simp [release]

theorem Server.version_mem_release {id : UUID} (h : .version id ∈ s.held) : .version id ∈ (s.release t).held :=
  mem_release.mpr ⟨h, t.version_not_mem_locks id⟩

theorem Txn.local_idle (s : Server) : Txn.idle.Local s where
  held := nofun
  guarded := nofun
  knows := trivial

theorem Txn.idle_apart (t : Txn) : Txn.idle.Apart t where
  holds := nofun
  reads := nofun
  readBy _ _ := nofun

theorem Txn.Knows.acquire (h : t.Knows s) (locks : List Lock) : t.Knows (s.acquire locks) := by
  cases t
  case activateUpdate | activateRead | activateCommit => exact ⟨List.mem_append_right _ h.left, h.right⟩
  all_goals exact h

theorem Txn.Local.knows_commit {db : DB} (hu : u.Local s) (ht : t.Local s) (hM : t.Apart u)
    (hchange : DB.Change t.holds s.db db) : u.Knows (s.commit t db) := by
  have hk := hu.knows
  -- A row that `u` holds exists, so `t` is neither holding nor inserting it.
  have hversions : ∀ id, .row id ∈ u.holds → db.versionsOf id = s.db.versionsOf id := by
    intro id hid
    refine hchange.versionsOf id (fun h => hM.holds _ h hid) fun h => ?_
    have ⟨q, hq, he⟩ := hu.guarded _ hid
    exact ht.guarded _ h q hq he
  have hcustomer : ∀ id, db.customer? id = s.db.customer? id := by
    intro id
    simp only [DB.customer?, hchange.customers]
  have hread : ∀ pipelineID versionID, u.reads = some versionID →
      .version versionID ∈ s.held ∧ s.db.Activatable pipelineID versionID →
      .version versionID ∈ (s.commit t db).held ∧ db.Activatable pipelineID versionID := by
    intro pipelineID versionID hr ⟨hheld, hact⟩
    refine ⟨Server.version_mem_release hheld, fun w hw he => ?_⟩
    obtain hw | ⟨hmem, _⟩ := hchange.versions w hw
    · exact hact w hw he
    · exact absurd (he ▸ hmem) (hM.readBy versionID hr)
  cases u
  case createInsert p v | createVersionRow p v | createCommit p v =>
    simpa only [Knows, Server.commit, hcustomer] using hk
  case versionInsert v number | versionCommit v number =>
    simpa only [Knows, Server.commit, DB.latest,
      hversions v.pipelineID (by simp [holds, locks])] using hk
  case activateUpdate pipelineID versionID | activateRead pipelineID versionID updated |
      activateCommit pipelineID versionID updated => exact hread pipelineID versionID rfl hk
  case deleteCommit id victims =>
    simpa only [Knows, Server.commit, hversions id (by simp [holds, locks])] using hk
  all_goals trivial

namespace Txn.Outcome

theorem shared (h : t.Outcome s t' s') (hG : s.Invariant old) (hL : t.Invariant old s) : s'.Invariant old := by
  cases h
  case proceed locks _ _ _ _ _ =>
    refine { wf := ?wf, drawn := ?drawn, kept := ?kept }
    case wf => exact hG.wf
    case drawn => exact fun w hw => List.mem_append_right _ (hG.drawn w hw)
    case kept =>
      intro v hv
      have ⟨hheld, hsame⟩ := hG.kept v hv
      exact ⟨List.mem_append_right _ hheld, hsame⟩
  case done db hdb hchange =>
    refine { wf := ?wf, drawn := ?drawn, kept := ?kept }
    case wf =>
      obtain rfl | hcommit := hdb
      · exact hG.wf
      · exact hcommit.wf hG.wf
    case drawn =>
      intro w hw
      obtain hw | ⟨hmem, _⟩ := hchange.versions w hw
      · exact Server.version_mem_release (hG.drawn w hw)
      · exact Server.version_mem_release (hL.held _ hmem)
    case kept =>
      intro v hv
      have ⟨hheld, hsame⟩ := hG.kept v hv
      refine ⟨Server.version_mem_release hheld, fun w hw he => ?_⟩
      obtain hw | ⟨hmem, _⟩ := hchange.versions w hw
      · exact hsame w hw he
      · exact absurd (he ▸ hmem) (hL.fresh v hv)

theorem own (h : t.Outcome s t' s') (hG : s.Invariant old) (hL : t.Invariant old s) : t'.Invariant old s' := by
  cases h
  case done => exact { Txn.local_idle _ with fresh := fun _ _ => nofun }
  case proceed locks hfree hguard hholds _ hknows =>
    refine { held := ?held, guarded := ?guarded, knows := ?knows, fresh := ?fresh }
    case held =>
      intro l hl
      exact List.mem_append.mpr ((hholds l hl).imp id (hL.held l))
    case guarded =>
      intro l hl
      exact (hholds l hl).elim (hguard l) (hL.guarded l)
    case knows => exact hknows
    case fresh =>
      intro v hv hl
      obtain hl | hl := hholds _ hl
      · exact hfree _ hl (hG.kept v hv).left
      · exact hL.fresh v hv hl

theorem other (h : t.Outcome s t' s') (hL : t.Invariant old s) (hu : u.Invariant old s)
    (hM : t.Apart u) : u.Invariant old s' := by
  cases h
  case proceed locks _ _ _ _ _ =>
    exact {
      held := fun l hl => List.mem_append_right _ (hu.held l hl)
      guarded := hu.guarded
      knows := hu.knows.acquire locks
      fresh := hu.fresh }
  case done db _ hchange =>
    have hnot : ∀ l ∈ u.holds, l ∉ t.holds := fun l hl hl' => hM.holds l hl' hl
    exact {
      held := fun l hl => Server.mem_release.mpr
        ⟨hu.held l hl, fun hl' => hnot l hl (mem_holds_of_mem_locks hl')⟩
      guarded := fun l hl => hchange.guarded (hnot l hl) (hu.guarded l hl)
      knows := hu.toLocal.knows_commit hL.toLocal hM hchange
      fresh := hu.fresh }

theorem apart (h : t.Outcome s t' s') (hu : u.Local s) (hM : t.Apart u) : t'.Apart u := by
  cases h
  case done => exact idle_apart u
  case proceed locks hfree _ hholds hreads _ =>
    constructor
    case holds =>
      intro l hl hl'
      obtain hl | hl := hholds l hl
      · exact hfree l hl (hu.held l hl')
      · exact hM.holds l hl hl'
    case reads =>
      intro id hid hl
      obtain hsame | ⟨v, hv, hnew⟩ := hreads
      · exact hM.reads id (hsame ▸ hid) hl
      · obtain rfl : v.id = id := Option.some.inj (hnew ▸ hid)
        exact hu.guarded _ hl v hv rfl
    case readBy =>
      intro id hid hl
      obtain hl | hl := hholds _ hl
      · refine hfree _ hl ?_
        have hk := hu.knows
        cases u <;> simp only [Txn.reads, reduceCtorEq, Option.some.injEq] at hid
        all_goals exact hid ▸ hk.left
      · exact hM.readBy id hid hl

end Txn.Outcome

theorem Txn.begin_holds (r : Request) : r.begin.holds = [] ∧ r.begin.reads = none := by
  cases r <;> exact ⟨rfl, rfl⟩

theorem transactions_exclusive (old : VersionRow → Prop) :
    transactions.Exclusive (fun _ _ => True) (Server.Invariant old) (Txn.Invariant old) Txn.Apart where
  symm _ _ h := h.symm
  begin s r _ := by
    have ⟨hnone, _⟩ := Txn.begin_holds r
    exact {
      held := by simp [transactions, hnone]
      guarded := by simp [transactions, hnone]
      knows := by cases r <;> trivial
      fresh := by simp [transactions, hnone] }
  beginApart r t := by
    have ⟨hnone, hreads⟩ := Txn.begin_holds r
    exact {
      holds := by simp [transactions, hnone]
      reads := by simp [transactions, hreads]
      readBy := by simp [transactions, hnone] }
  shared x s t hG hL _ := ((Txn.step_spec hG.toGlobal x t).outcome hG.toGlobal hL.toLocal).shared hG hL
  own x s t hG hL _ := ((Txn.step_spec hG.toGlobal x t).outcome hG.toGlobal hL.toLocal).own hG hL
  other x s t u hG hL _ hu hM :=
    ((Txn.step_spec hG.toGlobal x t).outcome hG.toGlobal hL.toLocal).other hL hu hM
  apart x s t u hG hL _ hu hM :=
    ((Txn.step_spec hG.toGlobal x t).outcome hG.toGlobal hL.toLocal).apart hu.toLocal hM

end Invariant

section Runs

open Interleave (Event)
open Interleave.System (Holds meets_true)

theorem Server.Global.of {db : DB} (h : db.WF) : (Server.of db).Global where
  wf := h
  drawn _ hw := List.mem_map_of_mem hw

theorem transactions_holds {db : DB} (h : db.WF) (events : List (Event Request Bool)) :
    Holds (Server.Invariant fun _ => False) (Txn.Invariant fun _ => False) Txn.Apart
      (transactions.run (transactions.init (Server.of db)) events) := by
  refine (transactions_exclusive _).run ?_ (meets_true _ _)
  exact {
    shared := { Server.Global.of h with kept := nofun }
    calls := fun _ => { Txn.local_idle _ with fresh := nofun }
    apart := fun _ _ _ => Txn.idle_apart _ }

theorem transactions_keep (h : Holds (Server.Invariant fun _ => False) (Txn.Invariant fun _ => False) Txn.Apart c)
    (more : List (Event Request Bool)) :
    ∀ v ∈ c.shared.db.versions, ∀ w ∈ (transactions.run c more).shared.db.versions, w.id = v.id → w = v := by
  have hc : Holds (Server.Invariant (· ∈ c.shared.db.versions)) (Txn.Invariant (· ∈ c.shared.db.versions))
      Txn.Apart c := {
    shared := { h.shared with
      kept := fun v hv => ⟨h.shared.drawn v hv,
        fun w hw he => List.inj_on_of_nodup_map h.shared.wf.versionIDs hw hv he⟩ }
    calls := fun i => { h.calls i with
      fresh := fun v hv hl => (h.calls i).guarded _ hl v hv rfl }
    apart := h.apart }
  have hrun := (transactions_exclusive _).run hc (meets_true c more)
  exact fun v hv => (hrun.shared.kept v hv).right

-- In every committed state the versions are numbered from 1 on without gaps, none outlives its
-- pipeline and what is active is valid; and a version never changes.
theorem version_history {db : DB} (h : db.WF) (events more : List (Event Request Bool)) :
    let c := transactions.run (transactions.init (Server.of db)) events
    c.shared.db.WF ∧
      ∀ v ∈ c.shared.db.versions, ∀ w ∈ (transactions.run c more).shared.db.versions,
        w.id = v.id → w = v :=
  have hc := transactions_holds h events
  ⟨hc.shared.wf, transactions_keep hc more⟩

def racedVersion (id : UUID) : NewPipelineVersion where
  id := id
  pipelineID := 10
  graph := .graph { signals := [], processors := [], exporters := [] }
  renderedYAML := ""
  configHash := []
  validationStatus := .valid
  validationOutput := none
  createdBy := none

def racedDB : DB where
  users := []
  customers := [{ id := 1, name := "Acme", slug := "acme", clientID := "acme", status := .active }]
  pipelines := [{ id := 10, customerID := 1, name := "Logs", targetClass := .forwarding, activeVersionID := none }]
  versions := [(racedVersion 20).row 1]

theorem racedDB_wf : racedDB.WF where
  pipelineIDs := by decide
  versionIDs := by decide
  owned := by
    rintro v (_ | ⟨_, ⟨⟩⟩)
    exact ⟨_, List.mem_singleton.mpr rfl, rfl⟩
  numbered := by
    rintro p (_ | ⟨_, ⟨⟩⟩)
    exact ⟨1, by decide, .refl [1]⟩
  active := by
    rintro p (_ | ⟨_, ⟨⟩⟩) id ⟨⟩

def racedSaves : List (Event Request Bool) :=
  [.start 0 (.version (racedVersion 21)), .start 1 (.version (racedVersion 22)), .start 2 (.activate 10 1),
    .run 0 false, .run 1 false, .run 2 false, .run 0 false, .run 1 false, .run 2 false, .run 0 false,
    .run 0 false, .run 1 false, .run 0 false, .run 1 false, .run 1 false, .run 1 false, .run 1 false,
    .run 2 false, .run 2 false, .run 2 false]

theorem raced_saves_keep_history :
    let c := transactions.run (transactions.init (Server.of racedDB)) racedSaves
    let c' := transactions.run c [.start 0 (.delete 10), .run 0 false, .run 0 false]
    c.shared.db.versions.map (fun v => (v.id, v.version)) = [(20, 1), (21, 2), (22, 3)] ∧
      c.shared.db.pipelines.map (·.activeVersionID) = [some 20] ∧ c'.shared.db.versions.map (·.id) = [] ∧
      c.shared.db.WF ∧
      ∀ v ∈ c.shared.db.versions, ∀ w ∈ c'.shared.db.versions, w.id = v.id → w = v :=
  ⟨by decide +kernel, by decide +kernel, by decide +kernel,
    version_history racedDB_wf racedSaves [.start 0 (.delete 10), .run 0 false, .run 0 false]⟩

end Runs

end Store
