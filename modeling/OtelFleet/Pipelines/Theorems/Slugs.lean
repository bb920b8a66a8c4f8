import OtelFleet.Pipelines.Theorems.Calls
import OtelFleet.Pipelines.Theorems.Served

open Store (UUID DB PipelineRow ActivePipeline)

-- Whether two pipelines of a customer can come to share their slug, and with it the component IDs.
namespace Pipelines

def slugOf (p : PipelineRow) : UUID × String :=
  (p.customerID, pipelineSlug p.name)

def SlugsDistinct (db : DB) : Prop :=
  (db.pipelines.map slugOf).Nodup

structure CustomersWF (db : DB) : Prop where
  unique : ∀ c ∈ db.customers, ∀ d ∈ db.customers, c.slug = d.slug → c.id = d.id
  isSlug : ∀ c ∈ db.customers, Tenants.IsSlug c.slug

def KeyClash (r : Except String String) : Prop :=
  ∃ rest, r = .error ("duplicate pipeline key " ++ rest)

-- When a pipeline is inserted, every pipeline of the customer with the slug, if not with the very
-- same name, is in the listing that the slug was checked against.
def SlugListed (w : World) : Call → Prop
  | .createInsert a name existing _ =>
    ∀ q ∈ w.db.pipelines, q.customerID = a.customerID → pipelineSlug q.name = pipelineSlug name →
      q.name ≠ name → ∃ p ∈ existing, p.name = q.name
  | _ => True

instance (w : World) (k : Call) : Decidable (SlugListed w k) := by
  unfold SlugListed
  split <;> infer_instance

def SlugChecked : Call → Prop
  | .createPrepare _ name _ existing => checkSlug name existing = .ok ()
  | .createInsert _ name existing _ => checkSlug name existing = .ok ()
  | _ => True

theorem checkSlug_eq_ok
    (h : checkSlug name existing = .ok ()) : ∀ p ∈ existing, pipelineSlug p.name ≠ pipelineSlug name := by
  unfold checkSlug at h
  split at h
  case _ hf => simpa using hf
  case _ => split_ifs at h

section Rendering

variable {db : DB}

theorem activePipeline_eq_some (h : db.activePipeline p = some ap) :
    ∃ c ∈ db.customers, c.id = p.customerID ∧ ap.customerSlug = c.slug ∧ ap.pipelineName = p.name := by
  unfold DB.activePipeline at h
  simp only [Option.bind_eq_bind, Option.bind_eq_some_iff, Option.ite_none_right_eq_some,
    Option.some.injEq] at h
  have ⟨c, hc, _, _, _, _, _, he⟩ := h
  refine ⟨c, List.mem_of_find?_eq_some hc, by simpa using List.find?_some hc, ?_⟩
  rw [← he]
  exact ⟨rfl, rfl⟩

def activeKey (ap : ActivePipeline) : String :=
  pipelineKey ap.customerSlug (pipelineSlug ap.pipelineName)

theorem SlugsDistinct.nodup_keys (h : SlugsDistinct db) (hc : CustomersWF db) (tc : Store.TargetClass)
    (cid : Option UUID) : ((db.listActivePipelines tc cid).map activeKey).Nodup := by
  refine ((List.perm_insertionSort _ _).map activeKey).nodup_iff.mpr ?_
  rw [List.map_filterMap]
  -- The key of an active pipeline determines its customer and its slug, hence its row.
  have hrows : (db.pipelines.filter fun p =>
      p.targetClass = tc ∧ cid.all (· = p.customerID)).Pairwise fun p q => slugOf p ≠ slugOf q :=
    (List.pairwise_map.mp h).filter _
  refine List.Pairwise.filterMap _ (fun p q hne k hk k' hk' he => hne ?_) hrows
  have ⟨ap, hap, hk⟩ := Option.map_eq_some_iff.mp hk
  have ⟨aq, haq, hk'⟩ := Option.map_eq_some_iff.mp hk'
  have ⟨c, hcm, hcid, hcs, hcn⟩ := activePipeline_eq_some hap
  have ⟨d, hdm, hdid, hds, hdn⟩ := activePipeline_eq_some haq
  rw [← hk, ← hk', activeKey, activeKey, hcs, hds, hcn, hdn] at he
  have ⟨hslug, hname⟩ := pipelineKey_inj (hc.isSlug c hcm) (hc.isSlug d hdm) he
  exact Prod.ext (hcid.symm.trans ((hc.unique c hcm d hdm hslug).trans hdid)) hname

variable {s : Service}

theorem toRender_key (h : toRender s ap = .ok rp) : rp.key = activeKey ap := by
  unfold toRender at h
  split at h
  case _ => cases h
  case _ =>
    split at h
    case _ => cases h
    case _ => cases h; rfl

theorem toRender_error (h : toRender s ap = .error e) : ∃ id message, e = pipelineError id message := by
  unfold toRender at h
  split at h
  case _ => cases h; exact ⟨_, _, rfl⟩
  case _ =>
    split at h
    case _ => cases h; exact ⟨_, _, rfl⟩
    case _ => cases h

theorem activeRenderPipelines_keys
    (h : activeRenderPipelines s none aps = .ok inputs) : inputs.map RenderPipeline.key = aps.map activeKey := by
  induction aps generalizing inputs
  case nil => cases h; rfl
  case cons ap aps hi =>
    simp only [activeRenderPipelines, reduceCtorEq, if_false] at h
    split at h
    case _ => cases h
    case _ rp hr =>
      split at h
      case _ => cases h
      case _ rps hrs =>
        cases h
        simp [toRender_key hr, hi hrs]

theorem duplicateKey_of_listing (hn : (aps.map activeKey).Nodup) (h : activeRenderPipelines s none aps = .ok inputs) :
    duplicateKey [] (sortPipelines inputs) = none := by
  refine duplicateKey_eq_none_iff.mpr ⟨?_, by simp⟩
  rw [((sortPipelines_perm inputs).map RenderPipeline.key).nodup_iff, activeRenderPipelines_keys h]
  exact hn

theorem activeRenderPipelines_error
    (h : activeRenderPipelines s none aps = .error e) : ∃ id message, e = pipelineError id message := by
  induction aps
  case nil => cases h
  case cons ap aps hi =>
    simp only [activeRenderPipelines, reduceCtorEq, if_false] at h
    split at h
    case _ hr => cases h; exact toRender_error hr
    case _ =>
      split at h
      case _ hrs => cases h; exact hi hrs
      case _ => cases h

theorem not_keyClash_pipelineError (id : UUID) (message : String) : ¬KeyClash (.error (pipelineError id message)) := by
  rintro ⟨rest, he⟩
  have hc := congrArg String.toList (Except.error.inj he)
  simp [pipelineError] at hc

variable [Runtime]

theorem SlugsDistinct.renderCurrent (h : SlugsDistinct db) (hc : CustomersWF db) (s : Service) :
    ¬KeyClash (renderCurrent s db) := by
  unfold Pipelines.renderCurrent
  split
  case _ hr =>
    obtain ⟨id, message, rfl⟩ := activeRenderPipelines_error hr
    exact not_keyClash_pipelineError id message
  case _ inputs hr =>
    simp [renderForwardingConfig, duplicateKey_of_listing (h.nodup_keys hc _ _) hr, KeyClash]

theorem SlugsDistinct.renderEdgeCurrent (h : SlugsDistinct db) (hc : CustomersWF db) (s : Service)
    (customerID : UUID) : ¬KeyClash (renderEdgeCurrent s db customerID) := by
  unfold Pipelines.renderEdgeCurrent
  split
  case _ hr =>
    obtain ⟨id, message, rfl⟩ := activeRenderPipelines_error hr
    exact not_keyClash_pipelineError id message
  case _ inputs hr =>
    simp [renderEdgeConfig, duplicateKey_of_listing (h.nodup_keys hc _ _) hr, KeyClash]

def repeatsKey (s : Service) (db : DB) : Bool :=
  match activeRenderPipelines s none (db.listActivePipelines .forwarding none) with
  | .ok inputs => (duplicateKey [] (sortPipelines inputs)).isSome
  | .error _ => false

theorem keyClash_of_repeatsKey (h : repeatsKey s db) : KeyClash (renderCurrent s db) := by
  unfold repeatsKey at h
  split at h
  case _ inputs hi =>
    have ⟨key, hk⟩ := Option.isSome_iff_exists.mp h
    refine ⟨Strconv.quote Runtime.isPrint key ++ " in rendered config", ?_⟩
    simp only [renderCurrent, hi, renderForwardingConfig, hk, String.append_assoc]
  case _ => cases h

end Rendering

section Runs

theorem map_slugOf_setActive (db : DB) (pipelineID versionID : UUID) :
    (db.setActive pipelineID versionID).pipelines.map slugOf = db.pipelines.map slugOf := by
  rw [DB.setActive, List.map_map]
  refine List.map_congr_left fun p _ => ?_
  simp only [Function.comp_apply]
  split_ifs <;> rfl

variable [Runtime]

theorem Call.Step.slugsDistinct (h : Call.Step s w k k' w') (hw : SlugsDistinct w.db)
    (hk : SlugChecked k) (hok : SlugListed w k) : SlugsDistinct w'.db := by
  cases h
  case insert a name existing nv db h =>
    have ⟨hname, _, hv⟩ := DB.createPipeline_eq_ok h
    have ⟨_, _, _, hdb⟩ := DB.insertPipelineVersion_eq_ok hv
    subst hdb
    refine Assoc.nodup_map_concat hw fun q hq he => ?_
    have ⟨hcust, hslug⟩ := Prod.mk.inj he
    have ⟨p, hp, hpn⟩ := hok q hq hcust hslug (hname q hq hcust)
    exact checkSlug_eq_ok hk p hp (hpn ▸ hslug)
  case insertVersion h =>
    have ⟨_, _, _, hdb⟩ := DB.insertPipelineVersion_eq_ok (DB.createPipelineVersion_eq_ok h)
    subst hdb
    exact hw
  case activate h _ =>
    have ⟨v, _, _, _, _, hdb⟩ := DB.activatePipelineVersion_eq_ok h
    subst hdb
    rwa [SlugsDistinct, map_slugOf_setActive]
  case delete h =>
    obtain rfl := DB.deletePipeline_eq_ok h
    exact (List.filter_sublist.map _).nodup hw
  all_goals exact hw

theorem Call.Step.slugChecked (h : Call.Step s w k k' w') (hk : SlugChecked k) : SlugChecked k' := by
  cases h
  case slug h => exact h
  case prepare => exact hk
  case activate | delete => split_ifs <;> trivial
  all_goals trivial

theorem slugs_stable (s : Service) (db : DB) : (calls s).Stable SlugListed
    (fun w => SlugsDistinct w.db ∧ w.db.customers = db.customers) (fun _ k => SlugChecked k) where
  begin w r _ := by cases r <;> trivial
  shared _ w k hw hk hok :=
    ⟨(k.step_spec s w).slugsDistinct hw.left hk hok, (k.step_spec s w).customers.trans hw.right⟩
  own _ w k _ hk _ := (k.step_spec s w).slugChecked hk
  other _ _ _ _ _ _ _ hk' := hk'

end Runs

-- In every run in which no insertion is overtaken by another one with its slug, the slugs stay
-- distinct, and rendering never fails for a key that occurs twice.
theorem slugs_distinct_of_listed [Runtime] (s : Service) (db : DB) (hdb : SlugsDistinct db)
    (hc : CustomersWF db) (events : List (Interleave.Event Op Unit))
    (hok : (calls s).Meets SlugListed ((calls s).init { db := db }) events) :
    let db' := (after s db events).shared.db
    SlugsDistinct db' ∧ ¬KeyClash (renderCurrent s db') ∧
      ∀ customerID, ¬KeyClash (renderEdgeCurrent s db' customerID) := by
  have ⟨⟨hslugs, hcust⟩, _⟩ := (slugs_stable s db).run
    (c := (calls s).init { db := db }) ⟨hdb, rfl⟩ (fun _ => trivial) hok
  have hc' : CustomersWF (after s db events).shared.db := ⟨hcust ▸ hc.unique, hcust ▸ hc.isSlug⟩
  exact ⟨hslugs, hslugs.renderCurrent hc' s, hslugs.renderEdgeCurrent hc' s⟩

section Sample

open Interleave (Event)

def backupArgs (name : String) (pipelineID versionID : UUID) : CreateArgs where
  actor := none
  customerID := 1
  name := name
  targetClass := .forwarding
  graph := sampleGraph [clickhouse (.str "alpha")]
  pipelineID := pipelineID
  versionID := versionID
  rnd := sampleEntropy

theorem sampleDB_customers : CustomersWF sampleDB := by
  constructor
  case unique =>
    intro c hc d hd _
    obtain rfl := List.mem_singleton.mp hc
    obtain rfl := List.mem_singleton.mp hd
    rfl
  case isSlug =>
    intro c hc
    obtain rfl := List.mem_singleton.mp hc
    decide

-- The second pipeline with the slug is started before the first is inserted and lists it in time. A third one is
-- inserted while the first is activated.
def listedInTime : List (Event Op Unit) :=
  [.start 0 (.create (backupArgs "Backup" 10 20)), .start 1 (.create (backupArgs "backup" 11 21)),
    .start 2 (.create (backupArgs "Archive" 12 22)), .run 0 (), .run 1 (), .run 0 (), .run 2 (), .run 0 (), .run 2 (),
    .run 0 (), .run 1 (), .start 0 (.activate 10 1), .run 2 (), .run 0 (), .run 2 ()]

theorem late_create_keeps_slugs_distinct :
    letI := Runtime.sample
    let c := after sampleService sampleDB listedInTime
    c.shared.db.pipelines.map (·.id) = [10, 12] ∧ (c.calls 1).isIdle ∧
      (c.shared.db.listActivePipelines .forwarding none).map (·.pipelineName) = ["Backup"] ∧
      SlugsDistinct c.shared.db ∧ ¬KeyClash (renderCurrent sampleService c.shared.db) := by
  have h := @slugs_distinct_of_listed Runtime.sample sampleService sampleDB List.nodup_nil sampleDB_customers listedInTime
    (by decide +kernel)
  exact ⟨by decide +kernel, by decide +kernel, by decide +kernel, h.left, h.right.left⟩

def bothListFirst : List (Event Op Unit) :=
  [.start 0 (.create (backupArgs "Backup" 10 20)), .start 1 (.create (backupArgs "backup" 11 21)),
    .run 0 (), .run 0 (), .run 0 (), .run 1 (), .run 1 (), .run 1 (), .run 0 (), .run 1 (),
    .start 0 (.activate 10 1), .start 1 (.activate 11 1), .run 0 (), .run 1 ()]

theorem both_list_first_breaks_shared_config :
    letI := Runtime.sample
    let db := (after sampleService sampleDB bothListFirst).shared.db
    SlugsDistinct sampleDB ∧ CustomersWF sampleDB ∧ ¬SlugsDistinct db ∧
      KeyClash (renderCurrent sampleService db) := by
  let _ := Runtime.sample
  refine ⟨List.nodup_nil, sampleDB_customers, ?_, ?_⟩
  · unfold SlugsDistinct
    decide +kernel
  · exact keyClash_of_repeatsKey (by decide +kernel)

end Sample

end Pipelines
