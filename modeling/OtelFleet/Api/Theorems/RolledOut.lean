import OtelFleet.Api.History
import OtelFleet.Pipelines.Theorems.Activation
import OtelFleet.Pipelines.Theorems.Convergence

open Store (UUID DB CustomerUpdate)
open Pipelines

-- Whether every change of a config is rolled out.
namespace Api

theorem updateCustomer_eq_ok {db db' : DB} {id : UUID} (h : Tenants.updateCustomer db id upd = .ok db') :
    ∃ name, db.updateCustomer id { upd with name := name } = .ok db' := by
  simp only [Tenants.updateCustomer, bind, Except.bind] at h
  cases hn : Tenants.checkName upd.name
  case error => simp [hn] at h
  case ok name =>
    cases hu : db.updateCustomer id { upd with name := name }
    case error => simp [hn, hu, Tenants.ofStore] at h
    case ok => exact ⟨name, by simpa [hn, hu, Tenants.ofStore] using h⟩

theorem deleteCustomer_eq_ok {db db' : DB} {id : UUID} (h : Tenants.deleteCustomer db id = .ok db') :
    db.softDeleteCustomer id = .ok db' := by
  cases hd : db.softDeleteCustomer id
  case error => simp [Tenants.deleteCustomer, hd, Tenants.ofStore] at h
  case ok => simpa [Tenants.deleteCustomer, hd, Tenants.ofStore] using h

section Histories

variable [Runtime]

-- If an operation has changed the config of the forwarding tier, then the new one was handed over last,
-- and if it has changed the edge config of a customer, then it has published a notification for it.
structure RolledOut (s : Service) (w w' : Plane) (effects : Effects) : Prop where
  forwarding : renderCurrent s w'.db ≠ renderCurrent s w.db →
    ∃ full, renderCurrent s w'.db = .ok full ∧ w'.handed = some full
  edge : ∀ customerID, renderEdgeCurrent s w'.db customerID ≠ renderEdgeCurrent s w.db customerID →
    effects.notified = some customerID

def NoneActive (db : DB) (customerID : UUID) : Prop :=
  ∀ p ∈ db.pipelines, p.customerID = customerID → p.activeVersionID = none

-- The operations that roll out what they change: all but changes of customers that take their active
-- pipelines in or out, and deletions of active pipelines where the rollout fails and is needed.
def Covered (s : Service) (out : Outside) (w : Plane) : Change → Prop
  | .deletePipeline pipelineID =>
    ∀ pipe db', w.db.getPipeline pipelineID = .ok pipe → w.db.deletePipeline pipelineID = .ok db' →
      pipe.activeVersionID.isSome →
        if pipe.targetClass = .edge then
          out.notifier pipe.customerID = none ∨
            renderEdgeCurrent s db' pipe.customerID = renderEdgeCurrent s w.db pipe.customerID
        else (∃ full, renderCurrent s db' = .ok full) ∨ renderCurrent s db' = renderCurrent s w.db
  | .updateCustomer id upd =>
    NoneActive w.db id ∨
      ∀ c, w.db.customer? id = some c → (upd.status.getD c.status = .active ↔ c.status = .active)
  | .deleteCustomer id => NoneActive w.db id ∨ ∀ c, w.db.customer? id = some c → c.status ≠ .active
  | _ => True

-- Other pipelines are to be rendered than before, and nothing is handed over or published.
structure Neglected (w w' : Plane) (effects : Effects) : Prop where
  listed : ∃ tc customerID, w'.db.listActivePipelines tc (some customerID) ≠
    w.db.listActivePipelines tc (some customerID)
  effects : effects = {}

variable {s : Service} {out : Outside} {w w' : Plane} {effects : Effects}

theorem RolledOut.of_same (hf : renderCurrent s w'.db = renderCurrent s w.db)
    (he : ∀ customerID, renderEdgeCurrent s w'.db customerID = renderEdgeCurrent s w.db customerID) :
    RolledOut s w w' effects :=
  ⟨fun hne => absurd hf hne, fun customerID hne => absurd (he customerID) hne⟩

theorem rolledOut_modify {id : UUID} {db' : DB} (h : w.db.modifyCustomer id f = .ok db') (hid : ∀ c, (f c).id = c.id)
    (hslug : ∀ c, (f c).slug = c.slug) (hclient : ∀ c, (f c).clientID = c.clientID)
    (hq : NoneActive w.db id ∨ ∀ c, w.db.customer? id = some c → ((f c).status = .active ↔ c.status = .active)) :
    RolledOut s w { w with db := db' } {} := by
  have hl : ∀ tc cid, db'.listActivePipelines tc cid = w.db.listActivePipelines tc cid := fun _ _ =>
    DB.listActivePipelines_modify h hid hslug hclient hq
  exact .of_same (renderCurrent_congr (hl _ _)) fun _ => renderEdgeCurrent_congr (hl _ _)

omit [Runtime] in
theorem neglected_modify {id : UUID} {db' : DB} (hw : w.db.WF) (h : w.db.modifyCustomer id f = .ok db')
    (hid : ∀ c, (f c).id = c.id)
    (hq : ¬(NoneActive w.db id ∨ ∀ c, w.db.customer? id = some c → ((f c).status = .active ↔ c.status = .active))) :
    Neglected w { w with db := db' } {} := by
  obtain ⟨hactive, hstatus⟩ := not_or.mp hq
  simp only [NoneActive, not_forall] at hactive hstatus
  obtain ⟨p, hp, rfl, ha⟩ := hactive
  obtain ⟨c, hc, hs⟩ := hstatus
  exact ⟨⟨_, _, hw.listActivePipelines_modify_ne h hid hp ha hc hs⟩, rfl⟩

theorem rolledOut_rollOut_iff (ht : Touches s w.db db' pipe) :
    RolledOut s w { db := db', handed := (rollOut s out db' pipe).2.handed.or w.handed } (rollOut s out db' pipe).2 ↔
      if pipe.targetClass = .edge then
        out.notifier pipe.customerID = none ∨
          renderEdgeCurrent s db' pipe.customerID = renderEdgeCurrent s w.db pipe.customerID
      else (∃ full, renderCurrent s db' = .ok full) ∨ renderCurrent s db' = renderCurrent s w.db := by
  by_cases he : pipe.targetClass = .edge
  case pos =>
    rw [if_pos he]
    constructor
    case mp =>
      intro h
      by_cases hsame : renderEdgeCurrent s db' pipe.customerID = renderEdgeCurrent s w.db pipe.customerID
      · exact .inr hsame
      · exact .inl ((rollOut_notified_iff he).mp (h.edge _ hsame))
    case mpr =>
      intro hcov
      refine ⟨fun hne => absurd (ht.forwarding he) hne, fun customerID hne => ?_⟩
      obtain rfl : pipe.customerID = customerID := by
        by_contra hc
        exact hne (ht.edge customerID fun _ => hc)
      exact (rollOut_notified_iff he).mpr (hcov.resolve_right hne)
  case neg =>
    rw [if_neg he]
    constructor
    case mp =>
      intro h
      by_cases hsame : renderCurrent s db' = renderCurrent s w.db
      · exact .inr hsame
      · have ⟨full, hf, _⟩ := h.forwarding hsame
        exact .inl ⟨full, hf⟩
    case mpr =>
      intro hcov
      refine ⟨fun hne => ?_, fun customerID hne => absurd (ht.edge customerID fun h => absurd h he) hne⟩
      have ⟨full, hf⟩ := hcov.resolve_right hne
      exact ⟨full, hf, by rw [rollOut_handed he hf, Option.some_or]⟩

-- What a successful operation has done to the database, and what it has handed over and published.
inductive Performed (s : Service) (out : Outside) (db : DB) : Change → DB → Effects → Prop
  | create {a : CreateArgs} {name : String} {nv : Store.NewPipelineVersion} {db' : DB}
    (h : db.createPipeline (a.newPipeline name) nv = .ok db') : Performed s out db (.createPipeline a) db' {}
  | version {a : VersionArgs} {nv : Store.NewPipelineVersion} {db' : DB}
    (h : db.createPipelineVersion nv = .ok db') : Performed s out db (.createVersion a) db' {}
  | activate {pipelineID : UUID} {version : Nat} {db' : DB} {pipe : Store.Pipeline} {rollout : Rollout}
    (h : db.activatePipelineVersion pipelineID version = .ok db') (hg : db'.getPipeline pipelineID = .ok pipe)
    (hr : (rollOut s out db' pipe).1 = .ok rollout) :
    Performed s out db (.activate pipelineID version) db' (rollOut s out db' pipe).2
  | delete {pipelineID : UUID} {pipe : Store.Pipeline} {db' : DB}
    (hg : db.getPipeline pipelineID = .ok pipe) (h : db.deletePipeline pipelineID = .ok db') :
    Performed s out db (.deletePipeline pipelineID) db'
      (if pipe.activeVersionID.isSome then (rollOut s out db' pipe).2 else {})
  | update {id : UUID} {upd : CustomerUpdate} {db' : DB} (h : Tenants.updateCustomer db id upd = .ok db') :
    Performed s out db (.updateCustomer id upd) db' {}
  | deleteCustomer {id : UUID} {db' : DB} (h : Tenants.deleteCustomer db id = .ok db') :
    Performed s out db (.deleteCustomer id) db' {}

theorem Performed.of_perform (h : change.perform s out db = some (db', effects)) :
    Performed s out db change db' effects := by
  cases change
  case createPipeline a =>
    simp only [Change.perform] at h
    split at h
    case _ db₁ hc =>
      cases h
      have ⟨name, nv, hi⟩ := create_eq_stored hc
      exact .create hi
    case _ => cases h
  case createVersion a =>
    simp only [Change.perform] at h
    split at h
    case _ db₁ hc =>
      cases h
      have ⟨nv, hi⟩ := createVersion_eq_stored hc
      exact .version hi
    case _ => cases h
  case activate pipelineID version =>
    simp only [Change.perform] at h
    split_ifs at h with hok
    have ⟨db₁, pipe, rollout, ha, hg, hr, hdb, he⟩ := activate_eq_ok hok
    rw [hdb, he] at h
    cases h
    exact .activate ha hg hr
  case deletePipeline pipelineID =>
    simp only [Change.perform] at h
    split_ifs at h with hok
    have ⟨pipe, db₁, hg, hd, hdb, he⟩ := delete_eq_ok hok
    rw [hdb, he] at h
    cases h
    exact .delete hg hd
  case updateCustomer id upd =>
    simp only [Change.perform] at h
    cases hu : Tenants.updateCustomer db id upd
    case error => simp [hu, Except.toOption] at h
    case ok db₁ =>
      simp only [hu, Except.toOption, Option.map_some, Option.some.injEq, Prod.mk.injEq] at h
      obtain ⟨rfl, rfl⟩ := h
      exact .update hu
  case deleteCustomer id =>
    simp only [Change.perform] at h
    cases hu : Tenants.deleteCustomer db id
    case error => simp [hu, Except.toOption] at h
    case ok db₁ =>
      simp only [hu, Except.toOption, Option.map_some, Option.some.injEq, Prod.mk.injEq] at h
      obtain ⟨rfl, rfl⟩ := h
      exact .deleteCustomer hu

theorem Performed.wf {db db' : DB} {change : Change} (h : Performed s out db change db' effects) (hw : db.WF) :
    db'.WF := by
  cases h
  case create h => exact hw.createPipeline h
  case version h => exact DB.Commit.wf (.version h) hw
  case activate h _ _ => exact hw.activatePipelineVersion h
  case delete h => exact hw.deletePipeline h
  case update h =>
    have ⟨_, h⟩ := updateCustomer_eq_ok h
    exact hw.modifyCustomer h
  case deleteCustomer h => exact hw.modifyCustomer (deleteCustomer_eq_ok h)

theorem Reached.wf {start : Plane} (h : Reached s start w) (hs : start.db.WF) : w.db.WF := by
  induction h
  case start => exact hs
  case step hstep hi =>
    obtain ⟨h⟩ := hstep
    exact (Performed.of_perform h).wf hi

theorem Performed.rolledOut (h : Performed s out w.db change db' effects) (hw : w.db.WF) :
    (Covered s out w change → RolledOut s w { db := db', handed := effects.handed.or w.handed } effects) ∧
      (¬Covered s out w change → ¬RolledOut s w { db := db', handed := effects.handed.or w.handed } effects ∨
        Neglected w { db := db', handed := effects.handed.or w.handed } effects) := by
  have hiff (hi : RolledOut s w { db := db', handed := effects.handed.or w.handed } effects ↔ Covered s out w change) :=
    And.intro hi.mpr fun hn => Or.inl (b := Neglected w { db := db', handed := effects.handed.or w.handed } effects)
      (mt hi.mp hn)
  cases h
  case create h =>
    refine hiff (iff_of_true (.of_same ?_ fun customerID => ?_) trivial)
    · exact renderCurrent_congr (hw.listActivePipelines_create h)
    · exact renderEdgeCurrent_congr (hw.listActivePipelines_create h)
  case version h =>
    refine hiff (iff_of_true (.of_same ?_ fun customerID => ?_) trivial)
    · exact renderCurrent_congr (hw.listActivePipelines_version h)
    · exact renderEdgeCurrent_congr (hw.listActivePipelines_version h)
  case activate pipelineID version pipe rollout h hg hr =>
    refine hiff (iff_of_true ((rolledOut_rollOut_iff (touches_activate hw h hg)).mpr ?_) trivial)
    split_ifs with he
    · exact .inl (notifier_of_rollOut he hr)
    · exact .inl (render_of_rollOut he hr)
  case delete pipelineID pipe hg h =>
    have hcov : Covered s out w (.deletePipeline pipelineID) ↔ (pipe.activeVersionID.isSome →
        if pipe.targetClass = .edge then
          out.notifier pipe.customerID = none ∨
            renderEdgeCurrent s db' pipe.customerID = renderEdgeCurrent s w.db pipe.customerID
        else (∃ full, renderCurrent s db' = .ok full) ∨ renderCurrent s db' = renderCurrent s w.db) := by
      simp [Covered, hg, h]
    refine hiff (Iff.trans ?_ hcov.symm)
    by_cases ha : pipe.activeVersionID.isSome
    case pos =>
      simp only [ha, true_implies]
      exact rolledOut_rollOut_iff (touches_delete hw hg h)
    case neg =>
      have ⟨hf, he⟩ := render_delete_inactive (s := s) hw hg h (by simpa using ha)
      exact iff_of_true (.of_same hf he) fun hc => absurd hc ha
  case update id upd h =>
    have ⟨_, h⟩ := updateCustomer_eq_ok h
    exact ⟨rolledOut_modify h (fun _ => rfl) (fun _ => rfl) fun _ => rfl,
      fun hn => .inr (neglected_modify hw h (fun _ => rfl) hn)⟩
  case deleteCustomer id h =>
    have h := deleteCustomer_eq_ok h
    have hcov : Covered s out w (.deleteCustomer id) ↔ NoneActive w.db id ∨
        ∀ c, w.db.customer? id = some c → (Store.CustomerStatus.deleted = .active ↔ c.status = .active) := by
      simp [Covered]
    rw [hcov]
    exact ⟨rolledOut_modify h (fun _ => rfl) (fun _ => rfl) fun _ => rfl,
      fun hn => .inr (neglected_modify hw h (fun _ => rfl) hn)⟩

-- In every history, an operation that is covered rolls out what it changes. One that is not covered does not, or
-- it does not even try although there is something else to render.
theorem rolled_out_iff (s : Service) (start : Plane) (hs : start.db.WF) {w : Plane} (hw : Reached s start w)
    {out : Outside} {change : Change} {effects : Effects} {w' : Plane} (h : change.Step s out w effects w') :
    (Covered s out w change → RolledOut s w w' effects) ∧
      (¬Covered s out w change → ¬RolledOut s w w' effects ∨ Neglected w w' effects) := by
  obtain ⟨h⟩ := h
  exact (Performed.of_perform h).rolledOut (hw.wf hs)

end Histories

section Sample

def accepting : Outside where
  distributor _ := .ok { state := StateApplied, detail := "" }
  notifier _ := none
  edgeAgents _ := (0, 0)

def afterChange [Runtime] (w : Plane) (change : Change) : Plane × Effects :=
  match change.perform sampleService accepting w.db with
  | some (db', effects) => ({ db := db', handed := effects.handed.or w.handed }, effects)
  | none => (w, {})

theorem step_afterChange [Runtime] {w : Plane} {change : Change}
    (h : (change.perform sampleService accepting w.db).isSome) :
    change.Step sampleService accepting w (afterChange w change).2 (afterChange w change).1 := by
  have ⟨⟨db', effects⟩, hp⟩ := Option.isSome_iff_exists.mp h
  simp only [afterChange, hp]
  exact .perform hp

def rotatedPlane : Plane :=
  { db := rotatedDB, handed := none }

-- The customer is renamed after the activation. It stays active, and there is nothing to hand over.
theorem activation_rolled_out :
    letI := Runtime.sample
    let r := afterChange rotatedPlane (.activate 10 1)
    let r' := afterChange r.1 (.updateCustomer 1 { name := some "Acme" })
    renderCurrent sampleService r.1.db ≠ renderCurrent sampleService rotatedDB ∧
      RolledOut sampleService rotatedPlane r.1 r.2 ∧ RolledOut sampleService r.1 r'.1 r'.2 := by
  let _ := Runtime.sample
  have hstep := @step_afterChange _ rotatedPlane (.activate 10 1) (by decide +kernel)
  refine ⟨by decide +kernel, (rolled_out_iff sampleService rotatedPlane rotatedDB_wf .start hstep).left trivial, ?_⟩
  exact (rolled_out_iff sampleService rotatedPlane rotatedDB_wf (.step .start hstep)
    (step_afterChange (by decide +kernel))).left (.inr fun _ _ => .rfl)

-- The customer of an active pipeline is suspended: the config is another one, and nothing is handed over.
theorem suspension_not_rolled_out :
    letI := Runtime.sample
    let w := (afterChange rotatedPlane (.activate 10 1)).1
    let suspend := Change.updateCustomer 1 { status := some .suspended }
    let r := afterChange w suspend
    rotatedPlane.db.WF ∧ Reached sampleService rotatedPlane w ∧
      suspend.Step sampleService accepting w r.2 r.1 ∧ ¬RolledOut sampleService w r.1 r.2 := by
  refine ⟨rotatedDB_wf, ?_, ?_, fun h => ?_⟩
  · exact @Reached.step Runtime.sample _ _ _ _ _ _ _ (@Reached.start Runtime.sample _ _)
      (@step_afterChange Runtime.sample _ _ (by decide +kernel))
  · exact @step_afterChange Runtime.sample _ _ (by decide +kernel)
  · have ⟨full, hf, hh⟩ := @RolledOut.forwarding Runtime.sample _ _ _ _ h (by decide +kernel)
    have hstale : letI := Runtime.sample
        let w := (afterChange rotatedPlane (.activate 10 1)).1
        let r := afterChange w (.updateCustomer 1 { status := some .suspended })
        ∀ full ∈ r.1.handed, renderCurrent sampleService r.1.db ≠ .ok full := by
      decide +kernel
    exact hstale full hh hf

end Sample

end Api
