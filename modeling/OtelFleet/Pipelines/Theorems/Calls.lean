import OtelFleet.Pipelines.Calls
import OtelFleet.Store.Theorems.History

open Store (UUID DB Customer Pipeline NewPipelineVersion)

namespace Pipelines

variable [Runtime]

inductive Call.Step (s : Service) (w : World) : Call → Call → World → Prop where
  -- A call ends without a trace, be it that it is over or that it has failed.
  | stop {k : Call} (hd : ∀ active full, k ≠ .distribute active full)
      (hr : k = .render → ∀ full, renderCurrent s w.db ≠ .ok full) : Step s w k .idle w
  | customer {a : CreateArgs} {name : String} {cust : Customer} (hn : checkName a.name = .ok name)
      (hc : checkCustomer (w.db.getCustomer a.customerID) = .ok cust) :
      Step s w (.create a) (.createSlug a name cust) w
  | slug {a : CreateArgs} {name : String} {cust : Customer}
      (h : checkSlug name (w.db.listPipelines (some a.customerID)) = .ok ()) :
      Step s w (.createSlug a name cust)
        (.createPrepare a name cust (w.db.listPipelines (some a.customerID))) w
  | prepare {a : CreateArgs} {name : String} {cust : Customer} {existing : List Pipeline}
      {nv : NewPipelineVersion} {res : Result}
      (h : prepare s (a.candidate name cust) ((a.candidate name cust).active w.db) =
        .ok (.version nv res)) :
      Step s w (.createPrepare a name cust existing) (.createInsert a name existing nv) w
  | insert {a : CreateArgs} {name : String} {existing : List Pipeline} {nv : NewPipelineVersion} {db : DB}
      (h : w.db.createPipeline (a.newPipeline name) { nv with pipelineID := a.pipelineID } = .ok db) :
      Step s w (.createInsert a name existing nv) .idle { w with db := db }
  | pipeline {a : VersionArgs} {pipe : Pipeline} (h : w.db.getPipeline a.pipelineID = .ok pipe) :
      Step s w (.version a) (.versionPrevious a pipe) w
  | previous {a : VersionArgs} {pipe : Pipeline} {prev : Option Graph}
      (h : previousGraph w.db pipe = .ok prev) :
      Step s w (.versionPrevious a pipe) (.versionPrepare a pipe prev) w
  | prepareVersion {a : VersionArgs} {pipe : Pipeline} {prev : Option Graph} {nv : NewPipelineVersion}
      {res : Result}
      (h : Pipelines.prepare s (a.candidate pipe prev) ((a.candidate pipe prev).active w.db) =
        .ok (.version nv res)) :
      Step s w (.versionPrepare a pipe prev) (.versionInsert a pipe prev nv) w
  | insertVersion {a : VersionArgs} {pipe : Pipeline} {prev : Option Graph} {nv : NewPipelineVersion}
      {db : DB} (h : w.db.createPipelineVersion { nv with pipelineID := a.pipelineID } = .ok db) :
      Step s w (.versionInsert a pipe prev nv) .idle { w with db := db, saved := a :: w.saved }
  | activate {pipelineID : UUID} {number : Nat} {db : DB} {pipe : Pipeline}
      (h : w.db.activatePipelineVersion pipelineID number = .ok db)
      (hp : db.getPipeline pipelineID = .ok pipe) :
      Step s w (.activate pipelineID number) (if pipe.targetClass = .edge then .idle else .render)
        { w with db := db }
  | read {pipelineID : UUID} {pipe : Pipeline} (h : w.db.getPipeline pipelineID = .ok pipe) :
      Step s w (.delete pipelineID) (.deleteRow pipe) w
  | delete {pipe : Pipeline} {db : DB} (h : w.db.deletePipeline pipe.id = .ok db) :
      Step s w (.deleteRow pipe)
        (if pipe.activeVersionID.isSome ∧ pipe.targetClass ≠ .edge then .render else .idle)
        { w with db := db, saved := w.saved.filter (·.pipelineID ≠ pipe.id) }
  | render {inputs : List RenderPipeline} {full : String}
      (hi : activeRenderPipelines s none (w.db.listActivePipelines .forwarding none) = .ok inputs)
      (hf : renderForwardingConfig inputs = .ok full) :
      Step s w .render (.distribute (w.db.listActivePipelines .forwarding none) full) w
  | distribute {active : List Store.ActivePipeline} {full : String} :
      Step s w (.distribute active full) .idle { w with handed := some full }

def Call.renders : Call → Bool
  | render | distribute _ _ => true
  | _ => false

theorem Call.Step.fail (h : k.renders = false) : Call.Step s w k .idle w := by
  refine .stop ?_ ?_
  · rintro active full rfl
    cases h
  · rintro rfl
    cases h

theorem Call.step_spec (s : Service) (w : World) (k : Call) : Call.Step s w k (k.step s w).1 (k.step s w).2 := by
  cases k
  case idle => exact .fail rfl
  case create a =>
    simp only [step]
    split
    case _ hn hc => exact .customer hn hc
    case _ => exact .fail rfl
  case createSlug a name cust =>
    simp only [step]
    split
    case _ h => exact .slug h
    case _ => exact .fail rfl
  case createPrepare =>
    simp only [step]
    split
    case _ h => exact .prepare h
    case _ => exact .fail rfl
  case createInsert =>
    simp only [step]
    split
    case _ h => exact .insert h
    case _ => exact .fail rfl
  case version =>
    simp only [step]
    split
    case _ h => exact .pipeline h
    case _ => exact .fail rfl
  case versionPrevious =>
    simp only [step]
    split
    case _ h => exact .previous h
    case _ => exact .fail rfl
  case versionPrepare =>
    simp only [step]
    split
    case _ h => exact .prepareVersion h
    case _ => exact .fail rfl
  case versionInsert =>
    simp only [step]
    split
    case _ h => exact .insertVersion h
    case _ => exact .fail rfl
  case activate =>
    simp only [step]
    split
    case _ => exact .fail rfl
    case _ h =>
      split
      case _ => exact .fail rfl
      case _ hp => exact .activate h hp
  case delete =>
    simp only [step]
    split
    case _ h => exact .read h
    case _ => exact .fail rfl
  case deleteRow =>
    simp only [step]
    split
    case _ => exact .fail rfl
    case _ h => exact .delete h
  case render =>
    simp only [step]
    split
    case _ hi => exact .stop (by simp) (by simp [renderCurrent, hi])
    case _ hi =>
      split
      case _ hf => exact .stop (by simp) (by simp [renderCurrent, hi, hf])
      case _ hf => exact .render hi hf
  case distribute => exact .distribute

theorem Call.Step.commit (h : Call.Step s w k k' w') : w'.db = w.db ∨ w.db.Commit w'.db := by
  cases h
  case insert h => exact .inr (.create h)
  case insertVersion h => exact .inr (.version h)
  case activate h _ => exact .inr (.activate h)
  case delete h => exact .inr (.delete h)
  all_goals exact .inl rfl

theorem Call.Step.wf (h : Call.Step s w k k' w') (hw : w.db.WF) : w'.db.WF := by
  obtain he | hc := h.commit
  · exact he ▸ hw
  · exact hc.wf hw

theorem Call.Step.customers (h : Call.Step s w k k' w') : w'.db.customers = w.db.customers := by
  obtain he | hc := h.commit
  · rw [he]
  · exact hc.customers

end Pipelines
