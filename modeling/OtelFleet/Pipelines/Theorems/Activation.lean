import OtelFleet.Pipelines.Activation
import OtelFleet.Store.Theorems.Listing

open Store (UUID DB Pipeline)

-- What activations and deletions hand over and publish.
namespace Pipelines

variable [Runtime] {s : Service} {db db' : DB}

theorem renderCurrent_congr (h : db'.listActivePipelines .forwarding none = db.listActivePipelines .forwarding none) :
    renderCurrent s db' = renderCurrent s db := by
  rw [renderCurrent, h, renderCurrent]

theorem renderEdgeCurrent_congr
    (h : db'.listActivePipelines .edge (some customerID) = db.listActivePipelines .edge (some customerID)) :
    renderEdgeCurrent s db' customerID = renderEdgeCurrent s db customerID := by
  rw [renderEdgeCurrent, h, renderEdgeCurrent]

structure Touches (s : Service) (db db' : DB) (pipe : Pipeline) : Prop where
  forwarding : pipe.targetClass = .edge → renderCurrent s db' = renderCurrent s db
  edge : ∀ customerID, (pipe.targetClass = .edge → pipe.customerID ≠ customerID) →
    renderEdgeCurrent s db' customerID = renderEdgeCurrent s db customerID

section RollOut

theorem rollOut_notified_iff (h : pipe.targetClass = .edge) :
    (rollOut s out db pipe).2.notified = some pipe.customerID ↔ out.notifier pipe.customerID = none := by
  rw [rollOut, if_pos h, notifyEdge]
  cases out.notifier pipe.customerID <;> simp

theorem notifier_of_rollOut (h : pipe.targetClass = .edge) (hr : (rollOut s out db pipe).1 = .ok rollout) :
    out.notifier pipe.customerID = none := by
  rw [rollOut, if_pos h, notifyEdge] at hr
  cases hn : out.notifier pipe.customerID
  case none => rfl
  case some => simp [hn] at hr

theorem rollOut_handed (h : pipe.targetClass ≠ .edge) (hf : renderCurrent s db = .ok full) :
    (rollOut s out db pipe).2.handed = some full := by
  rw [rollOut, if_neg h, distribute, hf]

theorem render_of_rollOut (h : pipe.targetClass ≠ .edge) (hr : (rollOut s out db pipe).1 = .ok rollout) :
    ∃ full, renderCurrent s db = .ok full := by
  rw [rollOut, if_neg h, distribute] at hr
  cases hf : renderCurrent s db
  case error => simp [hf] at hr
  case ok full => exact ⟨full, rfl⟩

end RollOut

section Save

theorem save_prepared {insert : Store.NewPipelineVersion → Except Store.Error DB}
    (h : save s db c insert = .ok (.stored db')) :
    ∃ nv res, prepare s c (c.active db) = .ok (.version nv res) ∧ insert nv = .ok db' := by
  unfold save at h
  split at h
  case _ => cases h
  case _ => cases h
  case _ nv res hp =>
    cases hi : insert nv
    case error => simp [hi, inserted] at h
    case ok db₁ =>
      simp only [hi, inserted, Except.ok.injEq, Saved.stored.injEq] at h
      exact ⟨nv, res, hp, h ▸ hi⟩

theorem create_prepared {a : CreateArgs} (h : create s db a = .ok (.stored db')) :
    ∃ cust nv res, prepare s (a.candidate (Strings.trimSpace a.name) cust)
        ((a.candidate (Strings.trimSpace a.name) cust).active db) = .ok (.version nv res) ∧
      db.createPipeline (a.newPipeline (Strings.trimSpace a.name)) { nv with pipelineID := a.pipelineID } = .ok db' := by
  simp only [create, bind, Except.bind] at h
  cases hn : checkName a.name
  case error => simp [hn] at h
  case ok name =>
    cases hc : checkCustomer (db.getCustomer a.customerID)
    case error => simp [hn, hc] at h
    case ok cust =>
      cases hs : checkSlug name (db.listPipelines (some a.customerID))
      case error => simp [hn, hc, hs] at h
      case ok =>
        simp only [hn, hc, hs] at h
        have hname : name = Strings.trimSpace a.name := by
          simp only [checkName] at hn
          split_ifs at hn
          exact (Except.ok.inj hn).symm
        subst hname
        exact ⟨cust, save_prepared h⟩

theorem createVersion_prepared {a : VersionArgs} (h : createVersion s db a = .ok (.stored db')) :
    ∃ pipe prev nv res, prepare s (a.candidate pipe prev) ((a.candidate pipe prev).active db) = .ok (.version nv res) ∧
      db.createPipelineVersion { nv with pipelineID := a.pipelineID } = .ok db' := by
  simp only [createVersion, bind, Except.bind] at h
  cases hg : ofStore (db.getPipeline a.pipelineID)
  case error => simp [hg] at h
  case ok pipe =>
    cases hp : previousGraph db pipe
    case error => simp [hg, hp] at h
    case ok prev =>
      simp only [hg, hp] at h
      exact ⟨pipe, prev, save_prepared h⟩

theorem create_eq_stored (h : create s db a = .ok (.stored db')) :
    ∃ name nv, db.createPipeline (a.newPipeline name) nv = .ok db' :=
  have ⟨_, _, _, _, hi⟩ := create_prepared h
  ⟨_, _, hi⟩

theorem createVersion_eq_stored (h : createVersion s db a = .ok (.stored db')) :
    ∃ nv, db.createPipelineVersion nv = .ok db' :=
  have ⟨_, _, _, _, _, hi⟩ := createVersion_prepared h
  ⟨_, hi⟩

end Save

section Activate

theorem activate_eq_ok (h : (activate s out db pipelineID version).result.isOk) :
    ∃ db' pipe rollout, db.activatePipelineVersion pipelineID version = .ok db' ∧
      db'.getPipeline pipelineID = .ok pipe ∧ (rollOut s out db' pipe).1 = .ok rollout ∧
      (activate s out db pipelineID version).db = db' ∧
      (activate s out db pipelineID version).effects = (rollOut s out db' pipe).2 := by
  cases ha : db.activatePipelineVersion pipelineID version
  case error => simp [activate, ha, Except.isOk, Except.toBool] at h
  case ok db' =>
    cases hg : db'.getPipeline pipelineID
    case error => simp [activate, ha, hg, Except.isOk, Except.toBool] at h
    case ok pipe =>
      cases hr : (rollOut s out db' pipe).1
      case error => simp [activate, ha, hg, hr, Except.isOk, Except.toBool] at h
      case ok rollout =>
        refine ⟨db', pipe, rollout, rfl, hg, hr, ?_, ?_⟩ <;> simp only [activate, ha, hg]

theorem touches_activate (h : db.WF)
    (ha : db.activatePipelineVersion pipelineID version = .ok db') (hg : db'.getPipeline pipelineID = .ok pipe) :
    Touches s db db' pipe where
  forwarding he := renderCurrent_congr <| h.listActivePipelines_activate ha fun p hp hid hin => by
    have ⟨hclass, _⟩ := DB.activate_scope h ha hg p hp hid
    rw [hclass, he] at hin
    exact absurd hin.left (by decide)
  edge customerID hne := renderEdgeCurrent_congr <| h.listActivePipelines_activate ha fun p hp hid hin => by
    have ⟨hclass, howner⟩ := DB.activate_scope h ha hg p hp hid
    have hcust : customerID = p.customerID := by simpa using hin.right
    exact hne (hclass ▸ hin.left) (howner ▸ hcust.symm)

end Activate

section Delete

theorem delete_eq_ok (h : (delete s out db pipelineID).result.isOk) :
    ∃ pipe db', db.getPipeline pipelineID = .ok pipe ∧ db.deletePipeline pipelineID = .ok db' ∧
      (delete s out db pipelineID).db = db' ∧
      (delete s out db pipelineID).effects =
        if pipe.activeVersionID.isSome then (rollOut s out db' pipe).2 else {} := by
  cases hg : db.getPipeline pipelineID
  case error => simp [delete, hg, Except.isOk, Except.toBool] at h
  case ok pipe =>
    cases hd : db.deletePipeline pipelineID
    case error => simp [delete, hg, hd, Except.isOk, Except.toBool] at h
    case ok db' =>
      refine ⟨pipe, db', rfl, rfl, ?_, ?_⟩ <;> simp only [delete, hg, hd]

theorem touches_delete (h : db.WF)
    (hg : db.getPipeline pipelineID = .ok pipe) (hd : db.deletePipeline pipelineID = .ok db') :
    Touches s db db' pipe where
  forwarding he := renderCurrent_congr <| h.listActivePipelines_delete hd fun p hp => .inr fun hin => by
    have ⟨_, hclass, _, _⟩ := DB.getPipeline_row hg hp
    rw [hclass, he] at hin
    exact absurd hin.left (by decide)
  edge customerID hne := renderEdgeCurrent_congr <| h.listActivePipelines_delete hd fun p hp => .inr fun hin => by
    have ⟨_, hclass, howner, _⟩ := DB.getPipeline_row hg hp
    have hcust : customerID = p.customerID := by simpa using hin.right
    exact hne (hclass ▸ hin.left) (howner ▸ hcust.symm)

theorem render_delete_inactive (h : db.WF)
    (hg : db.getPipeline pipelineID = .ok pipe) (hd : db.deletePipeline pipelineID = .ok db')
    (hi : pipe.activeVersionID = none) :
    renderCurrent s db' = renderCurrent s db ∧
      ∀ customerID, renderEdgeCurrent s db' customerID = renderEdgeCurrent s db customerID := by
  have hidle : ∀ p, db.pipeline? pipelineID = some p → p.activeVersionID = none := fun p hp => by
    rw [(DB.getPipeline_row hg hp).right.right.right, hi]
  exact ⟨renderCurrent_congr (h.listActivePipelines_delete hd fun p hp => .inl (hidle p hp)),
    fun _ => renderEdgeCurrent_congr (h.listActivePipelines_delete hd fun p hp => .inl (hidle p hp))⟩

end Delete

section Alone

end Alone

end Pipelines
