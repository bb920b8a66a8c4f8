import OtelFleet.Pipelines.Unreliable
import OtelFleet.Store.Theorems.History

open Store (UUID DB Pipeline)
open Faults (Backend Reads ask call ask_of_none ask_of_some ask_state call_cases change_cases run_bind reads_pure
  reads_ask)

-- What the operations come to when calls of theirs fail.
namespace Pipelines.Unreliable

section Reads

theorem previousGraph_reads (pipe : Pipeline) : Reads (previousGraph pipe) := by
  unfold previousGraph
  split
  case _ => exact reads_pure
  case _ =>
    refine (reads_ask _).bind fun r => ?_
    split
    case _ => exact reads_pure
    case _ => split <;> exact reads_pure

theorem notifyEdge_reads : Reads (notifyEdge out customerID) := by
  unfold notifyEdge countEdgeAgents
  split
  case _ => exact reads_pure
  case _ =>
    refine .bind (.bind (reads_ask _) fun r => ?_) fun _ => reads_pure
    split <;> exact reads_pure

theorem listed_reads : Reads (listed s c) := by
  unfold listed
  split
  case _ => exact reads_ask _
  case _ => exact reads_pure

variable [Runtime]

theorem prepare_reads : Reads (prepare s c) := by
  unfold prepare
  refine listed_reads.bind fun r => ?_
  split
  case _ => exact reads_pure
  case _ => split <;> exact reads_pure

theorem distribute_reads : Reads (distribute s out) := by
  unfold distribute
  refine (reads_ask _).bind fun r => ?_
  split
  case _ => exact reads_pure
  case _ =>
    split
    case _ => exact reads_pure
    case _ => split <;> exact reads_pure

theorem rollOut_reads (s : Service) (out : Outside) (pipe : Pipeline) : Reads (rollOut s out pipe) := by
  unfold rollOut
  split
  case _ => exact notifyEdge_reads
  case _ => exact distribute_reads

theorem redistribute_reads (s : Service) (out : Outside) (pipe : Pipeline) : Reads (redistribute s out pipe) := by
  unfold redistribute
  split
  case _ => exact rollOut_reads s out pipe
  case _ => exact reads_pure

end Reads

theorem createPipelineVersion_of_insert
    (h : insertVersion nv db = .ok (v, db')) : db.createPipelineVersion nv = .ok db' := by
  unfold insertVersion at h
  split at h
  case _ => cases h
  case _ db₁ hdb =>
    cases hv : db₁.versionByID nv.id
    case none => simp [hv] at h
    case some w =>
      simp only [hv, Option.elim_some, Except.ok.injEq, Prod.mk.injEq] at h
      rw [hdb, h.right]

theorem versionsOf_activateVersion (h : activateVersion pipelineID version db = .ok (pipe, db')) :
    db'.versionsOf pipelineID = db.versionsOf pipelineID := by
  unfold activateVersion at h
  split at h
  case _ => cases h
  case _ db₁ hdb =>
    have ⟨v, _, _, _, _, he⟩ := DB.activatePipelineVersion_eq_ok hdb
    cases hg : db₁.getPipeline pipelineID
    case error => simp [hg, Except.map] at h
    case ok =>
      simp only [hg, Except.map, Except.ok.injEq, Prod.mk.injEq] at h
      rw [← h.right, he, DB.versionsOf_setActive]

variable [Runtime]

theorem delete_cases (s : Service) (out : Outside) (hg : b.state.getPipeline pipelineID = .ok pipe) :
    (¬b.Clear 2 ∧ (∃ e, (delete s out pipelineID b).1 = .error e) ∧
      (delete s out pipelineID b).2.state = b.state) ∨ (b.Clear 2 ∧ (delete s out pipelineID b).1 = .ok () ∧
      b.state.deletePipeline pipelineID = .ok (delete s out pipelineID b).2.state) := by
  rw [Backend.clear_succ (s := b.state), Backend.clear_one]
  unfold delete
  cases hf : b.fault
  case some e =>
    simp only [run_bind, ask_of_some hf]
    exact .inl ⟨by simp, ⟨_, rfl⟩, rfl⟩
  case none =>
    simp only [run_bind, ask_of_none hf, hg]
    obtain ⟨e, hc, hno⟩ | ⟨db', hclear, hop, hc⟩ := change_cases (·.deletePipeline pipelineID) (b.after b.state)
    · simp only [hc]
      refine .inl ⟨fun h => ?_, ⟨_, rfl⟩, rfl⟩
      have ⟨p, hp, _⟩ := DB.getPipeline_eq_ok hg
      exact hno _ ⟨h.right, if_neg (by simp [Backend.after, hp])⟩
    · simp only [hc]
      have hr := redistribute_reads s out pipe ((b.after b.state).after db')
      exact .inr ⟨⟨trivial, hclear⟩, rfl, hop.trans (congrArg Except.ok hr.symm)⟩

theorem activate_cases (s : Service) (out : Outside) (b : Backend DB Store.Error) (pipelineID : UUID) (version : Nat) :
    ((∀ pipe db', ¬(b.Clear 1 ∧ activateVersion pipelineID version b.state = .ok (pipe, db'))) ∧
      (∃ e, (activate s out pipelineID version b).1 = .error e) ∧
      (activate s out pipelineID version b).2.state = b.state) ∨
    ∃ pipe db', b.Clear 1 ∧ activateVersion pipelineID version b.state = .ok (pipe, db') ∧
      (activate s out pipelineID version b).1.isOk = (rollOut s out pipe (b.after db')).1.isOk ∧
      (activate s out pipelineID version b).2.state = db' := by
  rw [Backend.clear_one]
  unfold activate
  obtain ⟨e, hc, hno⟩ | ⟨pipe, db', hclear, hop, hc⟩ := call_cases (activateVersion pipelineID version) b
  · simp only [run_bind, hc]
    exact .inl ⟨hno, ⟨_, rfl⟩, rfl⟩
  · simp only [run_bind, hc]
    have hr := rollOut_reads s out pipe (b.after db')
    refine .inr ⟨pipe, db', hclear, hop, ?_⟩
    cases hroll : (rollOut s out pipe (b.after db')).1
    case error | ok => exact ⟨rfl, hr⟩

theorem createVersion_cases (a : VersionArgs) :
    ((∃ e, (createVersion s a b).1 = .error e) ∧ (createVersion s a b).2.state = b.state) ∨
    ((∃ res, (createVersion s a b).1 = .ok (.invalid res)) ∧ (createVersion s a b).2.state = b.state) ∨
    ∃ v nv, (createVersion s a b).1 = .ok (.stored v) ∧ nv.pipelineID = a.pipelineID ∧
      b.state.createPipelineVersion nv = .ok (createVersion s a b).2.state := by
  unfold createVersion
  simp only [run_bind, ask_state]
  cases hg : (ask (·.getPipeline a.pipelineID) b).1
  case error e => exact .inl ⟨⟨_, rfl⟩, rfl⟩
  case ok pipe =>
    have hprev := previousGraph_reads pipe (b.after b.state)
    cases hp : (previousGraph pipe (b.after b.state)).1
    case error e =>
      simp only [run_bind, hp]
      exact .inl ⟨⟨_, rfl⟩, hprev⟩
    case ok prev =>
      simp only [run_bind, hp]
      generalize hb₁ : (previousGraph pipe (b.after b.state)).2 = b₁ at hprev ⊢
      have hprep := prepare_reads (s := s) (c := a.candidate pipe prev) b₁
      generalize hb₂ : prepare s (a.candidate pipe prev) b₁ = r at hprep ⊢
      obtain ⟨r, b₂⟩ := r
      have hstate : b₂.state = b.state := hprep.trans hprev
      match r with
      | .error e => exact .inl ⟨⟨_, rfl⟩, hstate⟩
      | .ok (.invalid res) => exact .inr (.inl ⟨⟨_, rfl⟩, hstate⟩)
      | .ok (.version nv res) =>
        obtain ⟨e, hc, -⟩ | ⟨v, db', -, hop, hc⟩ :=
          call_cases (insertVersion { nv with pipelineID := a.pipelineID }) b₂
        · simp only [run_bind, hc]
          exact .inl ⟨⟨_, rfl⟩, hstate⟩
        · simp only [run_bind, hc]
          refine .inr (.inr ⟨v, { nv with pipelineID := a.pipelineID }, rfl, rfl, ?_⟩)
          rw [← hstate]
          exact createPipelineVersion_of_insert hop

section Faultless

theorem rollOut_faultless (hf : b.fault = none) :
    (rollOut s out pipe b).1 = (Pipelines.rollOut s out b.state pipe).1 := by
  unfold rollOut Pipelines.rollOut
  split
  case _ =>
    unfold notifyEdge Pipelines.notifyEdge
    cases out.notifier pipe.customerID
    case some => rfl
    case none =>
      simp only [run_bind, countEdgeAgents, ask_of_none hf]
      rfl
  case _ =>
    simp only [distribute, run_bind, ask_of_none hf, Pipelines.distribute, renderCurrent]
    cases activeRenderPipelines s none (b.state.listActivePipelines .forwarding none)
    case error => rfl
    case ok inputs =>
      cases hr : renderForwardingConfig inputs
      case error | ok => simp only [hr]; rfl

theorem delete_faultless (h : b.faults = []) :
    (delete s out pipelineID b).1 = (Pipelines.delete s out b.state pipelineID).result ∧
      (delete s out pipelineID b).2.state = (Pipelines.delete s out b.state pipelineID).db := by
  have hf : b.fault = none := by rw [Backend.fault, h]; rfl
  unfold Pipelines.delete
  cases hg : b.state.getPipeline pipelineID
  case error e =>
    unfold delete
    simp only [run_bind, ask_of_none hf, hg]
    exact ⟨rfl, rfl⟩
  case ok pipe =>
    obtain ⟨hc, -⟩ | ⟨-, hr, hd⟩ := delete_cases s out hg
    · exact absurd (by simp [Backend.Clear, h]) hc
    · simp only [hr, hd]
      exact ⟨trivial, trivial⟩

theorem activate_faultless (h : b.faults = []) (version : Nat) :
    (activate s out pipelineID version b).1 = (Pipelines.activate s out b.state pipelineID version).result ∧
      (activate s out pipelineID version b).2.state = (Pipelines.activate s out b.state pipelineID version).db := by
  have hf : b.fault = none := by rw [Backend.fault, h]; rfl
  unfold Pipelines.activate activate
  cases ha : b.state.activatePipelineVersion pipelineID version
  case error e =>
    have hc : call (activateVersion pipelineID version) b = (.error e, b.after b.state) := by
      simp only [call, hf, activateVersion, ha]
    simp only [run_bind, hc]
    exact ⟨rfl, rfl⟩
  case ok db' =>
    cases hg : db'.getPipeline pipelineID
    case error e =>
      have hc : call (activateVersion pipelineID version) b = (.error e, b.after b.state) := by
        simp only [call, hf, activateVersion, ha, hg, Except.map]
      simp only [run_bind, hc, hg]
      exact ⟨rfl, rfl⟩
    case ok pipe =>
      have hc : call (activateVersion pipelineID version) b = (.ok pipe, b.after db') := by
        simp only [call, hf, activateVersion, ha, hg, Except.map]
      have hfault : (b.after db').fault = none := by simp [Backend.fault, Backend.after, h]
      have hroll : (rollOut s out pipe (b.after db')).1 = (Pipelines.rollOut s out db' pipe).1 :=
        rollOut_faultless hfault
      have hstate := rollOut_reads s out pipe (b.after db')
      simp only [run_bind, hc, hg, hroll]
      cases (Pipelines.rollOut s out db' pipe).1
      case error | ok => exact ⟨rfl, hstate⟩

end Faultless

end Pipelines.Unreliable
