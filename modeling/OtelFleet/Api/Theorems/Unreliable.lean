import OtelFleet.Api.Unreliable
import OtelFleet.Pipelines.Theorems.Convergence
import OtelFleet.Pipelines.Theorems.Unreliable

open Store (UUID DB)
open Pipelines (Service Outside VersionArgs OpError Rollout rotatedDB)
open Pipelines.Unreliable (Calls activateVersion createVersion rollOut versionsOf_activateVersion)
open Faults (ask ask_of_none ask_of_some call_cases run_bind run_pure)

-- What the handlers show and change of a pipeline that a principal has no access to.
namespace Api.Unreliable

abbrev Backend := Faults.Backend DB Store.Error

-- A pipeline and its versions are as they were, and nothing of them is in the reply.
structure Sealed (db : DB) (pipelineID : UUID) (r : Reply × Backend) : Prop where
  pipeline : r.2.state.pipeline? pipelineID = db.pipeline? pipelineID
  versions : r.2.state.versionsOf pipelineID = db.versionsOf pipelineID
  reply : r.1.isError

section Handlers

theorem Sealed.of_state (hs : r.2.state = db) (hr : r.1.isError) : Sealed db pipelineID r :=
  ⟨hs ▸ rfl, hs ▸ rfl, hr⟩

theorem withPipeline_sealed
    (hg : b.state.getPipeline pipelineID = .ok pipe) (hwho : who.canAccessCustomer pipe.customerID = false) :
    Sealed b.state pipelineID (withPipeline (some who) pipelineID next b) := by
  unfold withPipeline
  cases hf : b.fault
  case none =>
    have hno : (!requireCustomerAccess (some who) pipe.customerID) = true := by
      simp [requireCustomerAccess, hwho]
    simp only [run_bind, ask_of_none hf, hg, if_pos hno]
    exact .of_state rfl rfl
  case some e =>
    simp only [run_bind, ask_of_some hf]
    cases e <;> exact .of_state rfl rfl

theorem getPipelineStageStats_sealed (hg : b.state.getPipeline pipelineID = .ok pipe)
    (hwho : who.canAccessCustomer pipe.customerID = false) :
    Sealed b.state pipelineID (getPipelineStageStats (some who) stats pipelineID fromTime toTime b) := by
  unfold getPipelineStageStats
  split
  case _ => exact .of_state rfl rfl
  case _ => exact withPipeline_sealed hg hwho

theorem checked_eq (hg : b.state.getPipeline pipelineID = .ok pipe)
    (hwho : who.canAccessCustomer pipe.customerID = false) :
    checked (some who) pipelineID op b =
      if b.fault = none then (.basic forbidden, b.after b.state) else op (b.after b.state) := by
  have hscoped : ¬(some who).all (·.allCustomers) := by
    rw [Principal.canAccessCustomer, Bool.or_eq_false_iff] at hwho
    simp [hwho.left]
  have haccess : requirePipelineAccess (some who) pipelineID b = (b.fault.isSome, b.after b.state) := by
    unfold requirePipelineAccess
    rw [if_neg hscoped]
    cases hf : b.fault
    case none =>
      simp only [run_bind, ask_of_none hf, hg, run_pure, requireCustomerAccess, Option.all_some, hwho]
      rfl
    case some e =>
      simp only [run_bind, ask_of_some hf, run_pure]
      rfl
  unfold checked
  rw [run_bind, haccess]
  cases b.fault <;> rfl

theorem checked_sealed_iff (hg : b.state.getPipeline pipelineID = .ok pipe)
    (hwho : who.canAccessCustomer pipe.customerID = false)
    (h : Sealed b.state pipelineID (op (b.after b.state)) ↔ ¬passes) :
    Sealed b.state pipelineID (checked (some who) pipelineID op b) ↔ b.fault = none ∨ ¬passes := by
  rw [checked_eq hg hwho]
  by_cases hf : b.fault = none
  · rw [if_pos hf]
    exact iff_of_true (.of_state rfl rfl) (.inl hf)
  · rw [if_neg hf, or_iff_right hf]
    exact h

theorem getPipelineVersion_sealed_iff :
    Sealed b.state pipelineID (getPipelineVersion pipelineID version b) ↔
      ¬(b.Clear 1 ∧ ∃ v, b.state.getPipelineVersion pipelineID version = .ok v ∧ (toVersion v).isOk) := by
  rw [Faults.Backend.clear_one]
  unfold getPipelineVersion
  cases hf : b.fault
  case some e =>
    simp only [run_bind, ask_of_some hf, reduceCtorEq, false_and, not_false_eq_true, iff_true]
    cases e <;> exact .of_state rfl rfl
  case none =>
    simp only [run_bind, ask_of_none hf, true_and]
    cases hv : b.state.getPipelineVersion pipelineID version
    case error e =>
      simp only [reduceCtorEq, false_and, exists_false, not_false_eq_true, iff_true]
      cases e <;> exact .of_state rfl rfl
    case ok v =>
      simp only [Except.ok.injEq, exists_eq_left', run_pure, versionResponse]
      cases ht : toVersion v
      case error => exact iff_of_true (.of_state rfl rfl) (by simp [Except.isOk, Except.toBool])
      case ok => exact iff_of_false (fun h => by cases h.reply) (by simp [Except.isOk, Except.toBool])

theorem isError_deleteReply (e : OpError) : (deleteReply (.error e)).isError := by
  unfold deleteReply
  split <;> trivial

theorem isError_versionReply (e : OpError) : (versionReply (.error e)).isError := by
  unfold versionReply
  split <;> trivial

theorem isError_activateReply : (activateReply version r).isError ↔ ¬r.isOk := by
  unfold activateReply
  split <;> simp [Reply.isError, Except.isOk, Except.toBool, notFound, badRequest, internalError]

variable [Runtime]

theorem deletePipeline_sealed_iff (hg : b.state.getPipeline pipelineID = .ok pipe) :
    Sealed b.state pipelineID (deletePipeline s out pipelineID b) ↔ ¬b.Clear 2 := by
  unfold deletePipeline
  rw [run_bind, run_pure]
  obtain ⟨hc, ⟨e, he⟩, hs⟩ | ⟨hc, hok, -⟩ := Pipelines.Unreliable.delete_cases s out hg
  · rw [he]
    exact iff_of_true (.of_state hs (isError_deleteReply e)) hc
  · rw [hok]
    exact iff_of_false (fun h => by cases h.reply) (not_not_intro hc)

theorem createPipelineVersion_sealed_iff (a : VersionArgs) :
    Sealed b.state a.pipelineID (createPipelineVersion s a b) ↔ ¬(createVersion s a b).1.isOk := by
  unfold createPipelineVersion
  rw [run_bind, run_pure]
  obtain ⟨⟨e, he⟩, hs⟩ | ⟨⟨res, hr⟩, -⟩ | ⟨v, nv, hr, hid, hdb⟩ :=
    Pipelines.Unreliable.createVersion_cases (s := s) (b := b) a
  · rw [he]
    exact iff_of_true (.of_state hs (isError_versionReply e)) (by simp [Except.isOk, Except.toBool])
  · rw [hr]
    exact iff_of_false (fun h => by cases h.reply) (by simp [Except.isOk, Except.toBool])
  · refine iff_of_false (fun h => ?_) (by simp [hr, Except.isOk, Except.toBool])
    -- The pipeline has one version more.
    have ⟨n, hn⟩ := DB.versionsOf_createPipelineVersion hdb
    have hlen := congrArg List.length (hn.symm.trans (hid ▸ h.versions))
    simp at hlen

theorem activatePipelineVersion_sealed_iff :
    Sealed b.state pipelineID (activatePipelineVersion s out pipelineID version b) ↔
      ¬(b.Clear 1 ∧ ∃ pipe db', activateVersion pipelineID version b.state = .ok (pipe, db') ∧
        (db'.pipeline? pipelineID ≠ b.state.pipeline? pipelineID ∨ (rollOut s out pipe (b.after db')).1.isOk)) := by
  unfold activatePipelineVersion
  rw [run_bind, run_pure]
  obtain ⟨hno, ⟨e, he⟩, hs⟩ | ⟨pipe, db', hc, ha, hr, hs⟩ :=
    Pipelines.Unreliable.activate_cases s out b pipelineID version
  · refine iff_of_true (.of_state hs ?_) fun ⟨hc, pipe, db', ha, _⟩ => hno pipe db' ⟨hc, ha⟩
    rw [isError_activateReply, he]
    simp [Except.isOk, Except.toBool]
  · simp only [hc, ha, true_and, Except.ok.injEq, Prod.mk.injEq]
    constructor
    case mp =>
      rintro h ⟨_, _, ⟨rfl, rfl⟩, hp | hroll⟩
      · exact hp (hs ▸ h.pipeline)
      · exact isError_activateReply.mp h.reply (hr.trans hroll)
    case mpr =>
      intro h
      have hp : db'.pipeline? pipelineID = b.state.pipeline? pipelineID :=
        not_not.mp fun hp => h ⟨pipe, db', ⟨rfl, rfl⟩, .inl hp⟩
      refine ⟨hs ▸ hp, hs ▸ versionsOf_activateVersion ha, ?_⟩
      exact isError_activateReply.mpr fun hok => h ⟨pipe, db', ⟨rfl, rfl⟩, .inr (hr ▸ hok)⟩

end Handlers

-- The operation behind the check goes through, with the failures that are left after it.
def Passes [Runtime] (srv : Server) (b : Backend) : Request → Prop
  | .getPipeline _ => False
  | .deletePipeline _ => b.Clear 2
  | .createPipelineVersion a => (createVersion srv.service a b).1.isOk
  | .getPipelineVersion id version =>
    b.Clear 1 ∧ ∃ v, b.state.getPipelineVersion id version = .ok v ∧ (toVersion v).isOk
  | .activatePipelineVersion id version =>
    b.Clear 1 ∧ ∃ pipe db', activateVersion id version b.state = .ok (pipe, db') ∧
      (db'.pipeline? id ≠ b.state.pipeline? id ∨ (rollOut srv.service srv.outside pipe (b.after db')).1.isOk)
  | .getPipelineStageStats _ _ _ => False

theorem tenant_scope_iff [Runtime] (srv : Server) (who : Principal) (r : Request) (db : DB)
    (faults : List (Option Store.Error)) {pipe : Store.Pipeline} (hg : db.getPipeline r.pipelineID = .ok pipe)
    (hwho : who.canAccessCustomer pipe.customerID = false) :
    let b : Backend := { state := db, faults := faults }
    Sealed db r.pipelineID (respond (some who) srv r b) ↔ b.fault = none ∨ ¬Passes srv (b.after db) r := by
  intro b
  cases r
  case getPipeline => exact iff_of_true (withPipeline_sealed (b := b) hg hwho) (.inr not_false)
  case deletePipeline =>
    exact checked_sealed_iff (b := b) hg hwho (deletePipeline_sealed_iff (b := b.after db) hg)
  case createPipelineVersion a =>
    exact checked_sealed_iff (b := b) hg hwho (createPipelineVersion_sealed_iff (b := b.after db) a)
  case getPipelineVersion =>
    exact checked_sealed_iff (b := b) hg hwho (getPipelineVersion_sealed_iff (b := b.after db))
  case activatePipelineVersion =>
    exact checked_sealed_iff (b := b) hg hwho (activatePipelineVersion_sealed_iff (b := b.after db))
  case getPipelineStageStats =>
    exact iff_of_true (getPipelineStageStats_sealed (b := b) hg hwho) (.inr not_false)

section Sample

def plainServer : Server where
  service := Pipelines.sampleService
  outside := { distributor := fun _ => .error "unreachable", notifier := fun _ => none, edgeAgents := fun _ => (0, 0) }
  stats _ := .error .upstreamUnavailable

def stranger : Principal :=
  { userID := some 5, allCustomers := false, allowedCustomers := [2] }

-- The check goes through, and the delete itself would have failed.
theorem stranger_kept_out :
    letI := Runtime.sample
    let faults := [none, none, some (.failed "timeout")]
    Sealed rotatedDB 10
      (respond (some stranger) plainServer (.deletePipeline 10) { state := rotatedDB, faults := faults }) :=
  (@tenant_scope_iff Runtime.sample plainServer stranger (.deletePipeline 10) rotatedDB _
    _ rfl rfl).mpr (.inl rfl)

-- The load of the check times out, and the pipeline is deleted.
theorem stranger_deletes :
    letI := Runtime.sample
    let r := respond (some stranger) plainServer (.deletePipeline 10)
      { state := rotatedDB, faults := [some (.failed "timeout")] }
    ((rotatedDB.getPipeline 10).toOption.any (!stranger.canAccessCustomer ·.customerID)) ∧
      r.2.state.pipelines = [] ∧ r.2.state.versions = [] ∧ ¬Sealed rotatedDB 10 r :=
  ⟨rfl, rfl, rfl, fun h => by cases h.reply⟩

end Sample

end Api.Unreliable
