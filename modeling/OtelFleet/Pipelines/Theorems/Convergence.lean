import OtelFleet.Pipelines.Theorems.Calls
import OtelFleet.Pipelines.Theorems.Served
import OtelFleet.Store.Theorems.Listing

open Store (UUID DB)

-- Whether the config that the distributor was handed last is the one that the database stands for.
namespace Pipelines

def Call.Pending : Call → Prop
  | .render => True
  | .distribute _ _ => True
  | _ => False

theorem Call.Pending.not_idle {k : Call} (h : k.Pending) : ¬k.isIdle := by
  cases k
  case render | distribute => nofun
  all_goals cases h

section Handover

variable [Runtime]

-- The database renders to what was handed over last or, if nothing was, to what it used to.
def Settled (s : Service) (initial : Except String String) (w : World) : Prop :=
  renderCurrent s w.db = w.handed.elim initial .ok

-- A config is handed over while the listing that it was rendered from is still the current one, a
-- pipeline that is deleted without a new config is not part of the current one, and rendering does
-- not fail.
def Undisturbed (s : Service) (w : World) : Call → Prop
  | .distribute active _ => w.db.listActivePipelines .forwarding none = active
  | .deleteRow pipe =>
    ¬(pipe.activeVersionID.isSome ∧ pipe.targetClass ≠ .edge) →
      ∀ p, w.db.pipeline? pipe.id = some p → p.activeVersionID = none ∨ p.targetClass ≠ .forwarding
  | .render => ∃ full, renderCurrent s w.db = .ok full
  | _ => True

def Rendered (s : Service) : Call → Prop
  | .distribute active full =>
    ∃ inputs, activeRenderPipelines s none active = .ok inputs ∧ renderForwardingConfig inputs = .ok full
  | _ => True

section Steps

theorem Settled.congr (h : Settled s initial w) (hh : w'.handed = w.handed)
    (hl : w'.db.listActivePipelines .forwarding none = w.db.listActivePipelines .forwarding none) :
    Settled s initial w' := by
  rw [Settled, renderCurrent, hl, hh]
  exact h

theorem Call.Step.rendered (h : Call.Step s w k k' w') : Rendered s k' := by
  cases h
  case render inputs full hi hf => exact ⟨inputs, hi, hf⟩
  case activate | delete => split_ifs <;> trivial
  all_goals trivial

theorem Call.Step.settles (h : Call.Step s w k k' w') (initial : Except String String) (hw : w.db.WF) (hk : Rendered s k)
    (hok : Undisturbed s w k) :
    k'.Pending ∨ Settled s initial w' ∨ ¬k.Pending ∧ (Settled s initial w → Settled s initial w') := by
  cases h
  case stop hd hr =>
    refine .inr (.inr ⟨fun hp => ?_, id⟩)
    cases k
    case render =>
      have ⟨full, hf⟩ := hok
      exact hr rfl full hf
    case distribute active full => exact hd active full rfl
    all_goals exact hp
  case insert h => exact .inr (.inr ⟨id, fun hs => hs.congr rfl (hw.listActivePipelines_create h)⟩)
  case insertVersion h => exact .inr (.inr ⟨id, fun hs => hs.congr rfl (hw.listActivePipelines_version h)⟩)
  case activate pipelineID number db pipe h hp =>
    split_ifs with he
    · refine .inr (.inr ⟨id, fun hs => hs.congr rfl (hw.listActivePipelines_activate h ?_)⟩)
      intro p hpm hid
      rw [(DB.activate_scope hw h hp p hpm hid).left, he]
      simp
    · exact .inl trivial
  case delete pipe db h =>
    split_ifs with ha
    · exact .inl trivial
    · refine .inr (.inr ⟨id, fun hs => hs.congr rfl (hw.listActivePipelines_delete h fun p hp => ?_)⟩)
      exact (hok ha p hp).imp_right fun hne hin => hne hin.left
  case render => exact .inl trivial
  case distribute active full =>
    have ⟨inputs, hi, hr⟩ := hk
    refine .inr (.inl ?_)
    rw [Settled, renderCurrent, hok, hi]
    exact hr
  all_goals exact .inr (.inr ⟨id, id⟩)

end Steps

-- As long as not everything is settled, some call will still hand over a config.
structure Converging (s : Service) (initial : Except String String) (c : Interleave.Config Call World) : Prop where
  wf : c.shared.db.WF
  rendered : ∀ i, Rendered s (c.calls i)
  settled : (∃ i, (c.calls i).Pending) ∨ Settled s initial c.shared

section Runs

theorem Converging.start (h : Converging s initial c) (i : Nat) (op : Op) (hi : (c.calls i).isIdle) :
    Converging s initial { c with calls := Function.update c.calls i op.begin } := by
  constructor
  case wf => exact h.wf
  case rendered =>
    intro j
    by_cases hj : j = i
    · simp only [hj, Function.update_self]
      cases op <;> trivial
    · simpa only [Function.update_of_ne hj] using h.rendered j
  case settled =>
    refine h.settled.imp_left ?_
    rintro ⟨j, hj⟩
    have hne : j ≠ i := fun he => hj.not_idle (he ▸ hi)
    exact ⟨j, by simpa only [Function.update_of_ne hne] using hj⟩

theorem Converging.step (h : Converging s initial c) (i : Nat) (hok : Undisturbed s c.shared (c.calls i)) :
    Converging s initial ((calls s).act c (.run i ())) := by
  have hstep := (c.calls i).step_spec s c.shared
  constructor
  case wf => exact hstep.wf h.wf
  case rendered =>
    intro j
    by_cases hj : j = i
    · rw [hj, Interleave.System.calls_act_self]
      exact hstep.rendered
    · rw [Interleave.System.calls_act_of_ne hj]
      exact h.rendered j
  case settled =>
    obtain hp | hs | ⟨hp, hs⟩ := hstep.settles initial h.wf (h.rendered i) hok
    · exact .inl ⟨i, by rw [Interleave.System.calls_act_self]; exact hp⟩
    · exact .inr hs
    · refine h.settled.imp ?_ hs
      -- The call that is still going to hand over a config is another one.
      rintro ⟨j, hj⟩
      have hne : j ≠ i := fun he => hp (he ▸ hj)
      exact ⟨j, by rwa [Interleave.System.calls_act_of_ne hne]⟩

end Runs

-- In every run in which no config is overtaken and no activation is missed by a deletion, once all
-- calls have returned, the config that was handed over last is what the database renders to.
theorem handed_of_undisturbed (s : Service) (db : DB) (hdb : db.WF) (events : List (Interleave.Event Op Unit))
    (hok : (calls s).Meets (Undisturbed s) ((calls s).init { db := db }) events)
    (hidle : ∀ i, ((after s db events).calls i).isIdle) :
    renderCurrent s (after s db events).shared.db =
      (after s db events).shared.handed.elim (renderCurrent s db) .ok := by
  have hinit : Converging s (renderCurrent s db) ((calls s).init { db := db }) :=
    ⟨hdb, fun _ => trivial, .inr rfl⟩
  have hrun := Interleave.System.run_invariant hinit (fun c i r hc => hc.start i r)
    (fun c i _ hc => hc.step i) hok
  obtain ⟨i, hp⟩ | hs := hrun.settled
  · exact absurd (hidle i) hp.not_idle
  · exact hs

end Handover

section Sample

open Interleave (Event)

def storedVersion (id : UUID) (version : Nat) (password : String) : Store.VersionRow where
  id := id
  pipelineID := 10
  version := version
  graph := .graph (sampleGraph [clickhouse (sampleSecret password)])
  renderedYAML := ""
  configHash := []
  validationStatus := .valid
  validationOutput := none
  createdBy := none

def rotatedDB : DB :=
  { sampleDB with
    pipelines := [{
      id := 10, customerID := 1, name := "Backup", targetClass := .forwarding, activeVersionID := none }]
    versions := [storedVersion 20 1 "alpha", storedVersion 21 2 "beta"] }

theorem rotatedDB_wf : rotatedDB.WF where
  pipelineIDs := by decide
  versionIDs := by decide
  owned := by
    rintro v (_ | ⟨_, _ | ⟨_, ⟨⟩⟩⟩) <;> exact ⟨_, List.mem_singleton.mpr rfl, rfl⟩
  numbered := by
    rintro p (_ | ⟨_, ⟨⟩⟩)
    exact ⟨2, by decide, .refl [1, 2]⟩
  active := by
    rintro p (_ | ⟨_, ⟨⟩⟩) id ⟨⟩

theorem idle_of_unused [Runtime] {s : Service} {db : DB} {events : List (Event Op Unit)} {n : Nat}
    (hslots : ∀ e ∈ events, e.slot < n) (h : ∀ i < n, ((after s db events).calls i).isIdle) (i : Nat) :
    ((after s db events).calls i).isIdle := by
  by_cases hi : i < n
  · exact h i hi
  · rw [after, Interleave.System.calls_run_of_unused fun e he => by have := hslots e he; omega]
    rfl

-- Both calls render what the second of them has activated.
def activatedSideBySide : List (Event Op Unit) :=
  [.start 0 (.activate 10 1), .start 1 (.activate 10 2), .run 0 (), .run 1 (), .run 0 (), .run 1 (),
    .run 1 (), .run 0 ()]

theorem activated_side_by_side_handed_over :
    letI := Runtime.sample
    let c := after sampleService rotatedDB activatedSideBySide
    c.shared.handed.isSome ∧
      renderCurrent sampleService c.shared.db = c.shared.handed.elim (renderCurrent sampleService rotatedDB) .ok := by
  refine ⟨by decide +kernel, @handed_of_undisturbed Runtime.sample sampleService rotatedDB rotatedDB_wf
    activatedSideBySide ⟨trivial, trivial, trivial, trivial, ⟨_, rfl⟩, ⟨_, rfl⟩, rfl, rfl, trivial⟩
    (@idle_of_unused Runtime.sample _ _ _ 2 ?_ ?_)⟩
  · decide
  · decide +kernel

def overtaken : List (Event Op Unit) :=
  [.start 0 (.activate 10 1), .start 1 (.activate 10 2), .run 0 (), .run 0 (), .run 1 (), .run 1 (),
    .run 1 (), .run 0 ()]

theorem overtaken_config_is_stale :
    letI := Runtime.sample
    let c := after sampleService rotatedDB overtaken
    rotatedDB.WF ∧ (∀ i, (c.calls i).isIdle) ∧ c.shared.handed.isSome ∧
      renderCurrent sampleService c.shared.db ≠
        c.shared.handed.elim (renderCurrent sampleService rotatedDB) .ok := by
  refine ⟨rotatedDB_wf, @idle_of_unused Runtime.sample _ _ _ 2 ?_ ?_, ?_, ?_⟩
  · decide
  all_goals decide +kernel

end Sample

end Pipelines
