import OtelFleet.Lib.Runs
import OtelFleet.Opamp.Handler
import Mathlib.Data.List.Induction

-- What the reports of one agent are meant to leave behind.
namespace Opamp

open Store (Hash RemoteConfigStatus AgentEventType)

abbrev Reported := RemoteConfigStatus × Hash

def RemoteConfigReport.reported (rcs : RemoteConfigReport) : Reported :=
  (rcs.status, rcs.lastRemoteConfigHash)

structure Attempt where
  report : RemoteConfigReport
  stored : Bool

structure StatusLog where
  known : Reported
  events : List (AgentEventType × List (String × String))
  failures : List (List (String × String))

namespace StatusLog

def isNew (l : StatusLog) (rcs : RemoteConfigReport) : Bool :=
  rcs.lastRemoteConfigHash ≠ [] ∧ rcs.lastRemoteConfigHash ≠ l.known.2

def acked (l : StatusLog) (rcs : RemoteConfigReport) : Hash :=
  if rcs.lastRemoteConfigHash ≠ [] ∨ rcs.status = .unset then rcs.lastRemoteConfigHash else l.known.2

def isRepeat (l : StatusLog) (rcs : RemoteConfigReport) : Bool :=
  rcs.status = l.known.1 ∧ ¬(l.isNew rcs ∧ terminal rcs.status)

-- What is recorded of a report: the hash it is about and, for a failure, the error that it names.
def detail (rcs : RemoteConfigReport) (error : String) : List (String × String) :=
  ("hash", encodeHex rcs.lastRemoteConfigHash) :: if error = "" then [] else [("error", error)]

def event? (rcs : RemoteConfigReport) : Option (AgentEventType × List (String × String)) :=
  match rcs.status with
  | .applied => some (.configApplied, detail rcs "")
  | .failed => some (.configFailed, detail rcs rcs.errorMessage)
  | .unset | .applying => none

def failure? (rcs : RemoteConfigReport) : Option (List (String × String)) :=
  match rcs.status with
  | .failed => some (detail rcs rcs.errorMessage)
  | .unset | .applying | .applied => none

theorem event?_eq (rcs : RemoteConfigReport) : event? rcs = (statusEvent rcs).map fun e => (e, statusDetail rcs) := by
  simp only [event?, statusEvent, statusDetail, statusError, detail]
  cases hstatus : rcs.status
  case failed => by_cases he : rcs.errorMessage = "" <;> simp [he]
  all_goals simp

theorem failure?_eq (rcs : RemoteConfigReport) :
    failure? rcs = if rcs.status = .failed then some (statusDetail rcs) else none := by
  simp only [failure?, statusDetail, statusError, detail]
  cases hstatus : rcs.status
  case failed => by_cases he : rcs.errorMessage = "" <;> simp [he]
  all_goals simp

def handle (l : StatusLog) (a : Attempt) : StatusLog :=
  if l.isRepeat a.report ∨ ¬a.stored then { l with known := (l.known.1, l.acked a.report) }
  else
    { known := (a.report.status, l.acked a.report)
      events := l.events ++ (event? a.report).toList
      failures := l.failures ++ (failure? a.report).toList }

def handleAll (l : StatusLog) (as : List Attempt) : StatusLog :=
  as.foldl handle l

variable {l : StatusLog} {a : Attempt}

theorem handleAll_concat : l.handleAll (as ++ [a]) = (l.handleAll as).handle a :=
  List.foldl_concat ..

theorem isRepeat_iff : l.isRepeat rcs ↔ rcs.status = l.known.1 ∧ ¬(l.isNew rcs ∧ terminal rcs.status) :=
  decide_eq_true_iff

theorem handle_of_skip {stored : Bool} (h : l.isRepeat rcs ∨ ¬stored) :
    l.handle { report := rcs, stored := stored } = { l with known := (l.known.1, l.acked rcs) } :=
  if_pos h

theorem handle_of_stored {stored : Bool} (hrepeat : ¬l.isRepeat rcs) (hstored : stored) :
    l.handle { report := rcs, stored := stored } =
      { known := (rcs.status, l.acked rcs)
        events := l.events ++ (event? rcs).toList
        failures := l.failures ++ (failure? rcs).toList } :=
  if_neg (not_or.mpr ⟨hrepeat, not_not.mpr hstored⟩)

def Regular (rcs : RemoteConfigReport) : Prop :=
  rcs.lastRemoteConfigHash ≠ [] ∨ rcs.status = .unset

instance : DecidablePred Regular :=
  fun rcs => inferInstanceAs <| Decidable <| rcs.lastRemoteConfigHash ≠ [] ∨ rcs.status = .unset

theorem not_recorded (h : ¬terminal rcs.status) : event? rcs = none ∧ failure? rcs = none := by
  cases hstatus : rcs.status
  all_goals simp_all [terminal, event?, failure?]

theorem ne_append_event? (h : terminal rcs.status)
    (events : List (AgentEventType × List (String × String))) : events ≠ events ++ (event? rcs).toList := by
  cases hstatus : rcs.status
  all_goals simp_all [terminal, event?]

-- A regular report that is stored is what is known then, and it is recorded unless it repeats the one before.
theorem handle_regular (hstored : a.stored) (hreg : Regular a.report) :
    l.handle a =
      { known := a.report.reported
        events := l.events ++ (if a.report.reported = l.known then [] else [a.report]).filterMap event?
        failures := l.failures ++ (if a.report.reported = l.known then [] else [a.report]).filterMap failure? } := by
  have hacked : l.acked a.report = a.report.lastRemoteConfigHash := if_pos hreg
  unfold handle
  rw [hacked]
  by_cases hrepeat : l.isRepeat a.report
  case pos =>
    rw [if_pos (.inl hrepeat)]
    simp only [isRepeat, decide_eq_true_eq] at hrepeat
    obtain ⟨hstatus, hnew⟩ := hrepeat
    rw [← hstatus]
    split_ifs with heq
    · simp [RemoteConfigReport.reported]
    · -- The hash is another one, so the status is not one of those that are recorded.
      have hterminal : ¬terminal a.report.status := by
        intro hterminal
        refine hnew ⟨?_, hterminal⟩
        have hhash : a.report.lastRemoteConfigHash ≠ l.known.2 := fun h => heq (Prod.ext hstatus h)
        have hne : a.report.lastRemoteConfigHash ≠ [] := by
          obtain h | h := hreg
          · exact h
          · rw [h] at hterminal
            cases hterminal
        simpa [isNew] using ⟨hne, hhash⟩
      obtain ⟨hevent, hfailure⟩ := not_recorded hterminal
      simp [RemoteConfigReport.reported, hevent, hfailure]
  case neg =>
    rw [if_neg (by simp [hrepeat, hstored])]
    have heq : a.report.reported ≠ l.known := by
      intro heq
      refine hrepeat ?_
      simp [isRepeat, isNew, ← heq, RemoteConfigReport.reported]
    rw [if_neg heq]
    simp only [RemoteConfigReport.reported, List.filterMap_cons, List.filterMap_nil, mk.injEq, true_and,
      List.append_cancel_left_eq]
    constructor
    · cases event? a.report <;> rfl
    · cases failure? a.report <;> rfl

-- Each run of the same status and hash is recorded once, if that status is one of those that are recorded.
theorem handleAll_regular (hstored : ∀ a ∈ as, a.stored) (hreg : ∀ a ∈ as, Regular a.report) :
    l.handleAll as =
      { known := Runs.current RemoteConfigReport.reported l.known (as.map (·.report))
        events := l.events ++ (Runs.starts RemoteConfigReport.reported l.known (as.map (·.report))).filterMap event?
        failures := l.failures ++
          (Runs.starts RemoteConfigReport.reported l.known (as.map (·.report))).filterMap failure? } := by
  induction as using List.reverseRecOn
  case nil => simp [handleAll, Runs.current, Runs.starts]
  case append_singleton as a hi =>
    rw [List.forall_mem_append, List.forall_mem_singleton] at hstored hreg
    rw [handleAll_concat, hi hstored.left hreg.left, handle_regular hstored.right hreg.right]
    simp only [List.map_append, List.map_cons, List.map_nil, Runs.current_concat, Runs.starts_concat,
      List.filterMap_append, List.append_assoc]

section Repeated

theorem isNew_eq : l.isNew rcs ↔ rcs.lastRemoteConfigHash ≠ [] ∧ rcs.lastRemoteConfigHash ≠ l.known.2 := by
  simp [isNew]

theorem handleAll_of_repeated (hstatus : reported.1 = l.known.1) (hhash : reported.2 = [] ∨ reported.2 = l.known.2)
    (hsame : ∀ a ∈ as, a.report.reported = reported) (hterminal : terminal reported.1) : l.handleAll as = l := by
  induction as
  case nil => rfl
  case cons a as hi =>
    rw [List.forall_mem_cons] at hsame
    obtain ⟨rfl, hsame⟩ := hsame
    have hrepeat : l.isRepeat a.report := by
      simp only [isRepeat, isNew_eq, decide_eq_true_eq]
      refine ⟨hstatus, fun hnew => ?_⟩
      exact hhash.elim hnew.left.left hnew.left.right
    have hacked : l.acked a.report = l.known.2 := by
      unfold acked
      split_ifs with h
      · obtain hne | hunset := h
        · exact hhash.resolve_left hne
        · rw [RemoteConfigReport.reported, hunset] at hterminal
          cases hterminal
      · rfl
    have hstep : l.handle a = l := by
      unfold handle
      rw [if_pos (.inl hrepeat), hacked]
    exact (congrArg (handleAll · as) hstep).trans (hi hsame)

theorem known_handle : a.report.lastRemoteConfigHash = [] ∨ a.report.lastRemoteConfigHash = (l.handle a).known.2 := by
  by_cases hhash : a.report.lastRemoteConfigHash = []
  case pos => exact .inl hhash
  case neg =>
    refine .inr ?_
    have hacked : l.acked a.report = a.report.lastRemoteConfigHash := if_pos (.inl hhash)
    unfold handle
    rw [hacked]
    split_ifs
    all_goals rfl

theorem events_of_recorded (hrepeat : ¬l.isRepeat a.report) (hstored : a.stored)
    (hsame : ∀ b ∈ as, b.report.reported = a.report.reported) (hterminal : terminal a.report.status) :
    (l.handleAll (a :: as)).events = l.events ++ (event? a.report).toList := by
  have hstep : l.handle a = _ := if_neg (not_or.mpr ⟨hrepeat, not_not.mpr hstored⟩)
  have hrest : (l.handle a).handleAll as = l.handle a :=
    handleAll_of_repeated (by rw [hstep]; rfl) known_handle hsame hterminal
  exact congrArg StatusLog.events (hrest.trans hstep)

theorem not_isRepeat_of_ne (h : rcs.status ≠ l.known.1) : ¬l.isRepeat rcs := by
  simp [isRepeat, h]

theorem events_of_status_ne (hne : reported.1 ≠ l.known.1) (hterminal : terminal reported.1)
    (hsame : ∀ a ∈ as, a.report.reported = reported) (hstored : ∃ a ∈ as, a.stored) :
    ∃ rcs : RemoteConfigReport, rcs.reported = reported ∧ (l.handleAll as).events = l.events ++ (event? rcs).toList := by
  induction as generalizing l
  case nil => simp at hstored
  case cons a as hi =>
    rw [List.forall_mem_cons] at hsame
    obtain ⟨rfl, hsame⟩ := hsame
    by_cases ha : a.stored
    case pos => exact ⟨a.report, rfl, events_of_recorded (not_isRepeat_of_ne hne) ha hsame hterminal⟩
    case neg =>
      have hstep : l.handle a = { l with known := (l.known.1, l.acked a.report) } := if_pos (.inr ha)
      have hevents : (l.handle a).events = l.events := by rw [hstep]
      rw [← hevents]
      exact hi (by rw [hstep]; exact hne) hsame (by simpa [ha] using hstored)

-- A report that is repeated until it can be stored is recorded once, unless the status was known before and either
-- the hash was too or the status could not be stored at first.
theorem events_iff (hterminal : terminal reported.1) (hsame : ∀ a ∈ as, a.report.reported = reported)
    (hstored : ∃ a ∈ as, a.stored) :
    (∃ rcs : RemoteConfigReport, rcs.reported = reported ∧ (l.handleAll as).events = l.events ++ (event? rcs).toList) ↔
      reported.1 ≠ l.known.1 ∨
        reported.2 ≠ [] ∧ reported.2 ≠ l.known.2 ∧ ∀ a ∈ as.head?, a.stored := by
  by_cases hstatus : reported.1 = l.known.1
  case neg => exact ⟨fun _ => .inl hstatus, fun _ => events_of_status_ne hstatus hterminal hsame hstored⟩
  case pos =>
    -- No event is gained if all reports are repetitions.
    have hnone (h : (l.handleAll as).events = l.events) : ¬∃ rcs : RemoteConfigReport,
        rcs.reported = reported ∧ (l.handleAll as).events = l.events ++ (event? rcs).toList := by
      rintro ⟨rcs, rfl, hevents⟩
      exact ne_append_event? hterminal _ (h.symm.trans hevents)
    by_cases hnew : reported.2 ≠ [] ∧ reported.2 ≠ l.known.2
    case neg =>
      have hold : reported.2 = [] ∨ reported.2 = l.known.2 := by
        by_contra h
        exact hnew (not_or.mp h)
      refine iff_of_false (hnone ?_) ?_
      · rw [handleAll_of_repeated hstatus hold hsame hterminal]
      · rintro (h | ⟨hne, hne', -⟩)
        · exact h hstatus
        · exact hnew ⟨hne, hne'⟩
    case pos =>
      cases as
      case nil => simp at hstored
      case cons a as =>
        rw [List.forall_mem_cons] at hsame
        obtain ⟨rfl, hsame⟩ := hsame
        by_cases ha : a.stored
        case pos =>
          have hrepeat : ¬l.isRepeat a.report := by
            simp only [isRepeat, isNew_eq, decide_eq_true_eq]
            exact fun h => h.right ⟨hnew, hterminal⟩
          refine iff_of_true ⟨a.report, rfl, events_of_recorded hrepeat ha hsame hterminal⟩ (.inr ⟨hnew.left, hnew.right, ?_⟩)
          simpa using ha
        case neg =>
          have hstep : l.handle a = { l with known := (l.known.1, l.acked a.report) } := if_pos (.inr ha)
          have hrest : (l.handle a).handleAll as = l.handle a :=
            handleAll_of_repeated (by rw [hstep]; exact hstatus) known_handle hsame hterminal
          refine iff_of_false (hnone ?_) ?_
          · rw [show l.handleAll (a :: as) = (l.handle a).handleAll as from rfl, hrest, hstep]
          · rintro (h | ⟨-, -, h⟩)
            · exact h hstatus
            · exact ha (h a rfl)

end Repeated

end StatusLog

structure HealthAttempt where
  healthy : Bool
  stored : Bool

structure HealthLog where
  known : Option Bool
  events : List (AgentEventType × List (String × String))

namespace HealthLog

def handle (l : HealthLog) (a : HealthAttempt) : HealthLog :=
  if a.stored then
    { known := some a.healthy
      events := l.events ++ (flipEvent l.known a.healthy).toList.map fun e => (e, []) }
  else l

def handleAll (l : HealthLog) (as : List HealthAttempt) : HealthLog :=
  as.foldl handle l

variable {l : HealthLog} {healthy : Bool}

theorem handleAll_of_known (hknown : l.known = some healthy) (hsame : ∀ a ∈ as, a.healthy = healthy) : l.handleAll as = l := by
  induction as
  case nil => rfl
  case cons a as hi =>
    rw [List.forall_mem_cons] at hsame
    obtain ⟨rfl, hsame⟩ := hsame
    have hstep : l.handle a = l := by
      unfold handle
      split_ifs
      · have hflip : flipEvent l.known a.healthy = none := if_pos hknown
        rw [hflip, ← hknown, Option.toList_none, List.map_nil, List.append_nil]
      · rfl
    exact (congrArg (handleAll · as) hstep).trans (hi hsame)

def event (healthy : Bool) : AgentEventType × List (String × String) :=
  (if healthy then .healthy else .unhealthy, [])

theorem events_of_ne (hne : l.known ≠ some healthy) (hsame : ∀ a ∈ as, a.healthy = healthy) (hstored : ∃ a ∈ as, a.stored) :
    (l.handleAll as).events = l.events ++ [event healthy] := by
  induction as
  case nil => simp at hstored
  case cons a as hi =>
    rw [List.forall_mem_cons] at hsame
    obtain ⟨rfl, hsame⟩ := hsame
    by_cases ha : a.stored
    case pos =>
      have hstep : l.handle a = { known := some a.healthy, events := l.events ++ [event a.healthy] } := by
        simp [handle, ha, flipEvent, hne, event]
      have hrest : (l.handle a).handleAll as = l.handle a := handleAll_of_known (by rw [hstep]) hsame
      exact congrArg HealthLog.events (hrest.trans hstep)
    case neg =>
      have hstep : l.handle a = l := if_neg ha
      have hrest : l.handleAll (a :: as) = l.handleAll as := congrArg (handleAll · as) hstep
      rw [hrest]
      exact hi hsame (by simpa [ha] using hstored)

-- A health that is repeated until it can be stored is recorded once, unless it was known before.
theorem events_iff (hsame : ∀ a ∈ as, a.healthy = healthy) (hstored : ∃ a ∈ as, a.stored) :
    (l.handleAll as).events = l.events ++ [event healthy] ↔ l.known ≠ some healthy := by
  refine ⟨fun hevents hknown => ?_, fun hne => events_of_ne hne hsame hstored⟩
  rw [handleAll_of_known hknown hsame] at hevents
  simp at hevents

end HealthLog
end Opamp
