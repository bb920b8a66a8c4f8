import OtelFleet.Scim.Theorems.Writes

open Store (User UUID Accounts UserError UserWithIdentities)
open Auth (nonEmpty)
open Faults (run_bind run_pure)
open Strings (Casing)

-- What changes leave behind when they fail.
namespace Scim

inductive Change where
  | put (body : Option UserPayload)
  | patch (body : Option (List PatchOp))

def Change.respond [Casing] (now : Int) (id : Option UUID) : Change → Calls Reply
  | put body => putUser now id body
  | patch body => patchUser now id body

-- What a change comes to: the display name and the external ID, then the activation.
structure Plan where
  attributes : Option (Option String × Option String)
  active : Option Bool

def Plan.run (now : Int) (u : UserWithIdentities) (plan : Plan) : Calls Reply :=
  match plan.attributes with
  | none => finish now u.id u plan.active
  | some (displayName, externalID) => do
    match ← updateAttributes u.id displayName externalID with
    | .error r => return r
    | .ok updated => finish now u.id updated plan.active

def Change.plan [Casing] (u : User) : Change → Option Plan
  | put body => body.map fun p =>
    { attributes := some (nonEmpty p.display, nonEmpty p.externalID), active := p.active }
  | patch body => body.map fun ops =>
    { attributes := (patchOf ops).display.map (some ·, u.externalID), active := (patchOf ops).active }

-- The user keeps its attributes unless the change goes through.
def Atomic (id : Option UUID) (a : Accounts) (o : Reply × Backend) : Prop :=
  o.1.isError → ∀ i ∈ id, attributes o.2.state i = attributes a i

def Refused (now : Int) (id : UUID) (active : Bool) (b : Backend) : Prop :=
  b.fault ≠ none ∨ ∀ a', b.state.updateUserAdmin now id { disabled := some !active } ≠ .ok a'

-- The attributes have been changed already when the activation fails.
def Torn [Casing] (now : Int) (id : Option UUID) (change : Change) (b : Backend) : Prop :=
  ∃ i u displayName externalID active a', id = some i ∧
    b.fault = none ∧ b.state.user? i = some u ∧
    change.plan u = some { attributes := some (displayName, externalID), active := some active } ∧
    (b.after b.state).fault = none ∧ b.state.updateSCIMUser i displayName externalID = .ok a' ∧
    (displayName, externalID) ≠ (u.displayName, u.externalID) ∧
    Refused now i active ((b.after b.state).after a')

section Steps

variable {b : Backend} {id : UUID}

theorem load_cases (b : Backend) (id : UUID) :
    (∃ r, r.isError ∧ load (some id) b = (.error r, b.after b.state) ∧ ∀ u, ¬(b.fault = none ∧ b.state.user? id = some u)) ∨
    ∃ u, b.fault = none ∧ b.state.user? id = some u ∧
      load (some id) b = (.ok (b.state.withIdentities u), b.after b.state) := by
  cases hf : b.fault
  case some e =>
    refine .inl ?_
    simp only [load]
    rw [run_bind, Faults.ask_of_some hf]
    cases e <;> exact ⟨_, rfl, rfl, by simp⟩
  case none =>
    cases hu : b.state.user? id
    case none =>
      refine .inl ⟨userNotFound, rfl, ?_, by simp⟩
      simp only [load]
      rw [run_bind, Faults.ask_of_none hf, Accounts.getUserWithIdentities, Accounts.getUser, hu]
      rfl
    case some u => exact .inr ⟨u, rfl, rfl, load_eq hf hu⟩

theorem finish_cases (now : Int) (id : UUID) (updated : UserWithIdentities) (active : Option Bool) (b : Backend) :
    (∃ on, active = some on ∧ Refused now id on b ∧ (finish now id updated active b).1.isError ∧
      (finish now id updated active b).2.state = b.state) ∨
    ((∀ on, active = some on → ¬Refused now id on b) ∧ ¬(finish now id updated active b).1.isError) := by
  cases active
  case none => exact .inr ⟨fun on hon => (nomatch hon), Bool.noConfusion⟩
  case some on =>
    simp only [finish]
    rw [run_bind]
    obtain ⟨r, herror, hc, hno⟩ | ⟨u, a', hf, hop, hu, hc⟩ := setActive_cases now b id on <;> rw [hc]
    · refine .inl ⟨on, rfl, ?_, herror, rfl⟩
      by_cases hf : b.fault = none
      · exact .inr fun a' hop => hno a' ⟨hf, hop⟩
      · exact .inl hf
    · refine .inr ⟨fun on' hon => ?_, Bool.noConfusion⟩
      obtain rfl : on = on' := Option.some.inj hon
      rintro (hfault | hrefused)
      · exact hfault hf
      · exact hrefused a' hop

theorem attributes_eq_iff (hu : a.user? id = some u) (hop : a.updateSCIMUser id displayName externalID = .ok a') :
    attributes a' id = attributes a id ↔ (displayName, externalID) = (u.displayName, u.externalID) := by
  simp only [attributes, Accounts.updateSCIMUser_user? hop, hu]
  simp

def Plan.Torn (now : Int) (u : User) (plan : Plan) (b : Backend) : Prop :=
  ∃ displayName externalID active a',
    plan = { attributes := some (displayName, externalID), active := some active } ∧
    b.fault = none ∧ b.state.updateSCIMUser u.id displayName externalID = .ok a' ∧
    (displayName, externalID) ≠ (u.displayName, u.externalID) ∧ Refused now u.id active (b.after a')

theorem Plan.atomic_iff (now : Int) (plan : Plan) (hu : b.state.user? u.id = some u) :
    Atomic (some u.id) b.state (plan.run now (b.state.withIdentities u) b) ↔ ¬plan.Torn now u b := by
  obtain ⟨attrs, active⟩ := plan
  cases attrs
  case none =>
    -- There is one transaction at most.
    refine iff_of_true (fun herror i hi => ?_) fun ⟨_, _, _, _, hplan, _⟩ => by simp at hplan
    obtain ⟨_, _, _, _, hstate⟩ | ⟨_, hok⟩ := finish_cases now u.id (b.state.withIdentities u) active b
    · exact congrArg (Scim.attributes · i) hstate
    · exact absurd herror hok
  case some attrs =>
    obtain ⟨d, e⟩ := attrs
    simp only [Plan.run]
    rw [run_bind]
    obtain ⟨r, herror, hc, hno⟩ | ⟨u', a', hf, hop, hu', hc⟩ := updateAttributes_cases b u.id d e
    · have hc' : updateAttributes (b.state.withIdentities u).id d e b = (.error r, b.after b.state) := hc
      rw [hc']
      refine iff_of_true (fun _ _ _ => rfl) fun ⟨d', e', _, a', hplan, hf, hop, _⟩ => ?_
      obtain ⟨⟨rfl, rfl⟩, -⟩ : (d = d' ∧ e = e') ∧ _ := by simpa using hplan
      exact hno a' ⟨hf, hop⟩
    · have hc' : updateAttributes (b.state.withIdentities u).id d e b = (.ok (a'.withIdentities u'), b.after a') := hc
      rw [hc']
      obtain ⟨on, rfl, hrefused, herror, hstate⟩ | ⟨hgranted, hok⟩ :=
        finish_cases now u.id (a'.withIdentities u') active (b.after a')
      · have hsame := attributes_eq_iff hu hop
        constructor
        case mp =>
          rintro hatomic ⟨d', e', _, _, hplan, _, _, hne, _⟩
          obtain ⟨⟨rfl, rfl⟩, -⟩ : (d = d' ∧ e = e') ∧ _ := by simpa using hplan
          have hkept := hatomic herror u.id rfl
          exact hne (hsame.mp ((congrArg (Scim.attributes · u.id) hstate).symm.trans hkept))
        case mpr =>
          rintro htorn _ _ ⟨⟩
          have hkept := hsame.mpr (not_not.mp fun hne => htorn ⟨d, e, on, a', rfl, hf, hop, hne, hrefused⟩)
          exact (congrArg (Scim.attributes · u.id) hstate).trans hkept
      · refine iff_of_true (fun herror => absurd herror hok) fun ⟨d', e', on, a₁, hplan, _, hop', _, hrefused⟩ => ?_
        obtain ⟨⟨rfl, rfl⟩, hon⟩ : (d = d' ∧ e = e') ∧ active = some on := by simpa using hplan
        obtain rfl : a' = a₁ := Except.ok.inj (hop.symm.trans hop')
        exact hgranted on hon hrefused

end Steps

section Requests

variable [Casing]

theorem respond_eq {id : UUID} (now : Int) (change : Change) (hfault : b.fault = none)
    (hu : b.state.user? id = some u) :
    (change.plan u = none ∧ (change.respond now (some id) b).1.isError ∧
      (change.respond now (some id) b).2.state = b.state) ∨
    ∃ plan, change.plan u = some plan ∧
      change.respond now (some id) b = plan.run now (b.state.withIdentities u) (b.after b.state) := by
  cases change
  case put body =>
    simp only [Change.respond, putUser]
    rw [run_bind, load_eq hfault hu]
    cases body
    case none => exact .inl ⟨rfl, rfl, rfl⟩
    case some p => exact .inr ⟨_, rfl, rfl⟩
  case patch body =>
    simp only [Change.respond, patchUser]
    rw [run_bind, load_eq hfault hu]
    cases body
    case none => exact .inl ⟨rfl, rfl, rfl⟩
    case some ops =>
      refine .inr ⟨_, rfl, ?_⟩
      simp only [applyPatch, Plan.run]
      cases (patchOf ops).display <;> rfl

theorem respond_of_load_error {id : UUID} (now : Int) (change : Change)
    (hload : load (some id) b = (.error r, b.after b.state)) :
    change.respond now (some id) b = (r, b.after b.state) := by
  cases change
  case put body =>
    simp only [Change.respond, putUser]
    rw [run_bind, hload]
    rfl
  case patch body =>
    simp only [Change.respond, patchUser]
    rw [run_bind, hload]
    rfl

theorem torn_iff {id : UUID} (now : Int)
    (hfault : b.fault = none) (hu : b.state.user? id = some u) (hplan : change.plan u = some plan) :
    Torn now (some id) change b ↔ plan.Torn now u (b.after b.state) := by
  obtain rfl : u.id = id := (Accounts.mem_of_user? hu).right
  constructor
  case mp =>
    rintro ⟨_, u', d, e, active, a', ⟨⟩, _, hu', hplan', hrest⟩
    obtain rfl : u = u' := Option.some.inj (hu.symm.trans hu')
    exact ⟨d, e, active, a', Option.some.inj (hplan.symm.trans hplan'), hrest⟩
  case mpr =>
    rintro ⟨d, e, active, a', rfl, hrest⟩
    exact ⟨u.id, u, d, e, active, a', rfl, hfault, hu, hplan, hrest⟩

-- A change is all or nothing unless it is torn apart between its two transactions.
theorem change_atomic_iff (now : Int) (id : Option UUID) (change : Change) (b : Backend) :
    Atomic id b.state (change.respond now id b) ↔ ¬Torn now id change b := by
  cases id
  case none => exact iff_of_true (fun _ _ hi => by cases hi) fun ⟨_, _, _, _, _, _, hid, _⟩ => by cases hid
  case some id =>
    obtain ⟨r, herror, hload, hno⟩ | ⟨u, hf, hu, hload⟩ := load_cases b id
    case inl =>
      rw [respond_of_load_error now change hload]
      refine iff_of_true (fun _ _ _ => rfl) fun ⟨_, u, _, _, _, _, hid, hf, hu, _⟩ => ?_
      obtain rfl : id = _ := Option.some.inj hid
      exact hno u ⟨hf, hu⟩
    case inr =>
      obtain ⟨hplan, _, hstate⟩ | ⟨plan, hplan, hrun⟩ := respond_eq now change hf hu
      · refine iff_of_true (fun _ i _ => congrArg (attributes · i) hstate) fun ⟨_, u', _, _, _, _, hid, _, hu', hsome, _⟩ => ?_
        obtain rfl : id = _ := Option.some.inj hid
        obtain rfl : u = u' := Option.some.inj (hu.symm.trans hu')
        simp [hplan] at hsome
      · rw [hrun, torn_iff now hf hu hplan]
        obtain rfl : u.id = id := (Accounts.mem_of_user? hu).right
        exact plan.atomic_iff (b := b.after b.state) now hu

end Requests

section Samples

def lastAdminPut : Change :=
  .put (some { userName := "ada@example.com", displayName := "Renamed", active := some false })

-- The name has changed although the request was refused.
theorem last_admin_renamed :
    letI := Casing.ascii
    let o := lastAdminPut.respond 0 (some 1) { state := sampleAdmin }
    o.1 = .error 409 "cannot deactivate the last enabled admin" ∧
      attributes sampleAdmin 1 = some (none, none, true) ∧
      attributes o.2.state 1 = some (some "Renamed", none, true) ∧
      ¬Atomic (some 1) sampleAdmin o := by
  refine ⟨by decide +kernel, by decide +kernel, by decide +kernel, fun h => ?_⟩
  have hkept := h (by decide +kernel) 1 rfl
  revert hkept
  decide +kernel

end Samples

end Scim
