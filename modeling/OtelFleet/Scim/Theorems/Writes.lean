import OtelFleet.Scim.Server
import OtelFleet.Store.Theorems.Users

open Authz (Role)
open Store (User UUID Accounts UserError UserUpdate UserWithIdentities)
open Auth (nonEmpty)
open Faults (ask call call_cases run_bind)
open Strings (Casing)

namespace Store.Accounts

variable {a a' : Accounts} {id : UUID}

theorem user?_modifyUser (hf : ∀ u, (f u).id = u.id) : (a.modifyUser id f).user? id = (a.user? id).map f := by
  simp only [user?, modifyUser, List.find?_map]
  have hid : ((fun u : User => decide (u.id = id)) ∘ fun u => if u.id = id then f u else u) =
      fun u => decide (u.id = id) := by
    funext u
    simp only [Function.comp]
    split_ifs with h <;> simp [hf, h]
  rw [hid]
  cases hu : a.users.find? fun u => decide (u.id = id)
  case none => rfl
  case some u => simp [show u.id = id by simpa using List.find?_some hu]

theorem updateSCIMUser_eq_ok (h : a.updateSCIMUser id displayName externalID = .ok a') :
    (a.user? id).isSome ∧
      a' = a.modifyUser id fun u => { u with displayName := displayName, externalID := externalID } := by
  unfold updateSCIMUser at h
  split_ifs at h with hu hext
  cases h
  exact ⟨by simpa [Option.isSome_iff_ne_none] using hu, rfl⟩

theorem updateSCIMUser_user? (h : a.updateSCIMUser id displayName externalID = .ok a') :
    a'.user? id = (a.user? id).map fun u => { u with displayName := displayName, externalID := externalID } := by
  obtain ⟨_, rfl⟩ := updateSCIMUser_eq_ok h
  exact user?_modifyUser fun _ => rfl

theorem getUserWithIdentities_eq (h : a.user? id = some u) : a.getUserWithIdentities id = .ok (a.withIdentities u) := by
  simp [getUserWithIdentities, getUser, h, Except.map]

end Store.Accounts

-- How the changes of users end.
namespace Scim

abbrev Backend := Faults.Backend Accounts UserError

section Calls

theorem andRead_eq {id : UUID} (hf : f a = .ok a')
    (hu : a'.user? id = some u) : andRead id f a = .ok (a'.withIdentities u, a') := by
  simp only [andRead, hf, Accounts.getUserWithIdentities_eq hu]
  rfl

theorem call_andRead_cases (b : Backend) (id : UUID) (f : Accounts → Except UserError Accounts)
    (hread : ∀ a', f b.state = .ok a' → (a'.user? id).isSome) :
    (∃ e, call (andRead id f) b = (.error e, b.after b.state) ∧ ∀ a', ¬(b.fault = none ∧ f b.state = .ok a')) ∨
    ∃ u a', b.fault = none ∧ f b.state = .ok a' ∧ a'.user? id = some u ∧
      call (andRead id f) b = (.ok (a'.withIdentities u), b.after a') := by
  obtain ⟨e, hc, hno⟩ | ⟨x, s, hf, hop, hc⟩ := call_cases (andRead id f) b
  · refine .inl ⟨e, hc, fun a' ⟨hf, ha'⟩ => ?_⟩
    have ⟨u, hu⟩ := Option.isSome_iff_exists.mp (hread a' ha')
    exact hno _ _ ⟨hf, andRead_eq ha' hu⟩
  · cases ha' : f b.state
    case error e => simp [andRead, ha'] at hop
    case ok a' =>
      have ⟨u, hu⟩ := Option.isSome_iff_exists.mp (hread a' ha')
      obtain ⟨rfl, rfl⟩ : _ = x ∧ _ = s := by simpa [andRead_eq ha' hu] using hop
      exact .inr ⟨u, a', hf, rfl, hu, hc⟩

theorem updateAttributes_cases (b : Backend) (id : UUID) (displayName externalID : Option String) :
    (∃ r, r.isError ∧ updateAttributes id displayName externalID b = (.error r, b.after b.state) ∧
      ∀ a', ¬(b.fault = none ∧ b.state.updateSCIMUser id displayName externalID = .ok a')) ∨
    ∃ u a', b.fault = none ∧ b.state.updateSCIMUser id displayName externalID = .ok a' ∧ a'.user? id = some u ∧
      updateAttributes id displayName externalID b = (.ok (a'.withIdentities u), b.after a') := by
  unfold updateAttributes
  rw [run_bind]
  have hread (a' : Accounts) (h : b.state.updateSCIMUser id displayName externalID = .ok a') :
      (a'.user? id).isSome := by
    rw [Accounts.updateSCIMUser_user? h, Option.isSome_map]
    exact (Accounts.updateSCIMUser_eq_ok h).left
  obtain ⟨e, hc, hno⟩ | ⟨u, a', hf, hop, hu, hc⟩ := call_andRead_cases b id
    (·.updateSCIMUser id displayName externalID) hread
  · rw [hc]
    exact .inl ⟨internalError, rfl, by cases e <;> rfl, hno⟩
  · rw [hc]
    exact .inr ⟨u, a', hf, hop, hu, rfl⟩

theorem setActive_cases (now : Int) (b : Backend) (id : UUID) (active : Bool) :
    (∃ r, r.isError ∧ setActive now id active b = (.error r, b.after b.state) ∧
      ∀ a', ¬(b.fault = none ∧ b.state.updateUserAdmin now id { disabled := some !active } = .ok a')) ∨
    ∃ u a', b.fault = none ∧ b.state.updateUserAdmin now id { disabled := some !active } = .ok a' ∧
      a'.user? id = some u ∧ setActive now id active b = (.ok (a'.withIdentities u), b.after a') := by
  unfold setActive
  rw [run_bind]
  obtain ⟨e, hc, hno⟩ | ⟨u, a', hf, hop, hu, hc⟩ := call_andRead_cases b id
    (·.updateUserAdmin now id { disabled := some !active }) fun a' h => Accounts.updateUserAdmin_user? h
  · rw [hc]
    cases e <;> exact .inl ⟨_, rfl, rfl, hno⟩
  · rw [hc]
    exact .inr ⟨u, a', hf, hop, hu, rfl⟩

end Calls

section Replies

variable {id : UUID}

theorem load_eq (hfault : b.fault = none) (hu : b.state.user? id = some u) :
    load (some id) b = (.ok (b.state.withIdentities u), b.after b.state) := by
  simp only [load]
  rw [run_bind, Faults.ask_of_none hfault, Accounts.getUserWithIdentities_eq hu]
  rfl

theorem updateAttributes_eq {displayName externalID : Option String} (hfault : b.fault = none)
    (hop : b.state.updateSCIMUser id displayName externalID = .ok a') (hu : a'.user? id = some u) :
    updateAttributes id displayName externalID b = (.ok (a'.withIdentities u), b.after a') := by
  unfold updateAttributes
  rw [run_bind, Faults.call_of_none hfault (andRead_eq hop hu)]
  rfl

theorem putUser_eq (now : Int) (hfault : b.fault = none) (hfault' : (b.after b.state).fault = none)
    (hu : b.state.user? id = some u)
    (hop : b.state.updateSCIMUser id (nonEmpty p.display) (nonEmpty p.externalID) = .ok a')
    (hu' : a'.user? id = some u') :
    putUser now (some id) (some p) b =
      finish now id (a'.withIdentities u') p.active ((b.after b.state).after a') := by
  have hid : (b.state.withIdentities u).id = id := (Accounts.mem_of_user? hu).right
  unfold putUser
  rw [run_bind, load_eq hfault hu]
  dsimp only
  rw [run_bind, hid, updateAttributes_eq hfault' hop hu']

end Replies

section Provisioning

def UserPayload.bare (p : UserPayload) : UserPayload where
  userName := p.userName
  emails := p.emails

def Reply.resource? : Reply → Option UserResource
  | resource _ res => some res
  | _ => none

def attributes (a : Accounts) (id : UUID) : Option (Option String × Option String × Bool) :=
  (a.user? id).map fun u => (u.displayName, u.externalID, u.disabledAt.isNone)

variable {a : Accounts} {role : Role} {newID : UUID} {p : UserPayload} {email : String}

section Users

def withUser (a : Accounts) (u : User) : Accounts :=
  { a with users := a.users ++ [u] }

theorem user?_withUser (hnew : a.user? newID = none) (hid : u.id = newID) : (withUser a u).user? newID = some u := by
  have hno : a.users.find? (fun u => decide (u.id = newID)) = none := hnew
  simp [withUser, Accounts.user?, List.find?_append, hno, hid]

theorem modifyUser_withUser (hnew : a.user? newID = none) (hid : u.id = newID) (f : User → User) :
    (withUser a u).modifyUser newID f = withUser a (f u) := by
  have hold : a.users.map (fun u => if u.id = newID then f u else u) = a.users := by
    have hkeep (u : User) (hu : u ∈ a.users) : (if u.id = newID then f u else u) = u :=
      if_neg (Accounts.user?_eq_none.mp hnew u hu)
    rw [List.map_congr_left hkeep, List.map_id']
  simp [withUser, Accounts.modifyUser, hold, hid]

theorem updateUserAdmin_withUser (hnew : a.user? newID = none) (hid : u.id = newID) (now : Int) (upd : UserUpdate) :
    (withUser a u).updateUserAdmin now newID upd = (withUser a (u.update now upd)).ensureEnabledAdminRemains := by
  rw [Accounts.updateUserAdmin, user?_withUser hnew hid, if_neg Bool.noConfusion, modifyUser_withUser hnew hid]

theorem hasEnabledAdmin_withUser (u : User) :
    (withUser a u).hasEnabledAdmin = (a.hasEnabledAdmin || u.isEnabledAdmin) := by
  simp [withUser, Accounts.hasEnabledAdmin]

def provisioned (role : Role) (newID : UUID) (email : String) (p : UserPayload) : User where
  id := newID
  email := email
  displayName := nonEmpty p.display
  role := role
  externalID := nonEmpty p.externalID

structure Absent (a : Accounts) (newID : UUID) (email : String) (p : UserPayload) : Prop where
  id : a.user? newID = none
  userName : ∀ u ∈ a.users, u.email ≠ email
  externalID : p.externalID ≠ "" → ∀ u ∈ a.users, u.externalID ≠ some p.externalID

namespace Absent

variable (h : Absent a newID email p)
include h

theorem bare : Absent a newID email p.bare :=
  ⟨h.id, h.userName, fun hne => absurd rfl hne⟩

theorem no_externalID (hu : u ∈ a.users) (hsome : (nonEmpty p.externalID).isSome) :
    u.externalID ≠ nonEmpty p.externalID := by
  unfold nonEmpty at hsome ⊢
  split_ifs at hsome ⊢ with he
  · cases hsome
  · exact h.externalID he u hu

theorem createSCIMUser (role : Role) :
    a.createSCIMUser newID email role (nonEmpty p.display) (nonEmpty p.externalID) =
      .ok (withUser a (provisioned role newID email p)) := by
  have hname : ¬∃ v ∈ a.users, v.email = email := fun ⟨v, hv, he⟩ => h.userName v hv he
  have hext : ¬((nonEmpty p.externalID).isSome ∧ ∃ v ∈ a.users, v.externalID = nonEmpty p.externalID) :=
    fun ⟨hsome, v, hv, he⟩ => h.no_externalID hv hsome he
  rw [Accounts.createSCIMUser, Accounts.insertUser, if_neg hname, if_neg hext, if_neg (by simp [h.id])]
  rfl

theorem updateSCIMUser (role : Role) :
    (withUser a (provisioned role newID email p.bare)).updateSCIMUser newID (nonEmpty p.display)
      (nonEmpty p.externalID) = .ok (withUser a (provisioned role newID email p)) := by
  have hext : ¬((nonEmpty p.externalID).isSome ∧ ∃ v ∈ (withUser a (provisioned role newID email p.bare)).users,
      v.id ≠ newID ∧ v.externalID = nonEmpty p.externalID) := by
    rintro ⟨hsome, v, hv, hid, he⟩
    obtain hv | hv := List.mem_append.mp hv
    · exact h.no_externalID hv hsome he
    · exact hid (by rw [List.mem_singleton.mp hv]; rfl)
  rw [Accounts.updateSCIMUser, user?_withUser h.id rfl, if_neg Bool.noConfusion, if_neg hext,
    modifyUser_withUser h.id rfl]
  rfl

end Absent

end Users

variable [Casing]

def created (role : Role) (newID : UUID) (p : UserPayload) (a : Accounts) : Reply × Backend :=
  createUser role newID (some p) { state := a }

def replaced (role : Role) (now : Int) (newID : UUID) (p : UserPayload) (a : Accounts) : Reply × Backend :=
  putUser now (some newID) (some p) (created role newID p.bare a).2

structure Agree (newID : UUID) (o o' : Reply × Backend) : Prop where
  stored : attributes o.2.state newID = attributes o'.2.state newID
  returned : o.1.resource? = o'.1.resource?

theorem created_eq (h : Absent a newID email p) (hemail : p.email? = some email) (role : Role) :
    created role newID p a =
      (.resource 201 (toResource ((withUser a (provisioned role newID email p)).withIdentities
        (provisioned role newID email p))),
        ({ state := a } : Backend).after (withUser a (provisioned role newID email p))) := by
  unfold created createUser
  simp only [hemail]
  rw [run_bind, Faults.call_of_none rfl (andRead_eq (h.createSCIMUser role) (user?_withUser h.id rfl))]
  rfl

theorem replaced_eq (h : Absent a newID email p) (hemail : p.email? = some email) (role : Role) (now : Int) :
    ∃ b : Backend, b.fault = none ∧ b.state = withUser a (provisioned role newID email p) ∧
      replaced role now newID p a =
        finish now newID (b.state.withIdentities (provisioned role newID email p)) p.active b := by
  have hcreated := created_eq (p := p.bare) h.bare hemail role
  have hput := putUser_eq (b := (created role newID p.bare a).2) (p := p) now (by rw [hcreated]; rfl)
    (by rw [hcreated]; rfl) (by rw [hcreated]; exact user?_withUser h.id rfl)
    (by rw [hcreated]; exact h.updateSCIMUser role) (user?_withUser h.id rfl)
  exact ⟨_, by rw [hcreated]; rfl, rfl, hput⟩

omit [Casing] in
theorem resource?_of_isError {r : Reply} (h : r.isError) : r.resource? = none := by
  cases r <;> first | rfl | cases h

omit [Casing] in
theorem hasEnabledAdmin_provisioned :
    (withUser a (provisioned role newID email p)).hasEnabledAdmin ↔ a.hasEnabledAdmin ∨ role = .admin := by
  simp [hasEnabledAdmin_withUser, User.isEnabledAdmin, provisioned]

-- Creation leaves a user enabled. The last step of a replacement keeps it so, or disables it, or it
-- is refused because no admin is enabled.
theorem provisioning_agrees_iff (h : Absent a newID email p) (hemail : p.email? = some email) (role : Role) (now : Int) :
    Agree newID (created role newID p a) (replaced role now newID p a) ↔
      p.active = none ∨ p.active = some true ∧ (a.hasEnabledAdmin ∨ role = .admin) := by
  obtain ⟨b, hfault, hstate, hreplaced⟩ := replaced_eq h hemail role now
  have hupdate := updateUserAdmin_withUser h.id (u := provisioned role newID email p) rfl now
  rw [created_eq h hemail role, hreplaced]
  rcases hactive : p.active with - | active
  case none =>
    refine iff_of_true ⟨?_, ?_⟩ (.inl rfl) <;> simp only [finish, Faults.run_pure, hstate] <;> rfl
  case some =>
    simp only [finish]
    rw [run_bind]
    obtain ⟨r, herror, hc, hno⟩ | ⟨u, a', _, hop, hu, hc⟩ := setActive_cases now b newID active <;> rw [hc]
    · refine iff_of_false (fun hagree => ?_) ?_
      · have hret := hagree.returned.trans (resource?_of_isError herror)
        cases hret
      · rintro (hnone | ⟨htrue, hadmin⟩)
        · cases hnone
        · obtain rfl : active = true := Option.some.inj htrue
          refine hno (withUser a (provisioned role newID email p)) ⟨hfault, ?_⟩
          rw [hstate, hupdate, Accounts.ensureEnabledAdminRemains]
          exact if_pos (hasEnabledAdmin_provisioned.mpr hadmin)
    · rw [hstate, hupdate] at hop
      obtain ⟨rfl, hadmin⟩ := Accounts.ensureEnabledAdminRemains_eq_ok hop
      obtain rfl : _ = u := Option.some.inj ((user?_withUser h.id rfl).symm.trans hu)
      cases active
      case false =>
        refine iff_of_false (fun hagree => ?_) (by simp)
        have hret := congrArg UserResource.active (Option.some.inj hagree.returned)
        cases hret
      case true => exact iff_of_true ⟨rfl, rfl⟩ (.inr ⟨rfl, hasEnabledAdmin_provisioned.mp hadmin⟩)

end Provisioning

section Samples

def sampleAdmin : Accounts where
  customers := []
  users := [{ id := 1, email := "ada@example.com", role := .admin }]

def samplePayload (active : Option Bool) : UserPayload where
  userName := "Bob@example.com"
  externalID := "idp-2"
  displayName := "Bob"
  active := active

theorem bob_absent (active : Option Bool) : Absent sampleAdmin 2 "bob@example.com" (samplePayload active) :=
  ⟨rfl, by decide, fun _ => by simp [sampleAdmin]⟩

theorem active_payload_agrees :
    letI := Casing.ascii
    Agree 2 (created .viewer 2 (samplePayload (some true)) sampleAdmin)
      (replaced .viewer 0 2 (samplePayload (some true)) sampleAdmin) := by
  let := Casing.ascii
  exact (provisioning_agrees_iff (bob_absent (some true)) (by decide +kernel) .viewer 0).mpr
    (.inr ⟨rfl, .inl (by decide)⟩)

-- A user who is to be created without access has access, until the same payload replaces it.
theorem inactive_payload_enabled :
    letI := Casing.ascii
    let p := samplePayload (some false)
    (created .viewer 2 p sampleAdmin).1.resource?.map (·.active) = some true ∧
      (replaced .viewer 0 2 p sampleAdmin).1.resource?.map (·.active) = some false ∧
      ¬Agree 2 (created .viewer 2 p sampleAdmin) (replaced .viewer 0 2 p sampleAdmin) := by
  refine ⟨by decide +kernel, by decide +kernel, fun h => ?_⟩
  have hstored := h.stored
  revert hstored
  decide +kernel

end Samples

end Scim
