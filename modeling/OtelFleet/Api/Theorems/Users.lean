import OtelFleet.Api.Users
import OtelFleet.Store.Theorems.Users

open Authz (Role)
open Store (UUID Accounts Grant UserError UserUpdate)
open Faults (ask change ask_of_none ask_of_some call_cases change_cases run_bind run_pure)
open Strings (Casing)

-- What user administration leaves behind when it fails midway.
namespace Api.Users

abbrev Backend := Faults.Backend Accounts UserError

structure Unchanged (a a' : Accounts) : Prop where
  users : a'.users = a.users
  grants : ∀ g, g ∈ a'.grants ↔ g ∈ a.grants

theorem Unchanged.refl (a : Accounts) : Unchanged a a :=
  ⟨rfl, fun _ => .rfl⟩

-- A request that fails changes nothing, and a user that is to be limited to customers never exists
-- without being limited.
structure Atomic (a : Accounts) (request : Request) (o : Reply × Backend) : Prop where
  unchanged : o.1.isSuccess = false → Unchanged a o.2.state
  limited : ∀ newID body role, request = .invite newID body → Role.ofName body.role = some role →
    body.grants role ≠ [] → ∀ a' ∈ o.2.past, (a'.user? newID).isSome → a'.listUserCustomerIDs newID ≠ []

def Fails (now : Int) (userID : UUID) (upd : UserUpdate) (b : Backend) : Prop :=
  b.fault ≠ none ∨ (upd.role.isSome ∨ upd.disabled.isSome) ∧ ¬(b.state.updateUserAdmin now userID upd).isOk

-- A request goes through its first transaction, and the second one is missing or fails.
def Torn [Casing] (b : Backend) : Request → Prop
  | .invite newID body => b.fault = none ∧ ∃ email role a', body.check = .ok (email, role) ∧
    b.state.createInvitedUser newID email role = .ok a' ∧ body.grants role ≠ []
  | .update now actor userID body => b.fault = none ∧ ∃ upd customerIDs a', body.check actor userID = .ok upd ∧
    body.customerIDs = some customerIDs ∧ b.state.setUserCustomerGrants userID customerIDs = .ok a' ∧
    (∃ g, ¬(g ∈ a'.grants ↔ g ∈ b.state.grants)) ∧
    Fails now userID upd (b.after a')

section Calls

theorem setUserGrants_cases (b : Backend) (userID : UUID) (customerIDs : List UUID) :
    ((∃ r, setUserGrants userID customerIDs b = (.error r, b.after b.state)) ∧
      ∀ a', ¬(b.fault = none ∧ b.state.setUserCustomerGrants userID customerIDs = .ok a')) ∨
    ∃ a', b.fault = none ∧ b.state.setUserCustomerGrants userID customerIDs = .ok a' ∧
      setUserGrants userID customerIDs b = (.ok (), b.after a') := by
  unfold setUserGrants
  rw [run_bind]
  obtain ⟨e, hc, hno⟩ | ⟨a', hf, hop, hc⟩ := change_cases (·.setUserCustomerGrants userID customerIDs) b
  · refine .inl ⟨?_, hno⟩
    rw [hc]
    cases e <;> exact ⟨_, rfl⟩
  · exact .inr ⟨a', hf, hop, by rw [hc]; rfl⟩

theorem updateAndRead_cases (now : Int) (userID : UUID) (upd : UserUpdate) (a : Accounts) :
    ((∃ e, updateAndRead now userID upd a = .error e) ∧ ¬(a.updateUserAdmin now userID upd).isOk) ∨
    ((∃ r, updateAndRead now userID upd a = .ok r) ∧ (a.updateUserAdmin now userID upd).isOk) := by
  unfold updateAndRead
  cases hu : a.updateUserAdmin now userID upd
  case error e => exact .inl ⟨⟨e, rfl⟩, by simp [Except.isOk, Except.toBool]⟩
  case ok a' =>
    have ⟨u, hread⟩ := Accounts.getUserWithIdentities_of_isSome (Accounts.updateUserAdmin_user? hu)
    exact .inr ⟨⟨_, by simp only [hread]; rfl⟩, rfl⟩

theorem applyUpdate_cases (now : Int) (userID : UUID) (upd : UserUpdate) (b : Backend) :
    ((b.fault ≠ none ∨ ¬(b.state.updateUserAdmin now userID upd).isOk) ∧
      (applyUpdate now userID upd b).1.isSuccess = false ∧ (applyUpdate now userID upd b).2.state = b.state) ∨
    (b.fault = none ∧ (b.state.updateUserAdmin now userID upd).isOk ∧
      (applyUpdate now userID upd b).1.isSuccess = true) := by
  unfold applyUpdate
  rw [run_bind]
  obtain ⟨e, hc, hno⟩ | ⟨u, a', hf, hop, hc⟩ := call_cases (updateAndRead now userID upd) b
  · rw [hc]
    refine .inl ⟨?_, by cases e <;> rfl, by cases e <;> rfl⟩
    by_cases hf : b.fault = none
    · obtain ⟨_, hfail⟩ | ⟨⟨r, hr⟩, _⟩ := updateAndRead_cases now userID upd b.state
      · exact .inr hfail
      · exact absurd ⟨hf, hr⟩ (hno r.1 r.2)
    · exact .inl hf
  · rw [hc]
    obtain ⟨⟨e, he⟩, _⟩ | ⟨_, hok⟩ := updateAndRead_cases now userID upd b.state
    · rw [he] at hop
      cases hop
    · exact .inr ⟨hf, hok, rfl⟩

theorem showUser_cases (hu : (b.state.user? userID).isSome) :
    (b.fault ≠ none ∧ (showUser userID b).1.isSuccess = false ∧ (showUser userID b).2.state = b.state) ∨
    (b.fault = none ∧ (showUser userID b).1.isSuccess = true) := by
  unfold showUser
  rw [run_bind]
  cases hf : b.fault
  case some e =>
    rw [ask_of_some hf]
    exact .inl ⟨by simp, by cases e <;> rfl, by cases e <;> rfl⟩
  case none =>
    have ⟨u, hread⟩ := Accounts.getUserWithIdentities_of_isSome hu
    rw [ask_of_none hf, hread]
    exact .inr ⟨rfl, rfl⟩

theorem finishUpdate_cases (now : Int) (upd : UserUpdate) (hu : (b.state.user? userID).isSome) :
    (Fails now userID upd b ∧ (finishUpdate now userID upd b).1.isSuccess = false ∧
      (finishUpdate now userID upd b).2.state = b.state) ∨
    (¬Fails now userID upd b ∧ (finishUpdate now userID upd b).1.isSuccess = true) := by
  unfold finishUpdate Fails
  split_ifs with hset
  · obtain ⟨hfail, hr, hs⟩ | ⟨hf, hok, hr⟩ := applyUpdate_cases now userID upd b
    · exact .inl ⟨hfail.imp_right fun h => ⟨hset, h⟩, hr, hs⟩
    · exact .inr ⟨by simp [hf, hok], hr⟩
  · obtain ⟨hf, hr, hs⟩ | ⟨hf, hr⟩ := showUser_cases hu
    · exact .inl ⟨.inl hf, hr, hs⟩
    · exact .inr ⟨by simp [hf, hset], hr⟩

theorem showUser_reads (userID : UUID) : Faults.Reads (showUser userID) := by
  unfold showUser
  refine (Faults.reads_ask _).bind fun r => ?_
  split <;> exact Faults.reads_pure

theorem finishUpdate_failed (h : (finishUpdate now userID upd b).1.isSuccess = false) :
    (finishUpdate now userID upd b).2.state = b.state := by
  unfold finishUpdate at h ⊢
  split_ifs at h ⊢ with hset
  · obtain ⟨_, _, hs⟩ | ⟨_, _, hr⟩ := applyUpdate_cases now userID upd b
    · exact hs
    · rw [hr] at h
      cases h
  · exact showUser_reads userID b

end Calls

section Requests

variable {b : Backend}

theorem check_role [Casing] {body : InviteBody} (h : body.check = .ok (email, role)) :
    Role.ofName body.role = some role := by
  simp only [InviteBody.check] at h
  split_ifs at h with hemail
  cases hrole : Role.ofName body.role
  case none => simp [hrole] at h
  case some role' =>
    obtain ⟨-, rfl⟩ : _ ∧ role' = role := by simpa [hrole] using h
    rfl

theorem inviteUser_atomic_iff [Casing] (h : b.state.WF) (hpast : b.past = []) (newID : UUID) (body : InviteBody)
    (hnew : b.state.user? newID = none) :
    Atomic b.state (.invite newID body) (inviteUser newID body b) ↔ ¬Torn b (.invite newID body) := by
  unfold inviteUser
  cases hcheck : body.check
  case error r =>
    refine iff_of_true ⟨fun _ => .refl _, fun _ _ _ _ _ _ a' ha' => ?_⟩ ?_
    · simp [hpast] at ha'
    · rintro ⟨_, _, _, _, hok, _⟩
      simp [hcheck] at hok
  case ok r =>
    obtain ⟨email, role⟩ := r
    dsimp only
    rw [run_bind]
    obtain ⟨e, hc, hno⟩ | ⟨a', hf, hop, hc⟩ := change_cases (·.createInvitedUser newID email role) b
    · -- Nothing has happened yet.
      rw [hc]
      refine iff_of_true ?_ ?_
      · have hseen : ∀ a' ∈ (b.after b.state).past, a' = b.state := by simp [Faults.Backend.after, hpast]
        refine ⟨fun _ => ?_, fun _ _ _ hreq _ _ a' ha' hu => ?_⟩
        · cases e <;> exact .refl _
        · obtain ⟨rfl, -⟩ : newID = _ ∧ body = _ := by simpa using hreq
          have ha : a' = b.state := hseen a' (by cases e <;> exact ha')
          rw [ha, hnew] at hu
          cases hu
      · rintro ⟨hf, email', role', a', hok, hop, _⟩
        obtain ⟨rfl, rfl⟩ : email = email' ∧ role = role' := by simpa [hcheck] using hok
        exact hno a' ⟨hf, hop⟩
    · rw [hc]
      by_cases hgrants : body.grants role = []
      · refine iff_of_true ?_ ?_
        · simp only [if_pos hgrants]
          refine Atomic.mk (fun hfail => Bool.noConfusion hfail) fun _ _ role' hreq hrole hne => ?_
          obtain ⟨-, rfl⟩ : newID = _ ∧ body = _ := by simpa using hreq
          obtain rfl : role = role' := Option.some.inj ((check_role hcheck).symm.trans hrole)
          exact absurd hgrants hne
        · rintro ⟨_, email', role', _, hok, _, hne⟩
          obtain ⟨rfl, rfl⟩ : email = email' ∧ role = role' := by simpa [hcheck] using hok
          exact hne hgrants
      · -- The user is there without its customers until the second call, at least.
        refine iff_of_false (fun hatomic => ?_) (not_not_intro ⟨hf, email, role, a', hcheck, hop, hgrants⟩)
        obtain ⟨hu, hnone⟩ := h.createInvitedUser_unlimited hop
        refine hatomic.limited newID body role rfl (check_role hcheck) hgrants a' ?_ hu hnone
        simp only [if_neg hgrants]
        rw [run_bind]
        have hseen : a' ∈ ((b.after a').after (b.after a').state).past := by simp [Faults.Backend.after]
        obtain ⟨⟨r, hr⟩, _⟩ | ⟨a₁, _, _, hr⟩ := setUserGrants_cases (b.after a') newID (body.grants role)
        · rw [hr]
          exact hseen
        · rw [hr]
          simp [Faults.Backend.after]

theorem atomic_update_iff :
    Atomic a (.update now actor userID body) o ↔ (o.1.isSuccess = false → Unchanged a o.2.state) :=
  ⟨(·.unchanged), fun h => ⟨h, fun _ _ _ hr => nomatch hr⟩⟩

theorem torn_update_iff [Casing] (hf : b.fault = none) (hcheck : body.check actor userID = .ok upd)
    (hids : body.customerIDs = some customerIDs) (hset : b.state.setUserCustomerGrants userID customerIDs = .ok a') :
    Torn b (.update now actor userID body) ↔
      (∃ g, ¬(g ∈ a'.grants ↔ g ∈ b.state.grants)) ∧ Fails now userID upd (b.after a') := by
  constructor
  case mp =>
    rintro ⟨_, upd', ids, a₁, hupd, hsome, hset', hdiff, hfail⟩
    obtain rfl : upd = upd' := Except.ok.inj (hcheck.symm.trans hupd)
    obtain rfl : customerIDs = ids := Option.some.inj (hids.symm.trans hsome)
    obtain rfl : a' = a₁ := Except.ok.inj (hset.symm.trans hset')
    exact ⟨hdiff, hfail⟩
  case mpr => exact fun ⟨hdiff, hfail⟩ => ⟨hf, upd, customerIDs, a', hcheck, hids, hset, hdiff, hfail⟩

theorem updateUser_atomic_iff [Casing] (now : Int) (actor userID : UUID) (body : UpdateBody) :
    Atomic b.state (.update now actor userID body) (updateUser now actor userID body b) ↔
      ¬Torn b (.update now actor userID body) := by
  rw [atomic_update_iff]
  unfold updateUser
  cases hcheck : body.check actor userID
  case error r =>
    refine iff_of_true (fun _ => .refl _) ?_
    rintro ⟨_, upd, _, _, hupd, _⟩
    simp [hcheck] at hupd
  case ok upd =>
    cases hids : body.customerIDs
    case none =>
      refine iff_of_true (fun hfail => ?_) ?_
      · rw [finishUpdate_failed hfail]
        exact .refl _
      · rintro ⟨_, _, _, _, _, hsome, _⟩
        simp [hids] at hsome
    case some customerIDs =>
      dsimp only
      rw [run_bind]
      obtain ⟨⟨r, hr⟩, hno⟩ | ⟨a', hf, hset, hr⟩ := setUserGrants_cases b userID customerIDs
      · rw [hr]
        refine iff_of_true (fun _ => .refl _) ?_
        rintro ⟨hf, _, ids, a', _, hsome, hset, _⟩
        obtain rfl : customerIDs = ids := Option.some.inj (hids.symm.trans hsome)
        exact hno a' ⟨hf, hset⟩
      · rw [hr, torn_update_iff hf hcheck hids hset]
        obtain ⟨hu, husers⟩ := Accounts.setUserCustomerGrants_eq_ok hset
        have hu' : ((b.after a').state.user? userID).isSome := by
          simpa [Faults.Backend.after, Accounts.user?, husers] using hu
        obtain ⟨hfail, hreply, hstate⟩ | ⟨hok, hreply⟩ := finishUpdate_cases now upd hu'
        · have hstate' : (finishUpdate now userID upd (b.after a')).2.state = a' := hstate
          simp only [hreply, hstate', hfail, and_true, true_implies]
          constructor
          case mp =>
            rintro hsame ⟨g, hdiff⟩
            exact hdiff (hsame.grants g)
          case mpr => exact fun hsame => ⟨husers, fun g => not_not.mp fun hdiff => hsame ⟨g, hdiff⟩⟩
        · exact iff_of_true (fun hfail => by simp [hreply] at hfail) fun h => hok h.right

-- Administration is all or nothing for exactly the requests that are not torn apart.
theorem administration_atomic_iff [Casing] (a : Accounts) (faults : List (Option UserError)) (request : Request)
    (h : a.WF) (hnew : ∀ newID body, request = .invite newID body → a.user? newID = none) :
    Atomic a request (respond request { state := a, faults := faults }) ↔
      ¬Torn { state := a, faults := faults } request := by
  cases request
  case invite newID body =>
    exact inviteUser_atomic_iff (b := { state := a, faults := faults }) h rfl newID body (hnew newID body rfl)
  case update now actor userID body =>
    exact updateUser_atomic_iff (b := { state := a, faults := faults }) now actor userID body

end Requests

section Sample

def sampleAccounts : Accounts where
  customers := [1, 2]
  users := [{ id := 3, email := "admin@example.com", role := .admin }]

def operatorInvite (customerIDs : Option (List UUID)) : Request :=
  .invite 10 { email := "operator@example.com", role := "operator", customerIDs := customerIDs }

-- The only admin is to become an operator for one customer only, but there is no such customer.
def demotion : Request :=
  .update 0 4 3 { role := some "operator", customerIDs := some [9] }

theorem demotion_refused :
    letI := Casing.ascii
    let o := respond demotion { state := sampleAccounts, faults := [] }
    o.1.isSuccess = false ∧ Atomic sampleAccounts demotion o := by
  have hwf : sampleAccounts.WF := by constructor <;> decide
  refine ⟨by decide +kernel, ?_⟩
  refine (@administration_atomic_iff Casing.ascii sampleAccounts [] demotion hwf (by simp [demotion])).mpr ?_
  rintro ⟨_, _, customerIDs, a', _, ⟨⟩, hset, _⟩
  cases hset

-- The second customer of the invitation does not exist. The operator is there nevertheless, and the
-- guard does not limit it to any customers.
theorem operator_unlimited :
    letI := Casing.ascii
    let o := respond (operatorInvite (some [1, 9])) { state := sampleAccounts, faults := [] }
    o.1.isSuccess = false ∧
      ((o.2.state.user? 10).map fun u => (principalOf (.of o.2.state) u).toOption.map (·.allCustomers)) =
        some (some true) ∧
      ¬Atomic sampleAccounts (operatorInvite (some [1, 9])) o := by
  refine ⟨by decide +kernel, by decide +kernel, fun h => ?_⟩
  have hsame := (h.unchanged (by decide +kernel)).users
  revert hsame
  decide +kernel

end Sample

end Api.Users
