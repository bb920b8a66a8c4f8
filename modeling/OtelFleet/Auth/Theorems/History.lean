import OtelFleet.Auth.History
import OtelFleet.Store.Theorems.Users

open Faults (Keeps keeps_call keeps_change reads_pure Reads)
open Store (UUID User Accounts UserError)
open Strings (Casing)

-- What events other than logins do to the accounts.
namespace Auth

-- What the transactions on accounts keep, as long as new users come with certain addresses.
structure Stable (A : String → Prop) (I : Accounts → Prop) : Prop where
  insert : ∀ a a' u, a.insertUser u = .ok a' → I a → A u.email → I a'
  modify : ∀ a id f, I a → (∀ u, (f u).id = u.id) → (∀ u, (f u).email = u.email) → I (a.modifyUser id f)
  grants : ∀ a a' userID cids, I a → a.setUserCustomerGrants userID cids = .ok a' → I a'
  remove : ∀ a id, I a → I (a.removeUser id)

variable {I : Accounts → Prop}

theorem stable_wf : Stable (fun _ => True) Accounts.WF where
  insert _ _ _ hc h _ := h.insertUser hc
  modify _ _ _ h hid hemail := h.modifyUser hid hemail
  grants _ _ _ _ h hc := h.setUserCustomerGrants hc
  remove _ _ h := h.removeUser

theorem update_email (now : Int) (upd : Store.UserUpdate) (u : User) : (u.update now upd).email = u.email := by
  cases hr : upd.role <;> cases hd : upd.disabled <;> simp [User.update, hr, hd, User.setDisabled]

theorem Stable.updateUserAdmin (h : Stable A I) {id : UUID}
    (ha : I a) (hc : a.updateUserAdmin now id upd = .ok a') : I a' := by
  obtain ⟨_, rfl, _⟩ := Accounts.updateUserAdmin_eq_ok hc
  exact h.modify a id _ ha (Accounts.update_id now upd) (update_email now upd)

section Administration

open Api.Users

theorem Stable.setUserGrants (h : Stable A I) (userID : UUID) (cids : List UUID) :
    Keeps I (setUserGrants userID cids) := by
  unfold Api.Users.setUserGrants
  refine (keeps_change fun a a' ha hc => h.grants a a' userID cids ha hc).bind fun r => ?_
  split <;> exact reads_pure.keeps

theorem Stable.inviteUser [Casing] (h : Stable A I)
    (hA : ∀ email role, body.check = .ok (email, role) → A email) : Keeps I (inviteUser newID body) := by
  unfold Api.Users.inviteUser
  cases hcheck : body.check
  case error r => exact reads_pure.keeps
  case ok r =>
    obtain ⟨email, role⟩ := r
    refine (keeps_change fun a a' ha hc => h.insert a a' _ hc ha (hA email role hcheck)).bind fun r => ?_
    split
    case _ => exact reads_pure.keeps
    case _ => exact reads_pure.keeps
    case _ =>
      dsimp only
      split_ifs
      · exact reads_pure.keeps
      · refine (h.setUserGrants newID _).bind fun r => ?_
        split <;> exact reads_pure.keeps

theorem Stable.finishUpdate (h : Stable A I) (now : Int) (userID : UUID) (upd : Store.UserUpdate) :
    Keeps I (finishUpdate now userID upd) := by
  unfold Api.Users.finishUpdate
  split_ifs
  · refine (keeps_call fun a u a' ha hc => ?_).bind fun r => ?_
    · unfold updateAndRead at hc
      split at hc
      case _ => cases hc
      case _ a₁ hupd =>
        cases hread : a₁.getUserWithIdentities userID
        case error => simp [hread, Except.map] at hc
        case ok w =>
          obtain ⟨-, rfl⟩ : _ ∧ a₁ = a' := by simpa [hread, Except.map] using hc
          exact h.updateUserAdmin ha hupd
    · split <;> exact reads_pure.keeps
  · unfold showUser
    refine Reads.keeps ((Faults.reads_ask _).bind fun r => ?_)
    split <;> exact reads_pure

theorem Stable.updateUser [Casing] (h : Stable A I) (now : Int) (actor userID : UUID) (body : Api.Users.UpdateBody) :
    Keeps I (updateUser now actor userID body) := by
  unfold Api.Users.updateUser
  cases body.check actor userID
  case error => exact reads_pure.keeps
  case ok upd =>
    cases body.customerIDs
    case none => exact h.finishUpdate now userID upd
    case some cids =>
      refine (h.setUserGrants userID cids).bind fun r => ?_
      split
      case _ => exact reads_pure.keeps
      case _ => exact h.finishUpdate now userID upd

theorem Stable.respond [Casing] (h : Stable A I)
    (hA : ∀ newID body, request = .invite newID body → ∀ email role, body.check = .ok (email, role) → A email) :
    Keeps I (respond request) := by
  cases request
  case invite newID body =>
    rw [Api.Users.respond]
    exact h.inviteUser (hA newID body rfl)
  case update now actor userID body =>
    rw [Api.Users.respond]
    exact h.updateUser now actor userID body

end Administration

def Event.address? [Casing] : Event → Option String
  | administer _ (.invite _ body) => body.check.toOption.map (·.1)
  | scimCreate _ p => p.email?
  | _ => none

theorem getD_keeps {r : Except ε Accounts} (ha : I a) (h : ∀ a', r = .ok a' → I a') : I (r.toOption.getD a) := by
  cases r
  case error => exact ha
  case ok a' => exact h a' rfl

theorem Stable.scimCreateUser [Casing] (h : Stable A I) {p : SCIMPayload}
    (hA : ∀ email, p.email? = some email → A email) (ha : I a) : I (scimCreateUser cfg newID p a) := by
  unfold Auth.scimCreateUser
  split
  case _ => exact ha
  case _ email haddr => exact getD_keeps ha fun a' hc => h.insert a a' _ hc ha (hA email haddr)

theorem Stable.accounts [Casing] (h : Stable A I) (env : Setup) {e : Event} (hA : ∀ addr, e.address? = some addr → A addr)
    (ha : I a) : I (e.accounts env a) := by
  cases e
  case administer faults request =>
    change I (Api.Users.respond request { state := a, faults := faults }).2.state
    refine h.respond (fun newID body hreq email role hcheck => hA email ?_) _ ha
    subst hreq
    simp [Event.address?, hcheck, Except.toOption]
  case deleteUser id =>
    simp only [Event.accounts, deleteUser]
    split_ifs
    · exact ha
    · refine getD_keeps ha fun a' ha' => ?_
      obtain ⟨rfl, _⟩ := Accounts.ensureEnabledAdminRemains_eq_ok ha'
      exact h.remove a id ha
  case scimCreate newID p =>
    rw [Event.accounts]
    refine h.scimCreateUser (fun email haddr => hA email ?_) ha
    rw [Event.address?, haddr]
  case scimUpdate id displayName externalID =>
    refine getD_keeps ha fun a' hc => ?_
    unfold Accounts.updateSCIMUser at hc
    split_ifs at hc
    cases hc
    exact h.modify a id _ ha (fun _ => rfl) fun _ => rfl
  case scimSetActive now id active => exact getD_keeps ha fun a' hc => h.updateUserAdmin ha hc
  all_goals exact ha

section Logins

variable [Casing] (env : Setup) (l : Attempt)

def Attempt.roleIfNew : Authz.Role :=
  if env.config.isAdminEmail l.verified.email then .admin else .viewer

abbrev Attempt.Resolves (a : Accounts) : User → Accounts → Prop :=
  Accounts.Resolves a l.newID l.identityKey l.verified.subject l.verified.email l.verified.displayName
    (l.roleIfNew env)

def Outcome.of (u : User) : Outcome :=
  if u.disabledAt.isSome then .disabled u.id else .signedIn u.id

theorem finish_eq (h : a.WF) (hnew : a.user? l.newID = none) :
    ∃ u a₁, l.Resolves env a u a₁ ∧
      l.finish env a = (.of u, a₁.modifyUser u.id (Accounts.stampLogin l.now (l.roleIfNew env))) := by
  obtain ⟨u, a₁, hr, hu⟩ := h.upsertUserByIdentity l.now l.newID hnew l.identityKey l.verified.subject
    l.verified.email l.verified.displayName (l.roleIfNew env)
  refine ⟨u, a₁, hr, ?_⟩
  unfold Attempt.finish Auth.finish
  rw [← Attempt.roleIfNew]
  dsimp only
  rw [hu]
  rfl

end Logins

end Auth
