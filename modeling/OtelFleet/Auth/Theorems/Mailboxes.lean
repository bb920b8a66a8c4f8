import OtelFleet.Auth.Theorems.History

open Authz (Role)
open Histories (Along)
open Store (UUID User Accounts)
open Strings (Casing toLower)

-- When there is one account per mailbox, whatever way people come in.
namespace Auth

section Mailboxes

variable [Casing]

-- At most one user has a mailbox, however the address is spelled.
def Unique (a : Accounts) : Prop :=
  ((a.users.map (·.email)).map toLower).Nodup

-- An address is spelled as the user who has the mailbox spells it.
def Spelled (a : Accounts) (address : String) : Prop :=
  ∀ email ∈ a.users.map (·.email), toLower email = toLower address → email = address

-- A login comes to a user: it is let in unless the user is disabled, and the user keeps the role, save
-- for the admins of the environment, and the grants.
structure ComesTo (env : Setup) (a : Accounts) (l : Attempt) (u : User) : Prop where
  outcome : (l.finish env a).1 = if u.disabledAt.isSome then .disabled u.id else .signedIn u.id
  role : ∃ u', (l.finish env a).2.user? u.id = some u' ∧
    u'.role = if env.config.isAdminEmail l.verified.email then .admin else u.role
  grants : (l.finish env a).2.listUserCustomerIDs u.id = a.listUserCustomerIDs u.id

-- No second account for a mailbox, and a login with an address comes to the user who has the mailbox.
structure OnePerMailbox (env : Setup) (s : State) (e : Event) : Prop where
  unique : Unique (s.step env e).accounts
  login : ∀ l, s.attempt? env e = some l → ∀ u ∈ s.accounts.users,
    toLower u.email = toLower l.verified.email → ComesTo env s.accounts l u

def DrawsNew (env : Setup) (s : State) (e : Event) : Prop :=
  ∀ l ∈ s.attempt? env e, s.accounts.user? l.newID = none

-- Addresses are spelled as the users who have them do, and an identity that is linked already is reported
-- with the address of its user.
structure Consistent (env : Setup) (s : State) (e : Event) : Prop where
  address : ∀ address ∈ e.address?, Spelled s.accounts address
  unlinked : ∀ l ∈ s.attempt? env e,
    s.accounts.userByIdentity l.identityKey l.verified.subject = none → Spelled s.accounts l.verified.email
  linked : ∀ l ∈ s.attempt? env e, ∀ w ∈ s.accounts.userByIdentity l.identityKey l.verified.subject,
    ∀ u ∈ s.accounts.users, toLower u.email = toLower l.verified.email → u = w

section Lists

theorem Unique.concat (h : Unique a) (hs : Spelled a u.email) (hno : ∀ v ∈ a.users, v.email ≠ u.email) :
    Unique { a with users := a.users ++ [u] } := by
  unfold Unique at h ⊢
  rw [List.map_map] at h ⊢
  refine Assoc.nodup_map_concat h fun v hv he => hno v hv ?_
  exact hs v.email (List.mem_map.mpr ⟨v, hv, rfl⟩) he

theorem Spelled.concat (h : Spelled a u.email) : Spelled { a with users := a.users ++ [u] } u.email := by
  intro email hemail hfold
  rw [List.map_append, List.mem_append] at hemail
  obtain hemail | hemail := hemail
  · exact h email hemail hfold
  · exact List.mem_singleton.mp hemail

theorem stable_unique (addr : Option String) :
    Stable (fun email => addr = some email)
      fun a => Unique a ∧ ∀ address, addr = some address → Spelled a address where
  insert a a' u hc ha hA := by
    obtain ⟨hno, _, rfl⟩ := Accounts.insertUser_eq_ok hc
    have hs := ha.right u.email hA
    refine ⟨ha.left.concat hs hno, fun address haddr => ?_⟩
    obtain rfl : u.email = address := Option.some.inj (hA.symm.trans haddr)
    exact hs.concat
  modify a id f ha hid hemail := by
    simpa only [Unique, Spelled, Accounts.map_email_modifyUser hemail] using ha
  grants a a' userID cids ha hc := by
    simpa only [Unique, Spelled, (Accounts.setUserCustomerGrants_eq_ok hc).right] using ha
  remove a id ha := by
    have hsub : ((a.removeUser id).users.map (·.email)).Sublist (a.users.map (·.email)) :=
      List.filter_sublist.map _
    exact ⟨ha.left.sublist (hsub.map _), fun address haddr email hemail => ha.right address haddr email (hsub.subset hemail)⟩

end Lists

section Logins

variable {l : Attempt}

theorem Resolves.comesTo (h : a.WF) (hnew : a.user? l.newID = none) (hr : l.Resolves env a u a₁)
    (hf : l.finish env a = (.of u, a₁.modifyUser u.id (Accounts.stampLogin l.now (l.roleIfNew env)))) :
    ComesTo env a l u := by
  have ⟨hwf, hu⟩ := hr.wf h hnew
  refine ⟨by rw [hf]; rfl, ⟨Accounts.stampLogin l.now (l.roleIfNew env) u, ?_, ?_⟩, ?_⟩
  · have hget := hwf.getUser_modifyUser (f := Accounts.stampLogin l.now (l.roleIfNew env)) hu (fun _ => rfl) fun _ => rfl
    rw [hf]
    unfold Accounts.getUser at hget
    cases hfind : (a₁.modifyUser u.id (Accounts.stampLogin l.now (l.roleIfNew env))).user? u.id
    case none => simp [hfind] at hget
    case some u' => simpa [hfind] using hget
  · unfold Accounts.stampLogin Attempt.roleIfNew
    cases env.config.isAdminEmail l.verified.email <;> simp
  · rw [hf]
    cases hr <;> rfl

theorem Resolves.eq_of_fold (h : s.accounts.WF) (hl : s.attempt? env e = some l)
    (hc : Consistent env s e) (hr : l.Resolves env s.accounts u a₁) (hv : v ∈ s.accounts.users)
    (hfold : toLower v.email = toLower l.verified.email) : v = u := by
  have hemail : v.email ∈ s.accounts.users.map (·.email) := List.mem_map.mpr ⟨v, hv, rfl⟩
  cases hr
  case linked hid hu => exact hc.linked l hl u hid v hv hfold
  case known hid hu he =>
    have hsame := hc.unlinked l hl hid v.email hemail hfold
    exact List.inj_on_of_nodup_map h.emails hv hu (hsame.trans he.symm)
  case created hid hno hrow => exact absurd (hc.unlinked l hl hid v.email hemail hfold) (hno v hv)

theorem Resolves.unique (hunique : Unique a) (hr : l.Resolves env a u a₁)
    (hs : a.userByIdentity l.identityKey l.verified.subject = none → Spelled a l.verified.email) : Unique a₁ := by
  cases hr
  case linked | known => exact hunique
  case created hid hno hrow =>
    subst hrow
    exact hunique.concat (hs hid) hno

end Logins

-- There is one account per mailbox all along every history in which addresses are spelled consistently.
theorem one_account_per_mailbox (env : Setup) (s : State) (events : List Event) (hwf : s.accounts.WF)
    (hunique : Unique s.accounts) (hnew : Along (State.step env) (DrawsNew env) s events)
    (h : Along (State.step env) (Consistent env) s events) : Along (State.step env) (OnePerMailbox env) s events := by
  refine Along.of_invariant (I := fun s => s.accounts.WF ∧ Unique s.accounts) (fun s e hI he => ?_) ⟨hwf, hunique⟩
    (hnew.and h)
  obtain ⟨hwf, hunique⟩ := hI
  obtain ⟨hnew, hc⟩ := he
  cases hl : s.attempt? env e
  case none =>
    have hstep : (s.step env e).accounts = e.accounts env s.accounts := by simp [State.step, hl]
    have hkept := (stable_unique e.address?).accounts env (fun _ haddr => haddr) ⟨hunique, hc.address⟩
    have hwf' := stable_wf.accounts env (e := e) (fun _ _ => trivial) hwf
    refine ⟨⟨hstep ▸ hkept.left, fun l hl' => ?_⟩, hstep ▸ hwf', hstep ▸ hkept.left⟩
    cases hl.symm.trans hl'
  case some l =>
    obtain ⟨u, a₁, hr, hf⟩ := finish_eq env l hwf (hnew l hl)
    have hstep : (s.step env e).accounts = a₁.modifyUser u.id (Accounts.stampLogin l.now (l.roleIfNew env)) := by
      simp [State.step, hl, hf]
    have hunique' : Unique (s.step env e).accounts := by
      have hu := Resolves.unique hunique hr (hc.unlinked l hl)
      rw [hstep, Unique, Accounts.map_email_modifyUser (f := Accounts.stampLogin l.now (l.roleIfNew env)) fun _ => rfl]
      exact hu
    have hwf' : (s.step env e).accounts.WF := by
      rw [hstep]
      exact (hr.wf hwf (hnew l hl)).left.modifyUser (fun _ => rfl) fun _ => rfl
    refine ⟨⟨hunique', fun l' hl' v hv hfold => ?_⟩, hwf', hunique'⟩
    obtain rfl : l = l' := Option.some.inj (hl.symm.trans hl')
    obtain rfl := Resolves.eq_of_fold hwf hl hc hr hv hfold
    exact Resolves.comesTo hwf (hnew l hl) hr hf

end Mailboxes

section Sample

instance [Casing] (a : Accounts) (address : String) : Decidable (Spelled a address) :=
  inferInstanceAs <| Decidable <| ∀ email ∈ a.users.map (·.email), toLower email = toLower address → email = address

instance [Casing] (env : Setup) (s : State) (e : Event) : Decidable (DrawsNew env s e) :=
  inferInstanceAs <| Decidable <| ∀ l ∈ s.attempt? env e, s.accounts.user? l.newID = none

instance [Casing] (env : Setup) (s : State) (e : Event) : Decidable (Consistent env s e) :=
  decidable_of_iff (_ ∧ _ ∧ _) ⟨fun ⟨h, h', h''⟩ => ⟨h, h', h''⟩, fun h => ⟨h.address, h.unlinked, h.linked⟩⟩

def sampleSetup : Setup where
  config := { oidcProviders := [{
    name := "corp"
    displayName := "Corp"
    issuer := "https://idp.example.com"
    clientID := "otelfleet"
    clientSecret := "" }] }
  out := {
    encryptClientSecret := fun _ => .ok []
    decrypt := fun _ => some ""
    certificateError := fun _ => none
    acceptsIssuer := (· == ·) }

def noAccounts : State where
  accounts := { customers := [], users := [] }

def inviteAndLogin (address : String) : List Event := [
  .administer [] (.invite 10 { email := "anna@example.com", role := "operator" }),
  .login 0 11 "corp" (.oidc { issuer := "https://idp.example.com", subject := "s1", email := address })]

theorem invited_user_logs_in :
    letI := Casing.ascii
    Along (State.step sampleSetup) (OnePerMailbox sampleSetup) noAccounts (inviteAndLogin "anna@example.com") :=
  @one_account_per_mailbox Casing.ascii sampleSetup noAccounts (inviteAndLogin "anna@example.com")
    (by constructor <;> decide) List.nodup_nil (by decide +kernel) (by decide +kernel)

-- The provider spells the address with a capital, and the invited user is left behind.
theorem capital_makes_second_account :
    letI := Casing.ascii
    let s := Histories.run (State.step sampleSetup) noAccounts (inviteAndLogin "Anna@example.com")
    s.accounts.users.map (fun u => (u.email, u.role)) =
        [("anna@example.com", .operator), ("Anna@example.com", .viewer)] ∧
      s.signIns.map (·.userID) = [11] ∧
      ¬Along (State.step sampleSetup) (OnePerMailbox sampleSetup) noAccounts (inviteAndLogin "Anna@example.com") := by
  refine ⟨by decide +kernel, by decide +kernel, fun h => ?_⟩
  have hunique := @OnePerMailbox.unique Casing.ascii _ _ _ h.right.left
  unfold Unique at hunique
  revert hunique
  decide +kernel

end Sample

end Auth
