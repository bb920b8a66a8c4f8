import OtelFleet.Auth.Theorems.Mailboxes

open Histories (Along)
open Store (UUID User Accounts Identity)
open Strings (Casing)

-- When the identities of users belong to the issuers that have linked them.
namespace Auth

-- Every identity stems from a login that was let in.
def Accounted (s : State) : Prop :=
  ∀ i ∈ s.accounts.identities, ∃ r ∈ s.signIns,
    r.identityKey = i.provider ∧ r.subject = i.subject ∧ r.userID = i.userID

theorem stable_identities (Q : Identity → Prop) : Stable (fun _ => True) fun a => ∀ i ∈ a.identities, Q i where
  insert a a' u hc ha _ := by
    obtain ⟨_, _, rfl⟩ := Accounts.insertUser_eq_ok hc
    exact ha
  modify a id f ha _ _ := ha
  grants a a' userID cids ha hc := by
    rw [Accounts.setUserCustomerGrants_identities hc]
    exact ha
  remove a id ha i hi := ha i (List.mem_filter.mp hi).left

theorem exists_identity_of_userByIdentity {a : Accounts} (h : a.userByIdentity provider subject = some u) :
    ∃ i ∈ a.identities, i.provider = provider ∧ i.subject = subject ∧ i.userID = u.id := by
  unfold Accounts.userByIdentity at h
  obtain ⟨i, hi, hu⟩ := Option.bind_eq_some_iff.mp h
  have hkey : i.provider = provider ∧ i.subject = subject := by simpa using List.find?_some hi
  exact ⟨i, List.mem_of_find?_eq_some hi, hkey.left, hkey.right, (Accounts.mem_of_user? hu).right.symm⟩

theorem mem_signIn {l : Attempt} (hu : u.disabledAt = none) :
    { identityKey := l.identityKey, issuer := l.verified.issuer, subject := l.verified.subject, userID := u.id } ∈
      l.signIn (.of u) := by
  simp [Outcome.of, hu, Attempt.signIn]

theorem eq_of_signedIn? (h : userID ∈ (Outcome.of u).signedIn?) : u.id = userID := by
  unfold Outcome.of at h
  split_ifs at h
  · cases h
  · exact Option.some.inj h

section Issuers

variable [Casing]

-- A login is let in as a user only if the same issuer has vouched for the same subject as this user
-- before, or the address is the user's.
def Belongs (env : Setup) (s : State) (e : Event) : Prop :=
  ∀ l ∈ s.attempt? env e, ∀ userID ∈ (l.finish env s.accounts).1.signedIn?,
    (∃ r ∈ s.signIns, r.issuer = l.verified.issuer ∧ r.subject = l.verified.subject ∧ r.userID = userID) ∨
    ∃ u ∈ (l.finish env s.accounts).2.users, u.id = userID ∧ u.email = l.verified.email

-- The issuer behind an identity key and a subject is always the same, and the login that links an
-- identity is let in.
structure Steady (env : Setup) (s : State) (e : Event) : Prop where
  issuer : ∀ l ∈ s.attempt? env e, ∀ r ∈ s.signIns, r.identityKey = l.identityKey →
    r.subject = l.verified.subject → r.issuer = l.verified.issuer
  enabled : ∀ l ∈ s.attempt? env e, s.accounts.userByIdentity l.identityKey l.verified.subject = none →
    ∀ u ∈ s.accounts.users, u.email = l.verified.email → u.disabledAt = none

section Logins

theorem Resolves.belongs (hacc : Accounted s) (hs : Steady env s e) (hl : l ∈ s.attempt? env e)
    (hr : l.Resolves env s.accounts u a₁) :
    (∃ r ∈ s.signIns, r.issuer = l.verified.issuer ∧ r.subject = l.verified.subject ∧ r.userID = u.id) ∨
      u ∈ a₁.users ∧ u.email = l.verified.email := by
  cases hr
  case linked hid hu =>
    obtain ⟨i, hi, hkey, hsub, huser⟩ := exists_identity_of_userByIdentity hid
    obtain ⟨r, hr, hrkey, hrsub, hruser⟩ := hacc i hi
    exact .inl ⟨r, hr, hs.issuer l hl r hr (hrkey.trans hkey) (hrsub.trans hsub), hrsub.trans hsub, hruser.trans huser⟩
  case known hid hu hemail => exact .inr ⟨hu, hemail⟩
  case created hid hno hrow => exact .inr ⟨List.mem_append_right _ (List.mem_singleton.mpr rfl), by rw [hrow]⟩

theorem Resolves.accounted (hacc : Accounted s) (hs : Steady env s e) (hl : l ∈ s.attempt? env e)
    (hr : l.Resolves env s.accounts u a₁) :
    ∀ i ∈ a₁.identities, ∃ r ∈ s.signIns ++ l.signIn (.of u),
      r.identityKey = i.provider ∧ r.subject = i.subject ∧ r.userID = i.userID := by
  have hold (i : Identity) (hi : i ∈ s.accounts.identities) : ∃ r ∈ s.signIns ++ l.signIn (.of u),
      r.identityKey = i.provider ∧ r.subject = i.subject ∧ r.userID = i.userID :=
    (hacc i hi).imp fun r hr => ⟨List.mem_append_left _ hr.left, hr.right⟩
  have hnew (hu : u.disabledAt = none) (i : Identity)
      (hi : i ∈ s.accounts.identities ++ [{ userID := u.id, provider := l.identityKey, subject := l.verified.subject }]) :
      ∃ r ∈ s.signIns ++ l.signIn (.of u),
        r.identityKey = i.provider ∧ r.subject = i.subject ∧ r.userID = i.userID := by
    obtain hi | rfl := (List.mem_append.mp hi).imp_right List.mem_singleton.mp
    · exact hold i hi
    · exact ⟨_, List.mem_append_right _ (mem_signIn hu), rfl, rfl, rfl⟩
  cases hr
  case linked hid hu => exact hold
  case known hid hu hemail => exact hnew (hs.enabled l hl hid u hu hemail)
  case created hid hno hrow => exact hnew (by rw [hrow])

end Logins

-- Identities belong to their issuers all along every history in which an identity key stands for one issuer.
theorem identities_belong (env : Setup) (s : State) (events : List Event) (hwf : s.accounts.WF) (hacc : Accounted s)
    (hnew : Along (State.step env) (DrawsNew env) s events) (h : Along (State.step env) (Steady env) s events) :
    Along (State.step env) (Belongs env) s events := by
  refine Along.of_invariant (I := fun s => s.accounts.WF ∧ Accounted s) (fun s e hI he => ?_) ⟨hwf, hacc⟩
    (hnew.and h)
  obtain ⟨hwf, hacc⟩ := hI
  obtain ⟨hnew, hs⟩ := he
  cases hl : s.attempt? env e
  case none =>
    have hstep : s.step env e =
        { s with accounts := e.accounts env s.accounts, providers := e.providers env s.providers } := by
      simp [State.step, hl]
    have hwf' := stable_wf.accounts env (e := e) (fun _ _ => trivial) hwf
    have hacc' := (stable_identities _).accounts env (e := e) (fun _ _ => trivial) hacc
    rw [hstep]
    exact ⟨fun l hl' => (by cases hl.symm.trans hl'), hwf', hacc'⟩
  case some l =>
    obtain ⟨u, a₁, hr, hf⟩ := finish_eq env l hwf (hnew l hl)
    have hstep : s.step env e =
        { s with
          accounts := a₁.modifyUser u.id (Accounts.stampLogin l.now (l.roleIfNew env))
          signIns := s.signIns ++ l.signIn (.of u) } := by
      simp [State.step, hl, hf]
    have hwf' : (a₁.modifyUser u.id (Accounts.stampLogin l.now (l.roleIfNew env))).WF :=
      (hr.wf hwf (hnew l hl)).left.modifyUser (fun _ => rfl) fun _ => rfl
    refine ⟨fun l' hl' userID hin => ?_, ?_⟩
    · obtain rfl : l = l' := Option.some.inj (hl.symm.trans hl')
      rw [hf] at hin ⊢
      obtain rfl := eq_of_signedIn? hin
      refine (Resolves.belongs hacc hs hl hr).imp_right ?_
      rintro ⟨hu, hemail⟩
      exact ⟨Accounts.stampLogin l.now (l.roleIfNew env) u, Accounts.mem_modifyUser.mpr ⟨u, hu, by simp⟩, rfl, hemail⟩
    · rw [hstep]
      have hacc' := Resolves.accounted hacc hs hl hr
      exact ⟨hwf', hacc'⟩

end Issuers

section Sample

instance [Casing] (env : Setup) (s : State) (e : Event) : Decidable (Belongs env s e) :=
  inferInstanceAs <| Decidable <| ∀ l ∈ s.attempt? env e, ∀ userID ∈ (l.finish env s.accounts).1.signedIn?,
    (∃ r ∈ s.signIns, r.issuer = l.verified.issuer ∧ r.subject = l.verified.subject ∧ r.userID = userID) ∨
    ∃ u ∈ (l.finish env s.accounts).2.users, u.id = userID ∧ u.email = l.verified.email

instance [Casing] (env : Setup) (s : State) (e : Event) : Decidable (Steady env s e) :=
  decidable_of_iff (_ ∧ _) ⟨fun ⟨h, h'⟩ => ⟨h, h'⟩, fun h => ⟨h.issuer, h.enabled⟩⟩

def loginBy (issuer address : String) (newID : UUID) : Event :=
  .login 0 newID "sso" (.oidc { issuer := issuer, subject := "1", email := address })

def ssoProvider : CreateBody where
  type := "oidc"
  name := "sso"
  displayName := "SSO"
  clientID := some "otelfleet"
  clientSecret := some "secret"
  issuer := some "https://idp.example.com"

-- A provider of the database, and two logins. The issuer may change in between.
def twoLogins (issuer : String) : List Event := [
  .createProvider 20 ssoProvider,
  loginBy "https://idp.example.com" "anna@example.com" 10,
  .updateProvider 20 { issuer := some issuer },
  loginBy issuer "boris@example.com" 11]

theorem renamed_user_logs_in :
    letI := Casing.ascii
    Along (State.step sampleSetup) (Belongs sampleSetup) noAccounts (twoLogins "https://idp.example.com") :=
  @identities_belong Casing.ascii sampleSetup noAccounts (twoLogins "https://idp.example.com")
    (by constructor <;> decide) (fun _ hi => nomatch hi) (by decide +kernel) (by decide +kernel)

-- Subject 1 of the new issuer is somebody else, and gets the account of subject 1 of the old one.
theorem new_issuer_takes_account :
    letI := Casing.ascii
    let s := Histories.run (State.step sampleSetup) noAccounts (twoLogins "https://idp.example.com/sso")
    s.accounts.users.map (fun u => (u.id, u.email)) = [(10, "anna@example.com")] ∧
      s.signIns.map (fun r => (r.issuer, r.userID)) =
        [("https://idp.example.com", 10), ("https://idp.example.com/sso", 10)] ∧
      ¬Along (State.step sampleSetup) (Belongs sampleSetup) noAccounts (twoLogins "https://idp.example.com/sso") := by
  decide +kernel

end Sample

end Auth
