import OtelFleet.Store.Users

open Authz (Role)

-- What the constraints of the tables around users come to, and what the transactions keep.
namespace Store.Accounts

structure WF (a : Accounts) : Prop where
  userIDs : (a.users.map (·.id)).Nodup
  emails : (a.users.map (·.email)).Nodup
  identities : (a.identities.map fun i => (i.provider, i.subject)).Nodup
  identified : ∀ i ∈ a.identities, ∃ u ∈ a.users, u.id = i.userID
  granted : ∀ g ∈ a.grants, ∃ u ∈ a.users, u.id = g.userID

variable {a a' : Accounts} {id : UUID} {u v : User}

section Users

theorem user?_eq_none : a.user? id = none ↔ ∀ u ∈ a.users, u.id ≠ id := by
  simp [user?]

theorem mem_of_user? (h : a.user? id = some u) : u ∈ a.users ∧ u.id = id :=
  ⟨List.mem_of_find?_eq_some h, by simpa using List.find?_some h⟩

theorem user?_isSome_iff : (a.user? id).isSome ↔ ∃ u ∈ a.users, u.id = id := by
  simp [user?]

theorem WF.user?_eq (h : a.WF) (hu : u ∈ a.users) : a.user? u.id = some u := by
  have ⟨v, hv⟩ := Option.isSome_iff_exists.mp (user?_isSome_iff.mpr ⟨u, hu, rfl⟩)
  have ⟨hm, hid⟩ := mem_of_user? hv
  rw [hv, List.inj_on_of_nodup_map h.userIDs hm hu hid]

theorem mem_modifyUser : v ∈ (a.modifyUser id f).users ↔ ∃ u ∈ a.users, v = if u.id = id then f u else u := by
  simp [modifyUser, eq_comm]

theorem map_id_modifyUser (hf : ∀ u, (f u).id = u.id) : (a.modifyUser id f).users.map (·.id) = a.users.map (·.id) := by
  simp only [modifyUser, List.map_map]
  refine List.map_congr_left fun u _ => ?_
  simp only [Function.comp]
  split <;> simp [hf]

theorem user?_modifyUser_isSome (hf : ∀ u, (f u).id = u.id) :
    ((a.modifyUser id f).user? id').isSome = (a.user? id').isSome := by
  rw [Bool.eq_iff_iff, user?_isSome_iff, user?_isSome_iff]
  have hmem (b : Accounts) : (∃ u ∈ b.users, u.id = id') ↔ id' ∈ b.users.map (·.id) := by simp
  rw [hmem, hmem, map_id_modifyUser hf]

theorem update_id (now : Int) (upd : UserUpdate) (u : User) : (u.update now upd).id = u.id := by
  cases hr : upd.role <;> cases hd : upd.disabled <;> simp [User.update, hr, hd, User.setDisabled]

end Users

section Transactions

theorem insertUser_eq_ok (h : a.insertUser u = .ok a') :
    (∀ v ∈ a.users, v.email ≠ u.email) ∧ (∀ v ∈ a.users, v.id ≠ u.id) ∧
      a' = { a with users := a.users ++ [u] } := by
  unfold insertUser at h
  split_ifs at h with he hx hid
  rw [Option.not_isSome_iff_eq_none, user?_eq_none] at hid
  simp only [not_exists, not_and] at he
  cases h
  exact ⟨he, hid, rfl⟩

theorem insertUser_of_new (hemail : ∀ v ∈ a.users, v.email ≠ u.email) (hid : a.user? u.id = none)
    (hext : u.externalID = none) : a.insertUser u = .ok { a with users := a.users ++ [u] } := by
  have hno : ¬∃ v ∈ a.users, v.email = u.email := fun ⟨v, hv, he⟩ => hemail v hv he
  simp [insertUser, hno, hext, hid]

theorem WF.createInvitedUser_unlimited (h : a.WF) (hc : a.createInvitedUser id email role = .ok a') :
    (a'.user? id).isSome ∧ a'.listUserCustomerIDs id = [] := by
  obtain ⟨_, hid, rfl⟩ := insertUser_eq_ok hc
  refine ⟨user?_isSome_iff.mpr ⟨_, List.mem_append_right _ (List.mem_singleton.mpr rfl), rfl⟩, ?_⟩
  rw [listUserCustomerIDs, List.map_eq_nil_iff, List.filter_eq_nil_iff]
  intro g hg
  have ⟨u, hu, he⟩ := h.granted g hg
  simpa [he] using hid u hu

theorem insertGrants_users (h : insertGrants userID cids a = .ok a') : a'.users = a.users := by
  induction cids generalizing a
  case nil =>
    cases h
    rfl
  case cons cid cids hi =>
    simp only [insertGrants] at h
    split_ifs at h with hc hg
    · exact hi h
    · have hu := hi h
      exact hu

theorem setUserCustomerGrants_eq_ok
    (h : a.setUserCustomerGrants userID cids = .ok a') : (a.user? userID).isSome ∧ a'.users = a.users := by
  unfold setUserCustomerGrants at h
  split_ifs at h with hu
  rw [Option.isNone_iff_eq_none, ← ne_eq, ← Option.isSome_iff_ne_none] at hu
  have husers := insertGrants_users h
  exact ⟨hu, husers⟩

theorem ensureEnabledAdminRemains_eq_ok (h : a.ensureEnabledAdminRemains = .ok a') : a' = a ∧ a.hasEnabledAdmin := by
  unfold ensureEnabledAdminRemains at h
  split_ifs at h with ha
  cases h
  exact ⟨rfl, ha⟩

theorem updateUserAdmin_eq_ok (h : a.updateUserAdmin now id upd = .ok a') :
    (a.user? id).isSome ∧ a' = a.modifyUser id (·.update now upd) ∧ a'.hasEnabledAdmin := by
  unfold updateUserAdmin at h
  split_ifs at h with hu
  rw [Option.isNone_iff_eq_none, ← ne_eq, ← Option.isSome_iff_ne_none] at hu
  obtain ⟨rfl, ha⟩ := ensureEnabledAdminRemains_eq_ok h
  exact ⟨hu, rfl, ha⟩

theorem updateUserAdmin_user? (h : a.updateUserAdmin now id upd = .ok a') : (a'.user? id).isSome := by
  obtain ⟨hu, rfl, _⟩ := updateUserAdmin_eq_ok h
  rw [user?_modifyUser_isSome (update_id now upd)]
  exact hu

theorem getUserWithIdentities_of_isSome (h : (a.user? id).isSome) : ∃ u, a.getUserWithIdentities id = .ok u := by
  have ⟨u, hu⟩ := Option.isSome_iff_exists.mp h
  exact ⟨_, by rw [getUserWithIdentities, getUser, hu]; rfl⟩

end Transactions

section Constraints

theorem exists_id_of_subset {us us' : List User} (h : us.map (·.id) ⊆ us'.map (·.id)) (hu : ∃ u ∈ us, u.id = id) :
    ∃ u ∈ us', u.id = id :=
  List.mem_map.mp (h (List.mem_map.mpr hu))

theorem WF.insertUser (h : a.WF) (hc : a.insertUser u = .ok a') : a'.WF := by
  obtain ⟨hemail, hid, rfl⟩ := insertUser_eq_ok hc
  have hids : a.users.map (·.id) ⊆ (a.users ++ [u]).map (·.id) := by simp
  exact ⟨Assoc.nodup_map_concat h.userIDs hid, Assoc.nodup_map_concat h.emails hemail, h.identities,
    fun i hi => exists_id_of_subset hids (h.identified i hi), fun g hg => exists_id_of_subset hids (h.granted g hg)⟩

theorem map_email_modifyUser (hf : ∀ u, (f u).email = u.email) :
    (a.modifyUser id f).users.map (·.email) = a.users.map (·.email) := by
  simp only [modifyUser, List.map_map]
  refine List.map_congr_left fun u _ => ?_
  simp only [Function.comp]
  split <;> simp [hf]

theorem WF.modifyUser (h : a.WF) {f : User → User} (hid : ∀ u, (f u).id = u.id)
    (hemail : ∀ u, (f u).email = u.email) : (a.modifyUser id f).WF := by
  have hids : (a.modifyUser id f).users.map (·.id) = a.users.map (·.id) := map_id_modifyUser hid
  have hemails : (a.modifyUser id f).users.map (·.email) = a.users.map (·.email) := map_email_modifyUser hemail
  have hsub : a.users.map (·.id) ⊆ (a.modifyUser id f).users.map (·.id) := by
    rw [hids]
    exact List.Subset.refl _
  exact ⟨hids ▸ h.userIDs, hemails ▸ h.emails, h.identities,
    fun i hi => exists_id_of_subset hsub (h.identified i hi), fun g hg => exists_id_of_subset hsub (h.granted g hg)⟩

theorem WF.removeUser (h : a.WF) : (a.removeUser id).WF := by
  have hsub : (a.users.filter (·.id ≠ id)).Sublist a.users := List.filter_sublist
  have hkept {id' : UUID} (hne : id' ≠ id) (hu : ∃ u ∈ a.users, u.id = id') : ∃ u ∈ (a.removeUser id).users, u.id = id' := by
    obtain ⟨u, hu, rfl⟩ := hu
    exact ⟨u, List.mem_filter.mpr ⟨hu, by simpa using hne⟩, rfl⟩
  refine ⟨h.userIDs.sublist (hsub.map _), h.emails.sublist (hsub.map _),
    h.identities.sublist (List.filter_sublist.map _), fun i hi => ?_, fun g hg => ?_⟩
  · have ⟨hi, hne⟩ := List.mem_filter.mp hi
    exact hkept (by simpa using hne) (h.identified i hi)
  · have ⟨hg, hne⟩ := List.mem_filter.mp hg
    exact hkept (by simpa using hne) (h.granted g hg)

theorem insertGrants_eq_ok (h : insertGrants userID cids a = .ok a') :
    a'.identities = a.identities ∧ ∀ g ∈ a'.grants, g ∈ a.grants ∨ g.userID = userID := by
  induction cids generalizing a
  case nil =>
    cases h
    exact ⟨rfl, fun g hg => .inl hg⟩
  case cons cid cids hi =>
    simp only [insertGrants] at h
    split_ifs at h with hc hg
    · exact hi h
    · obtain ⟨hid, hgrants⟩ := hi h
      refine ⟨hid, fun g hg => ?_⟩
      obtain hg | hg := hgrants g hg
      · obtain hg | rfl := List.mem_append.mp hg |>.imp_right List.mem_singleton.mp
        · exact .inl hg
        · exact .inr rfl
      · exact .inr hg

theorem setUserCustomerGrants_identities
    (h : a.setUserCustomerGrants userID cids = .ok a') : a'.identities = a.identities := by
  unfold setUserCustomerGrants at h
  split_ifs at h with hu
  have hids := (insertGrants_eq_ok h).left
  exact hids

theorem WF.setUserCustomerGrants (h : a.WF) (hc : a.setUserCustomerGrants userID cids = .ok a') : a'.WF := by
  have ⟨hu, husers⟩ := setUserCustomerGrants_eq_ok hc
  have hids := setUserCustomerGrants_identities hc
  unfold Accounts.setUserCustomerGrants at hc
  split_ifs at hc
  have hgrants := (insertGrants_eq_ok hc).right
  refine ⟨husers ▸ h.userIDs, husers ▸ h.emails, hids ▸ h.identities, ?_, fun g hg => ?_⟩
  · rw [husers, hids]
    exact h.identified
  · rw [husers]
    obtain hg | rfl := hgrants g hg
    · exact h.granted g (List.mem_filter.mp hg).left
    · exact user?_isSome_iff.mp hu

theorem WF.addIdentity (h : a.WF) (hu : ∃ u ∈ a.users, u.id = i.userID)
    (hno : ∀ j ∈ a.identities, ¬(j.provider = i.provider ∧ j.subject = i.subject)) :
    { a with identities := a.identities ++ [i] }.WF where
  userIDs := h.userIDs
  emails := h.emails
  identities := Assoc.nodup_map_concat h.identities fun j hj he => hno j hj (Prod.mk.inj he)
  identified j hj := by
    obtain hj | rfl := (List.mem_append.mp hj).imp_right List.mem_singleton.mp
    · exact h.identified j hj
    · exact hu
  granted := h.granted

end Constraints

section Logins

variable {provider subject email : String} {displayName : Option String} {roleIfNew : Role}

theorem WF.userByIdentity_eq_none (h : a.WF) :
    a.userByIdentity provider subject = none ↔
      ∀ i ∈ a.identities, ¬(i.provider = provider ∧ i.subject = subject) := by
  unfold userByIdentity
  constructor
  case mp =>
    intro hn i hi hkey
    cases hf : a.identities.find? fun i => i.provider = provider ∧ i.subject = subject
    case none => simpa [hkey] using List.find?_eq_none.mp hf i hi
    case some j =>
      rw [hf] at hn
      have hj := user?_isSome_iff.mpr (h.identified j (List.mem_of_find?_eq_some hf))
      simp only [Option.bind_some] at hn
      simp [hn] at hj
  case mpr =>
    intro hno
    rw [List.find?_eq_none.mpr fun i hi => by simpa using hno i hi]
    rfl

def stampLogin (now : Int) (roleIfNew : Role) (u : User) : User :=
  { u with role := if roleIfNew = .admin then .admin else u.role, lastLoginAt := some now }

-- How a login finds its user: by the identity, by the address, or as a new one.
inductive Resolves (a : Accounts) (newID : UUID) (provider subject email : String) (displayName : Option String)
    (roleIfNew : Role) : User → Accounts → Prop
  | linked (u : User) (h : a.userByIdentity provider subject = some u) (hu : u ∈ a.users) :
    Resolves a newID provider subject email displayName roleIfNew u a
  | known (u : User) (h : a.userByIdentity provider subject = none) (hu : u ∈ a.users) (hemail : u.email = email) :
    Resolves a newID provider subject email displayName roleIfNew u
      { a with identities := a.identities ++ [{ userID := u.id, provider := provider, subject := subject }] }
  | created (u : User) (h : a.userByIdentity provider subject = none) (hno : ∀ v ∈ a.users, v.email ≠ email)
    (hu : u = { id := newID, email := email, displayName := displayName, role := roleIfNew }) :
    Resolves a newID provider subject email displayName roleIfNew u
      { a with
        users := a.users ++ [u]
        identities := a.identities ++ [{ userID := u.id, provider := provider, subject := subject }] }

theorem WF.getUser_modifyUser (h : a.WF) (hu : u ∈ a.users) (hid : ∀ u, (f u).id = u.id)
    (hemail : ∀ u, (f u).email = u.email) : (a.modifyUser u.id f).getUser u.id = .ok (f u) := by
  have hmem : f u ∈ (a.modifyUser u.id f).users := mem_modifyUser.mpr ⟨u, hu, by simp⟩
  have hfind := (h.modifyUser hid hemail).user?_eq hmem
  rw [hid] at hfind
  rw [getUser, hfind]
  rfl

theorem mem_of_userByIdentity (h : a.userByIdentity provider subject = some u) : u ∈ a.users := by
  unfold userByIdentity at h
  obtain ⟨i, _, hi⟩ := Option.bind_eq_some_iff.mp h
  exact (mem_of_user? hi).left

theorem Resolves.wf (h : a.WF) (hnew : a.user? newID = none)
    (hr : Resolves a newID provider subject email displayName roleIfNew u a') : a'.WF ∧ u ∈ a'.users := by
  cases hr
  case linked hu => exact ⟨h, hu⟩
  case known hn hu hemail => exact ⟨h.addIdentity ⟨u, hu, rfl⟩ (h.userByIdentity_eq_none.mp hn), hu⟩
  case created hn hno hrow =>
    have hu : u ∈ a.users ++ [u] := List.mem_append_right _ (List.mem_singleton.mpr rfl)
    have hins : a.insertUser u = .ok { a with users := a.users ++ [u] } := by
      subst hrow
      exact insertUser_of_new hno hnew rfl
    exact ⟨(h.insertUser hins).addIdentity ⟨u, hu, rfl⟩ (h.userByIdentity_eq_none.mp hn), hu⟩

theorem WF.upsertUserByIdentity (h : a.WF) (now : Int) (newID : UUID) (hnew : a.user? newID = none)
    (provider subject email : String) (displayName : Option String) (roleIfNew : Role) :
    ∃ u a₁, Resolves a newID provider subject email displayName roleIfNew u a₁ ∧
      a.upsertUserByIdentity now newID provider subject email displayName roleIfNew =
        .ok (stampLogin now roleIfNew u, a₁.modifyUser u.id (stampLogin now roleIfNew)) := by
  have hstamp (u : User) (a₁ : Accounts) (hr : Resolves a newID provider subject email displayName roleIfNew u a₁) :
      ((a₁.modifyUser u.id (stampLogin now roleIfNew)).getUser u.id).map
        (·, a₁.modifyUser u.id (stampLogin now roleIfNew)) =
      .ok (stampLogin now roleIfNew u, a₁.modifyUser u.id (stampLogin now roleIfNew)) := by
    have ⟨hwf, hu⟩ := hr.wf h hnew
    rw [hwf.getUser_modifyUser (f := stampLogin now roleIfNew) hu (fun _ => rfl) fun _ => rfl]
    rfl
  unfold Accounts.upsertUserByIdentity
  cases hid : a.userByIdentity provider subject
  case some u =>
    have hr : Resolves a newID provider subject email displayName roleIfNew u a :=
      .linked u hid (mem_of_userByIdentity hid)
    exact ⟨u, a, hr, hstamp u a hr⟩
  case none =>
    have hno : ¬∃ i ∈ a.identities, i.provider = provider ∧ i.subject = subject :=
      fun ⟨i, hi, hkey⟩ => h.userByIdentity_eq_none.mp hid i hi hkey
    cases hfind : a.users.find? (·.email = email)
    case some u =>
      have hemail : u.email = email := by simpa using List.find?_some hfind
      have hr : Resolves a newID provider subject email displayName roleIfNew u _ :=
        .known u hid (List.mem_of_find?_eq_some hfind) hemail
      refine ⟨u, _, hr, ?_⟩
      simp only [linkIdentity, hfind, if_neg hno]
      exact hstamp u _ hr
    case none =>
      have hemail : ∀ v ∈ a.users, v.email ≠ email := by simpa using List.find?_eq_none.mp hfind
      have hr : Resolves a newID provider subject email displayName roleIfNew _ _ := .created _ hid hemail rfl
      refine ⟨_, _, hr, ?_⟩
      have hins := insertUser_of_new (u := { id := newID, email := email, displayName := displayName, role := roleIfNew })
        hemail hnew rfl
      simp only [linkIdentity, hfind, hins, if_neg hno]
      exact hstamp _ _ hr

end Logins

end Store.Accounts
