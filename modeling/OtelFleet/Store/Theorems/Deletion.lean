import OtelFleet.Store.Deletion
import OtelFleet.Store.Theorems.Users

-- When a user can be deleted, and what is left then.
namespace Store.Deletion

variable {κ : Table → Type} {db db' : Database κ} {id : UUID} {entries : List AuditEntry}

structure Database.WF (db : Database κ) : Prop where
  accounts : db.accounts.WF
  attributed : ∀ t, ∀ r ∈ db.rows t, ∀ id ∈ r.createdBy, (db.accounts.user? id).isSome

-- A user is gone with all that is its own, nothing refers to it, and everything else is as it was.
structure Removed [SessionCodec] (db : Database κ) (id : UUID) (entries : List AuditEntry) (db' : Database κ) :
    Prop where
  users : db'.accounts.users = db.accounts.users.filter (·.id ≠ id)
  identities : db'.accounts.identities = db.accounts.identities.filter (·.userID ≠ id)
  grants : db'.accounts.grants = db.accounts.grants.filter (·.userID ≠ id)
  customers : db'.accounts.customers = db.accounts.customers
  rows : ∀ t, db'.rows t = (db.rows t).map (·.detach id)
  sessions : db'.sessions = db.sessions.filter (SessionCodec.userOf ·.data ≠ some id)
  audit : db'.audit = db.audit ++ entries

-- Nothing refers to the user but the tables that let go of it, and no session of somebody else mentions it.
structure Free [SessionCodec] (db : Database κ) (id : UUID) : Prop where
  rows : ∀ t, t ∉ Database.detached → ∀ r ∈ db.rows t, r.createdBy ≠ some id
  sessions : ∀ s ∈ db.sessions, SessionCodec.text id <:+: s.data → SessionCodec.userOf s.data = some id

theorem detach_createdBy (r : Attributed α) : (r.detach id).createdBy ≠ some id := by
  unfold Attributed.detach
  split_ifs with h
  · simp
  · exact h

theorem detach_of_ne {r : Attributed α} (h : r.createdBy ≠ some id) : r.detach id = r := by
  simp [Attributed.detach, h]

theorem foldl_detach {ts : List Table} (h : ts.Nodup) :
    ts.foldl (Database.detach id) db =
      { db with rows := fun t => if t ∈ ts then (db.rows t).map (·.detach id) else db.rows t } := by
  induction ts generalizing db
  case nil => rfl
  case cons t ts hi =>
    have ⟨ht, hts⟩ := List.nodup_cons.mp h
    rw [List.foldl_cons, hi hts, Database.detach]
    congr 1
    funext t'
    by_cases he : t' = t
    case pos =>
      subst he
      simp [ht]
    case neg => simp [he]

theorem referenced_detach :
    (Database.detached.foldl (Database.detach id) db).Referenced id ↔
      ∃ t, t ∉ Database.detached ∧ ∃ r ∈ db.rows t, r.createdBy = some id := by
  rw [foldl_detach (by decide)]
  refine exists_congr fun t => ?_
  by_cases ht : t ∈ Database.detached
  case pos =>
    simp only [ht, if_true, not_true_eq_false, false_and, iff_false]
    rintro ⟨r, hr, hid⟩
    obtain ⟨r, _, rfl⟩ := List.mem_map.mp hr
    exact detach_createdBy r hid
  case neg => simp [ht]

theorem hasEnabledAdmin_removeUser {a : Accounts} (hv : v ∈ a.users) (hne : v.id ≠ id)
    (hadmin : v.isEnabledAdmin) : (a.removeUser id).hasEnabledAdmin := by
  simp only [Accounts.hasEnabledAdmin, List.any_eq_true]
  exact ⟨v, by simpa [Accounts.removeUser] using ⟨hv, hne⟩, hadmin⟩

section Delete

variable [SessionCodec] {u v : User}

theorem deleteUser_eq (hu : u ∈ db.accounts.users) (hv : v ∈ db.accounts.users) (hne : v.id ≠ u.id)
    (hadmin : v.isEnabledAdmin) :
    db.deleteUser u.id entries =
      if (Database.detached.foldl (Database.detach u.id) db).Referenced u.id then .error (.failed "delete user")
      else .ok {
        accounts := db.accounts.removeUser u.id
        rows := fun t => if t ∈ Database.detached then (db.rows t).map (·.detach u.id) else db.rows t
        sessions := db.sessions.filter fun s => !decide (SessionCodec.text u.id <:+: s.data)
        audit := db.audit ++ entries } := by
  have hfind : (db.accounts.user? u.id).isNone = false := by
    simpa using Accounts.user?_isSome_iff.mpr ⟨u, hu, rfl⟩
  have hrest := hasEnabledAdmin_removeUser hv hne hadmin
  unfold Database.deleteUser Database.deleteUserRow
  by_cases href : (Database.detached.foldl (Database.detach u.id) db).Referenced u.id
  case pos =>
    rw [if_pos href, if_pos href, foldl_detach (by decide)]
    simp only [hfind]
    rfl
  case neg =>
    rw [if_neg href, if_neg href, foldl_detach (by decide)]
    simp only [hfind, Accounts.ensureEnabledAdminRemains, hrest, bind, Except.bind, Bool.false_eq_true, if_false, if_true]
    rfl

theorem filter_sessions_iff :
    (db.sessions.filter fun s => !decide (SessionCodec.text id <:+: s.data)) =
      db.sessions.filter (SessionCodec.userOf ·.data ≠ some id) ↔
    ∀ s ∈ db.sessions, SessionCodec.text id <:+: s.data → SessionCodec.userOf s.data = some id := by
  constructor
  case mp =>
    intro h s hs htext
    by_contra hne
    have hmem : s ∈ db.sessions.filter (SessionCodec.userOf ·.data ≠ some id) :=
      List.mem_filter.mpr ⟨hs, by simpa using hne⟩
    rw [← h] at hmem
    simp [htext] at hmem
  case mpr =>
    intro h
    refine List.filter_congr fun s hs => ?_
    rw [Bool.eq_iff_iff]
    simp only [Bool.not_eq_true', decide_eq_false_iff_not, decide_eq_true_eq]
    exact not_congr ⟨h s hs, SessionCodec.text_mem s.data id⟩

-- A user is removed without a trace if and only if the tables that do not let go of it have nothing to
-- do with it, and no session of somebody else mentions it.
theorem deleteUser_removes_iff (db : Database κ) (u : User) (entries : List AuditEntry) (hu : u ∈ db.accounts.users)
    (hother : ∃ v ∈ db.accounts.users, v.id ≠ u.id ∧ v.isEnabledAdmin) :
    (∃ db', db.deleteUser u.id entries = .ok db' ∧ Removed db u.id entries db') ↔ Free db u.id := by
  obtain ⟨v, hv, hne, hadmin⟩ := hother
  rw [deleteUser_eq hu hv hne hadmin]
  by_cases href : (Database.detached.foldl (Database.detach u.id) db).Referenced u.id
  case pos =>
    rw [if_pos href]
    refine iff_of_false (fun ⟨_, h, _⟩ => by cases h) fun h => ?_
    obtain ⟨t, ht, r, hr, hid⟩ := referenced_detach.mp href
    exact h.rows t ht r hr hid
  case neg =>
    rw [if_neg href]
    have hrows : ∀ t, t ∉ Database.detached → ∀ r ∈ db.rows t, r.createdBy ≠ some u.id :=
      fun t ht r hr hid => href (referenced_detach.mpr ⟨t, ht, r, hr, hid⟩)
    constructor
    case mp =>
      rintro ⟨db', h, hremoved⟩
      cases h
      exact ⟨hrows, filter_sessions_iff.mp hremoved.sessions⟩
    case mpr =>
      intro h
      refine ⟨_, rfl, rfl, rfl, rfl, rfl, fun t => ?_, filter_sessions_iff.mpr h.sessions, rfl⟩
      by_cases ht : t ∈ Database.detached
      case pos => exact if_pos ht
      case neg =>
        have hsame : (db.rows t).map (·.detach u.id) = db.rows t :=
          (List.map_congr_left fun r hr => detach_of_ne (hrows t ht r hr)).trans (List.map_id' _)
        exact (if_neg ht).trans hsame.symm

end Delete

section Sample

@[reducible]
def SessionCodec.sample : SessionCodec where
  text id := [UInt8.ofNat id]
  userOf data := data.head?.map (·.toNat)
  text_mem data id h := by
    cases data
    case nil => cases h
    case cons b bs =>
      obtain rfl : b.toNat = id := by simpa using h
      exact ⟨[], bs, by simp⟩

def sampleDatabase (token : Bool) : Database fun _ => String where
  accounts := { customers := [], users := [
    { id := 3, email := "admin@example.com", role := .admin },
    { id := 4, email := "second@example.com", role := .admin }] }
  rows
    | .apiKeys => [{ createdBy := some 4, columns := "ingest" }, { createdBy := some 3, columns := "edge" }]
    | .apiTokens => if token then [{ createdBy := some 4, columns := "ci" }] else []
    | _ => []
  sessions := [{ token := "a", data := [4, 0], expiry := 0 }, { token := "b", data := [3, 1], expiry := 0 }]
  audit := []

theorem second_admin_removed :
    letI := SessionCodec.sample
    ∃ db', (sampleDatabase false).deleteUser 4 [] = .ok db' ∧ Removed (sampleDatabase false) 4 [] db' := by
  refine (@deleteUser_removes_iff _ SessionCodec.sample (sampleDatabase false)
    { id := 4, email := "second@example.com", role := .admin } [] (by decide) ⟨_, List.mem_cons_self, ?_⟩).mpr ?_
  · decide
  · refine @Free.mk _ SessionCodec.sample _ _ (fun t ht => ?_) (by decide)
    cases t
    case apiKeys | pipelineVersions | bootstrapTokens => exact absurd (by decide) ht
    case webhooks | apiTokens | billingSettings => exact fun r hr => nomatch hr

-- The token that an admin has made keeps the admin from being deleted.
theorem token_keeps_admin :
    letI := SessionCodec.sample
    (sampleDatabase true).WF ∧ (∃ v ∈ (sampleDatabase true).accounts.users, v.id ≠ 4 ∧ v.isEnabledAdmin) ∧
      (sampleDatabase true).deleteUser 4 [] = .error (.failed "delete user") ∧
      ¬∃ db', (sampleDatabase true).deleteUser 4 [] = .ok db' ∧ Removed (sampleDatabase true) 4 [] db' := by
  have hfails : @Database.deleteUser _ SessionCodec.sample (sampleDatabase true) 4 [] = .error (.failed "delete user") :=
    rfl
  refine ⟨⟨by constructor <;> decide, fun t => ?_⟩, by decide, hfails, fun ⟨_, h, _⟩ => ?_⟩
  · cases t <;> decide
  · cases hfails.symm.trans h

end Sample

end Store.Deletion
