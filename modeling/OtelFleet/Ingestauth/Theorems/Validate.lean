import OtelFleet.Ingestauth.Service
import OtelFleet.Lib.Paired

open Store (UUID CustomerStatus)
open Store.Keys (Database Customer APIKey AuthKey NewAPIKey CustomerUpdate validRateLimit)
open Tenants (parseKeyPrefix hashAPIKey generateAPIKey)
open Tenants.Accounts (Draw Issued)

namespace Ingestauth

section Validation

namespace Fact

def key? : Fact → Option (Issued × Option Int)
  | issued key expiresAt => some (key, expiresAt)
  | _ => none

def status? (id : UUID) : Fact → Option CustomerStatus
  | created customerID => if customerID = id then some .active else none
  | updated customerID upd => if customerID = id then upd.status else none
  | deleted customerID => if customerID = id then some .deleted else none
  | _ => none

def limit? (id : UUID) : Fact → Option (Option Nat)
  | created customerID => if customerID = id then some none else none
  | updated customerID upd => if customerID = id then upd.rateLimitItemsPerSec else none
  | _ => none

end Fact

def keysOf (facts : List Fact) : List (Issued × Option Int) :=
  facts.filterMap Fact.key?

-- The status that was set last.
def statusOf (facts : List Fact) (id : UUID) : Option CustomerStatus :=
  (facts.filterMap (·.status? id)).getLast?

def limitOf (facts : List Fact) (id : UUID) : Option (Option Nat) :=
  (facts.filterMap (·.limit? id)).getLast?

theorem statusOf_concat (facts : List Fact) (f : Fact) (id : UUID) :
    statusOf (facts ++ [f]) id = (f.status? id).or (statusOf facts id) := by
  rw [statusOf, List.filterMap_append, List.getLast?_append]
  cases h : f.status? id <;> simp [h, statusOf]

theorem limitOf_concat (facts : List Fact) (f : Fact) (id : UUID) :
    limitOf (facts ++ [f]) id = (f.limit? id).or (limitOf facts id) := by
  rw [limitOf, List.filterMap_append, List.getLast?_append]
  cases h : f.limit? id <;> simp [h, limitOf]

theorem keysOf_concat (facts : List Fact) (f : Fact) : keysOf (facts ++ [f]) = keysOf facts ++ f.key?.toList := by
  rw [keysOf, List.filterMap_append]
  cases h : f.key? <;> simp [h, keysOf]

theorem mem_keysOf : (key, expiresAt) ∈ keysOf facts ↔ .issued key expiresAt ∈ facts := by
  rw [keysOf, List.mem_filterMap]
  constructor
  · rintro ⟨f, hf, he⟩
    cases f
    case issued => cases he; exact hf
    all_goals cases he
  · exact fun hf => ⟨_, hf, rfl⟩

variable [Runtime]

structure IsKeyOf (k : APIKey) (r : Issued × Option Int) : Prop where
  id : k.id = r.1.keyID
  customerID : k.customerID = r.1.customerID
  keyHash : k.keyHash = hashAPIKey r.1.secret
  keyPrefix : parseKeyPrefix r.1.secret = some k.keyPrefix
  expiresAt : k.expiresAt = r.2

-- The tables hold what was told: the keys in their order, and what became of them and of their
-- customers.
structure Recorded (facts : List Fact) (db : Database) : Prop where
  keys : List.Forall₂ IsKeyOf db.keys (keysOf facts)
  keyIDs : (db.keys.map (·.id)).Nodup
  customerIDs : (db.customers.map (·.id)).Nodup
  limits : ∀ c ∈ db.customers, ∀ n ∈ c.rateLimitItemsPerSec, validRateLimit n
  status : ∀ c ∈ db.customers, statusOf facts c.id = some c.status
  limit : ∀ c ∈ db.customers, limitOf facts c.id = some c.rateLimitItemsPerSec
  known : ∀ customerID keyID, .revoked customerID keyID ∈ facts → ∃ key ∈ db.keys, key.id = keyID
  revoked : ∀ key ∈ db.keys, .revoked key.customerID key.id ∈ facts → key.revokedAt ≠ none
  unrevoked : ∀ key ∈ db.keys, key.revokedAt ≠ none → .revoked key.customerID key.id ∈ facts ∨
    ∃ c ∈ db.customers, c.id = key.customerID ∧ c.status = .deleted

section Transactions

theorem Recorded.modify (h : Recorded facts db) (hnew : f.key? = none)
    (hg : ∀ k, ∃ t, g k = { k with revokedAt := t }) (hid : ∀ c, (j c).id = c.id)
    (hlimits : ∀ c ∈ db.customers, ∀ n ∈ (j c).rateLimitItemsPerSec, validRateLimit n)
    (hstatus : ∀ c ∈ db.customers, (j c).status = (f.status? c.id).getD c.status)
    (hlimit : ∀ c ∈ db.customers, (j c).rateLimitItemsPerSec = (f.limit? c.id).getD c.rateLimitItemsPerSec)
    (hdeleted : ∀ c ∈ db.customers, c.status = .deleted → (j c).status = .deleted)
    (hknown : ∀ customerID keyID, .revoked customerID keyID = f → ∃ key ∈ db.keys, key.id = keyID)
    (hrevoked : ∀ key ∈ db.keys,
      key.revokedAt ≠ none ∨ .revoked key.customerID key.id = f → (g key).revokedAt ≠ none)
    (hunrevoked : ∀ key ∈ db.keys, (g key).revokedAt ≠ none → key.revokedAt ≠ none ∨
      .revoked key.customerID key.id = f ∨ ∃ c ∈ db.customers, c.id = key.customerID ∧ (j c).status = .deleted) :
    Recorded (facts ++ [f]) { customers := db.customers.map j, keys := db.keys.map g } := by
  have hkid : ∀ k, (g k).id = k.id := fun k => by have ⟨t, ht⟩ := hg k; rw [ht]
  have hkcid : ∀ k, (g k).customerID = k.customerID := fun k => by have ⟨t, ht⟩ := hg k; rw [ht]
  have hdone : ∀ key : APIKey, (∃ c ∈ db.customers, c.id = key.customerID ∧ (j c).status = .deleted) →
      ∃ c ∈ db.customers.map j, c.id = key.customerID ∧ c.status = .deleted := by
    rintro key ⟨c, hc, hcid, hdel⟩
    exact ⟨j c, List.mem_map_of_mem hc, (hid c).trans hcid, hdel⟩
  refine ⟨?keys, ?keyIDs, ?customerIDs, ?limits, ?status, ?limit, ?known, ?revoked, ?unrevoked⟩
  case keys =>
    rw [keysOf_concat, hnew, Option.toList_none, List.append_nil]
    refine List.forall₂_map_left_iff.mpr (h.keys.imp fun k r hk => ?_)
    have ⟨t, ht⟩ := hg k
    rw [ht]
    exact ⟨hk.id, hk.customerID, hk.keyHash, hk.keyPrefix, hk.expiresAt⟩
  case keyIDs => simpa [Function.comp_def, hkid] using h.keyIDs
  case customerIDs => simpa [Function.comp_def, hid] using h.customerIDs
  case limits => exact List.forall_mem_map.mpr hlimits
  case status =>
    refine List.forall_mem_map.mpr fun c hc => ?_
    rw [statusOf_concat, hid, h.status c hc, hstatus c hc]
    cases f.status? c.id <;> rfl
  case limit =>
    refine List.forall_mem_map.mpr fun c hc => ?_
    rw [limitOf_concat, hid, h.limit c hc, hlimit c hc]
    cases f.limit? c.id <;> rfl
  case known =>
    intro customerID keyID hmem
    have ⟨key, hkey, he⟩ := (List.mem_append.mp hmem).elim (h.known _ _)
      fun hf => hknown _ _ (List.mem_singleton.mp hf)
    exact ⟨g key, List.mem_map_of_mem hkey, (hkid key).trans he⟩
  case revoked =>
    refine List.forall_mem_map.mpr fun key hkey hmem => hrevoked key hkey ?_
    rw [hkid, hkcid] at hmem
    exact (List.mem_append.mp hmem).imp (h.revoked key hkey) List.mem_singleton.mp
  case unrevoked =>
    refine List.forall_mem_map.mpr fun key hkey hr => ?_
    rw [hkid, hkcid]
    obtain hr | hf | hc := hunrevoked key hkey hr
    · obtain hmem | ⟨c, hc, hcid, hdel⟩ := h.unrevoked key hkey hr
      · exact .inl (List.mem_append_left _ hmem)
      · exact .inr (hdone key ⟨c, hc, hcid, hdeleted c hc hdel⟩)
    · exact .inl (List.mem_append_right _ (List.mem_singleton.mpr hf))
    · exact .inr (hdone key hc)

theorem Recorded.insertAPIKey (h : Recorded facts db)
    (hk : IsKeyOf k.row (r, k.expiresAt)) (hdb : db.insertAPIKey k = .ok db') :
    Recorded (facts ++ [.issued r k.expiresAt]) db' := by
  unfold Database.insertAPIKey at hdb
  split_ifs at hdb with hnew
  cases hdb
  push Not at hnew
  have hfresh : ∀ customerID, .revoked customerID k.id ∉ facts := by
    intro customerID hmem
    have ⟨key, hkey, he⟩ := h.known _ _ hmem
    exact hnew.left key hkey he
  have hmem : ∀ customerID keyID, .revoked customerID keyID ∈ facts ++ [.issued r k.expiresAt] ↔
      .revoked customerID keyID ∈ facts := by simp
  refine ⟨?_, Assoc.nodup_map_concat h.keyIDs hnew.left, h.customerIDs, h.limits, ?_, ?_, ?_, ?_, ?_⟩
  · rw [keysOf_concat]
    exact List.rel_append h.keys (.cons hk .nil)
  · intro c hc
    rw [statusOf_concat]
    exact h.status c hc
  · intro c hc
    rw [limitOf_concat]
    exact h.limit c hc
  · intro customerID keyID hrev
    have ⟨key, hkey, he⟩ := h.known _ _ ((hmem _ _).mp hrev)
    exact ⟨key, List.mem_append_left _ hkey, he⟩
  · simp only [List.forall_mem_append, List.forall_mem_singleton, hmem]
    exact ⟨h.revoked, fun hrev => absurd hrev (hfresh _)⟩
  · simp only [List.forall_mem_append, List.forall_mem_singleton, hmem]
    exact ⟨h.unrevoked, fun hr => absurd rfl hr⟩

theorem Recorded.createCustomer (h : Recorded facts db)
    (hk : IsKeyOf k.row (r, k.expiresAt)) (hdb : db.createCustomer c k = .ok db') :
    Recorded (facts ++ [.created c.id, .issued r k.expiresAt]) db' := by
  unfold Database.createCustomer at hdb
  split_ifs at hdb with hid
  push Not at hid
  rw [List.append_cons]
  refine Recorded.insertAPIKey ?_ hk hdb
  have hother : ∀ d ∈ db.customers, (Fact.created c.id).status? d.id = none ∧ (Fact.created c.id).limit? d.id = none := by
    intro d hd
    have hne := Ne.symm (hid d hd)
    simp [Fact.status?, Fact.limit?, hne]
  refine ⟨?_, h.keyIDs, Assoc.nodup_map_concat h.customerIDs hid, ?_, ?_, ?_, ?_, ?_, ?_⟩
  · rw [keysOf_concat]
    simpa [Fact.key?] using h.keys
  · simp only [List.forall_mem_append, List.forall_mem_singleton]
    exact ⟨h.limits, by simp [Store.Keys.NewCustomer.row]⟩
  · simp only [List.forall_mem_append, List.forall_mem_singleton, statusOf_concat]
    refine ⟨fun d hd => ?_, by simp [Fact.status?, Store.Keys.NewCustomer.row]⟩
    rw [(hother d hd).left, Option.none_or, h.status d hd]
  · simp only [List.forall_mem_append, List.forall_mem_singleton, limitOf_concat]
    refine ⟨fun d hd => ?_, by simp [Fact.limit?, Store.Keys.NewCustomer.row]⟩
    rw [(hother d hd).right, Option.none_or, h.limit d hd]
  · simpa using h.known
  · simpa using h.revoked
  · intro key hkey hr
    refine (h.unrevoked key hkey hr).imp (List.mem_append_left _) ?_
    rintro ⟨d, hd, hdeleted⟩
    exact ⟨d, List.mem_append_left _ hd, hdeleted⟩

theorem Recorded.createAPIKey (h : Recorded facts db)
    (hk : IsKeyOf k.row (r, k.expiresAt)) (hdb : db.createAPIKey k = .ok db') :
    Recorded (facts ++ [.issued r k.expiresAt]) db' := by
  unfold Database.createAPIKey at hdb
  cases hc : db.getCustomer k.customerID
  case error e => simp [hc, bind, Except.bind] at hdb
  case ok c => exact h.insertAPIKey hk (by simpa [hc, bind, Except.bind] using hdb)

theorem Recorded.revokeAPIKey (h : Recorded facts db)
    (hdb : db.revokeAPIKey now customerID keyID = .ok db') : Recorded (facts ++ [.revoked customerID keyID]) db' := by
  unfold Database.revokeAPIKey at hdb
  split_ifs at hdb with hex
  cases hdb
  have hm := h.modify (f := .revoked customerID keyID) (j := id)
    (g := fun k => if k.id = keyID ∧ k.customerID = customerID then k.revoke now else k) rfl
    (fun k => ?_) (fun _ => rfl) h.limits (fun _ _ => rfl) (fun _ _ => rfl) (fun _ _ => id) ?_ ?_ ?_
  · rwa [List.map_id] at hm
  · split_ifs
    · exact ⟨_, rfl⟩
    · exact ⟨k.revokedAt, rfl⟩
  · rintro _ _ ⟨⟩
    have ⟨key, hkey, he, _⟩ := hex
    exact ⟨key, hkey, he⟩
  · intro key _ hr
    split_ifs with hk
    · simp [APIKey.revoke]
    · refine hr.resolve_right fun he => hk ?_
      cases he
      exact ⟨rfl, rfl⟩
  · intro key _ hr
    split_ifs at hr with hk
    · exact .inr (.inl (by rw [hk.left, hk.right]))
    · exact .inl hr

theorem Recorded.customer? (h : Recorded facts db) (hc : c ∈ db.customers) : db.customer? c.id = some c :=
  Assoc.find?_unique (fun _ hd he => List.inj_on_of_nodup_map h.customerIDs hd hc (of_decide_eq_true he)) hc
    (decide_eq_true rfl)

theorem Recorded.updateCustomer (h : Recorded facts db) {id : UUID}
    (hs : u.status = upd.status) (hl : u.rateLimitItemsPerSec = upd.rateLimitItemsPerSec)
    (hdb : db.updateCustomer id u = .ok db') : Recorded (facts ++ [.updated id upd]) db' := by
  unfold Database.updateCustomer at hdb
  split_ifs at hdb with hex hlimit
  cases hdb
  push Not at hlimit
  have hm := h.modify (f := .updated id upd) (g := fun k => k) (j := fun c => if c.id = id then u.apply c else c) rfl
    (fun k => ⟨k.revokedAt, rfl⟩) (fun c => by split_ifs <;> rfl) ?_ ?_ ?_ ?_ (fun _ _ => nofun)
    (fun key _ hr => hr.resolve_right nofun) fun key _ hr => .inl hr
  · rwa [List.map_id'] at hm
  · intro c hc n hn
    split_ifs at hn
    · cases hu : u.rateLimitItemsPerSec
      case none => exact h.limits c hc n (by simpa [CustomerUpdate.apply, hu] using hn)
      case some limit => exact hlimit limit hu n (by simpa [CustomerUpdate.apply, hu] using hn)
    · exact h.limits c hc n hn
  · intro c _
    by_cases he : c.id = id
    · simp [Fact.status?, he, CustomerUpdate.apply, hs]
    · simp [Fact.status?, he, Ne.symm he]
  · intro c _
    by_cases he : c.id = id
    · simp [Fact.limit?, he, CustomerUpdate.apply, hl]
    · simp [Fact.limit?, he, Ne.symm he]
  · -- A deleted customer is not found.
    intro c hc hdel
    have hne : c.id ≠ id := by
      rintro rfl
      simp [h.customer? hc, hdel] at hex
    rwa [if_neg hne]

theorem Recorded.softDeleteCustomer (h : Recorded facts db) {id : UUID}
    (hdb : db.softDeleteCustomer now id = .ok db') : Recorded (facts ++ [.deleted id]) db' := by
  unfold Database.softDeleteCustomer at hdb
  split_ifs at hdb with hex
  cases hdb
  have ⟨c, hc, _⟩ := (Option.any_eq_true _ _).mp hex
  have hcid : c.id = id := by simpa using List.find?_some hc
  refine h.modify rfl (fun k => ?_) (fun c => by split_ifs <;> rfl) ?_ ?_ ?_ ?_ (fun _ _ => nofun) ?_ ?_
  · split_ifs
    · exact ⟨_, rfl⟩
    · exact ⟨k.revokedAt, rfl⟩
  · intro d hd n hn
    split_ifs at hn <;> exact h.limits d hd n hn
  · intro d _
    by_cases he : d.id = id
    · simp [Fact.status?, he]
    · simp [Fact.status?, he, Ne.symm he]
  · intro d _
    split_ifs <;> rfl
  · intro d _ hdel
    split_ifs
    · rfl
    · exact hdel
  · intro key _ hr
    split_ifs
    · simp [APIKey.revoke]
    · exact hr.resolve_right nofun
  · intro key _ hr
    split_ifs at hr with hk
    · exact .inr (.inr ⟨c, List.mem_of_find?_eq_some hc, hcid.trans hk.symm, by simp [hcid]⟩)
    · exact .inl hr

end Transactions

section Runs

variable {s : System}

theorem isKeyOf_newKey (d : Draw) : IsKeyOf d.newKey.row (d.issued, none) :=
  ⟨rfl, rfl, rfl, Tenants.parseKeyPrefix_generateAPIKey d.keyBytes, rfl⟩

theorem Recorded.tryCreate (h : Recorded facts db)
    (hc : Tenants.Accounts.tryCreate db name baseSlug derived draws left attempt slug = .ok (db', r)) :
    Recorded (facts ++ [.created r.customerID, .issued r none]) db' := by
  induction left generalizing attempt slug
  case zero => cases hc
  case succ left hi =>
    unfold Tenants.Accounts.tryCreate at hc
    split at hc
    case h_1 db'' hok =>
      cases hc
      exact h.createCustomer (isKeyOf_newKey _) hok
    case h_2 =>
      split_ifs at hc
      exact hi hc
    case h_3 => exact hi hc
    case h_4 => cases hc

theorem Recorded.create (h : Recorded facts db)
    (hc : Tenants.Accounts.createCustomer db name slug draws = .ok (db', r)) :
    Recorded (facts ++ [.created r.customerID, .issued r none]) db' := by
  unfold Tenants.Accounts.createCustomer at hc
  dsimp only at hc
  split_ifs at hc
  cases slug
  case none => exact h.tryCreate hc
  case some slug =>
    dsimp only at hc
    split_ifs at hc
    exact h.tryCreate hc

theorem Recorded.createKey (h : Recorded facts db)
    (hc : Tenants.Accounts.createAPIKey db customerID name expiresAt keyID bytes = .ok (db', r)) :
    Recorded (facts ++ [.issued r expiresAt]) db' := by
  unfold Tenants.Accounts.createAPIKey at hc
  dsimp only at hc
  split_ifs at hc
  generalize hk : db.createAPIKey _ = x at hc
  cases x
  case error e => cases hc
  case ok db'' =>
    cases hc
    have hkey := Tenants.parseKeyPrefix_generateAPIKey bytes
    exact Recorded.createAPIKey (r := ⟨customerID, keyID, _⟩) h ⟨rfl, rfl, rfl, hkey, rfl⟩ hk

theorem Recorded.settle (h : Recorded facts s.db) {x : Except ε α} {f : α → Database × List Fact}
    (hx : ∀ y, x = .ok y → Recorded (facts ++ (f y).2) (f y).1) :
    Recorded (facts ++ (s.settle (x.map f)).2) (s.settle (x.map f)).1.db := by
  cases x
  case error e => simpa [System.settle, Except.map] using h
  case ok y => exact hx y rfl

theorem Recorded.step (h : Recorded facts s.db) (e : Event) :
    Recorded (facts ++ (step s e).2) (step s e).1.db := by
  cases e
  case createCustomer name slug draws => exact h.settle fun _ => h.create
  case createAPIKey => exact h.settle fun _ => h.createKey
  case revokeAPIKey => exact h.settle fun _ => h.revokeAPIKey
  case updateCustomer id upd =>
    refine h.settle fun db' hdb => ?_
    unfold Tenants.Accounts.updateCustomer at hdb
    split at hdb
    case h_1 => cases hdb
    case h_2 name _ =>
      generalize hu : s.db.updateCustomer id _ = x at hdb
      cases x
      case error e => cases hdb
      case ok db'' =>
        cases hdb
        exact h.updateCustomer (u := { upd with name := name }) rfl rfl hu
  case deleteCustomer => exact h.settle fun _ => h.softDeleteCustomer
  case wait => simpa [Ingestauth.step] using h

theorem Recorded.run (h : Recorded facts s.db) (events : List Event) :
    Recorded (facts ++ (run s events).2) (run s events).1.db := by
  induction events generalizing s facts
  case nil => simpa [Ingestauth.run] using h
  case cons e es hi =>
    have hs := hi (h.step e)
    rwa [List.append_assoc] at hs

theorem recorded_run (start : Int) (events : List Event) :
    Recorded (run (.empty start) events).2 (run (.empty start) events).1.db := by
  have h : Recorded [] (System.empty start).db := by
    refine ⟨.nil, .nil, .nil, ?_, ?_, ?_, ?_, ?_, ?_⟩ <;> simp [System.empty]
  exact h.run events

end Runs

section Verdicts

variable {db : Database} {facts : List Fact} {now : Int} {k : String}

structure Answers (facts : List Fact) (r : ValidateAPIKeyResponse) (c : Customer) : Prop where
  valid : r.valid
  customerID : r.customerID = some c.id
  clientID : r.clientID = c.clientID
  rateLimit : (limitOf facts c.id).map (·.getD 0) = some r.rateLimitItemsPerSec.toNat

-- The string was returned as the secret of a key of the customer. The key was not revoked and has not
-- expired, and the customer was last made active.
structure Entitled (facts : List Fact) (now : Int) (k : String) (customerID : UUID) : Prop where
  key : ∃ key expiresAt, .issued key expiresAt ∈ facts ∧ key.secret = k ∧ key.customerID = customerID ∧
    .revoked customerID key.keyID ∉ facts ∧ ∀ t ∈ expiresAt, now < t
  active : statusOf facts customerID = some .active

-- No two secrets are the same, and the hash tells them and the string apart.
structure Distinct (facts : List Fact) (k : String) : Prop where
  secrets : ((keysOf facts).map (·.1.secret)).Nodup
  hashes : Set.InjOn hashAPIKey {x | x = k ∨ x ∈ (keysOf facts).map (·.1.secret)}

theorem Recorded.key_of_hash (h : Recorded facts db) (hd : Distinct facts k)
    (hkey : key ∈ db.keys) (hhash : hashAPIKey k = key.keyHash) :
    ∃ r ∈ keysOf facts, IsKeyOf key r ∧ r.1.secret = k := by
  obtain ⟨r, hr, hkr⟩ := h.keys.exists_of_mem_left hkey
  exact ⟨r, hr, hkr,
    (hd.hashes (.inl rfl) (.inr (List.mem_map_of_mem hr)) (hhash.trans hkr.keyHash)).symm⟩

omit [Runtime] in
theorem mem_activeKeysByPrefix :
    a ∈ db.activeKeysByPrefix keyPrefix ↔
      ∃ key ∈ db.keys, key.keyPrefix = keyPrefix ∧ key.revokedAt = none ∧ db.authKey key = some a := by
  simp only [Database.activeKeysByPrefix, List.mem_filterMap, List.mem_filter, decide_eq_true_eq]
  grind

theorem Recorded.find_key (h : Recorded facts db) (hd : Distinct facts r.1.secret)
    (hkey : key ∈ db.keys) (hr : r ∈ keysOf facts) (hk : IsKeyOf key r) (hrev : key.revokedAt = none)
    (ha : db.authKey key = some a) :
    (db.activeKeysByPrefix key.keyPrefix).find? (hashAPIKey r.1.secret = ·.keyHash) = some a := by
  have hhash : ∀ key' a', db.authKey key' = some a' → a'.keyHash = key'.keyHash := by
    intro key' a' ha'
    obtain ⟨c, -, rfl⟩ := Option.map_eq_some_iff.mp ha'
    rfl
  refine Assoc.find?_unique ?_ (mem_activeKeysByPrefix.mpr ⟨key, hkey, rfl, hrev, ha⟩) (decide_eq_true ?_)
  · intro a' ha' he
    obtain ⟨key', hkey', -, -, ha'⟩ := mem_activeKeysByPrefix.mp ha'
    obtain ⟨r', hr', hk', hs⟩ := h.key_of_hash hd hkey' ((of_decide_eq_true he).trans (hhash key' a' ha'))
    obtain rfl : r' = r := List.inj_on_of_nodup_map hd.secrets hr' hr hs
    have hkeys : key' = key := List.inj_on_of_nodup_map h.keyIDs hkey' hkey (hk'.id.trans hk.id.symm)
    exact Option.some.inj (ha'.symm.trans (hkeys ▸ ha))
  · exact hk.keyHash.symm.trans (hhash key a ha).symm

omit [Runtime] in
theorem expired_eq_false : expired a now = false ↔ ∀ t ∈ a.expiresAt, now < t := by
  simp [expired, Option.any_eq_false]

theorem Recorded.validate_of_entitled (h : Recorded facts db) (hd : Distinct facts k)
    (hc : c ∈ db.customers) (he : Entitled facts now k c.id) : Answers facts (validateAPIKey db now k) c := by
  obtain ⟨⟨r, expiresAt, hr, rfl, hcid, hnot, hexp⟩, hactive⟩ := he
  have hactive : c.status = .active := Option.some.inj ((h.status c hc).symm.trans hactive)
  have hr := mem_keysOf.mpr hr
  obtain ⟨key, hkey, hk⟩ := h.keys.exists_of_mem_right hr
  have hcid : key.customerID = c.id := hk.customerID.trans hcid
  have hrev : key.revokedAt = none := by
    by_contra hrev
    obtain hmem | ⟨d, hdm, hdid, hdel⟩ := h.unrevoked key hkey hrev
    · rw [hcid, hk.id] at hmem
      exact hnot hmem
    · obtain rfl : d = c := List.inj_on_of_nodup_map h.customerIDs hdm hc (hdid.trans hcid)
      rw [hactive] at hdel
      cases hdel
  have ha : db.authKey key = some (key.join c) := by
    rw [Database.authKey, hcid, h.customer? hc, Option.map_some]
  have hfind := h.find_key hd hkey hr hk hrev ha
  have hlimit : c.rateLimitItemsPerSec.getD 0 < 2 ^ 32 := by
    cases hl : c.rateLimitItemsPerSec
    case none => decide
    case some n => exact lt_trans (h.limits c hc n hl).right (by decide)
  have hresp : validateAPIKey db now r.secret = granted (key.join c) := by
    unfold validateAPIKey
    rw [hk.keyPrefix]
    dsimp only
    rw [hfind]
    dsimp only
    rw [if_neg]
    rintro (hx | hx)
    · have hexp : ∀ t ∈ (key.join c).expiresAt, now < t := by
        show ∀ t ∈ key.expiresAt, now < t
        rwa [hk.expiresAt]
      exact absurd hx (by rw [expired_eq_false.mpr hexp]; decide)
    · exact hx hactive
  rw [hresp]
  refine ⟨rfl, congrArg some hcid, rfl, ?_⟩
  rw [h.limit c hc]
  exact congrArg some (UInt32.toNat_ofNat_of_lt' hlimit).symm

theorem Recorded.entitled_of_valid (h : Recorded facts db) (hd : Distinct facts k)
    (hv : (validateAPIKey db now k).valid) :
    ∃ c ∈ db.customers, Entitled facts now k c.id ∧ (validateAPIKey db now k).customerID = some c.id := by
  unfold validateAPIKey at hv ⊢
  cases hp : parseKeyPrefix k
  case none => simp [hp] at hv
  case some keyPrefix =>
    simp only [hp] at hv ⊢
    cases hf : (db.activeKeysByPrefix keyPrefix).find? (hashAPIKey k = ·.keyHash)
    case none => simp [hf] at hv
    case some a =>
      simp only [hf] at hv ⊢
      obtain ⟨key, hkey, -, hrev, ha⟩ := mem_activeKeysByPrefix.mp (List.mem_of_find?_eq_some hf)
      obtain ⟨c, hc, rfl⟩ := Option.map_eq_some_iff.mp ha
      have hcid : c.id = key.customerID := by simpa using List.find?_some hc
      have hcm := List.mem_of_find?_eq_some hc
      split_ifs at hv ⊢ with hx
      push Not at hx
      have hhash : hashAPIKey k = (key.join c).keyHash := by simpa using List.find?_some hf
      obtain ⟨⟨r, expiresAt⟩, hr, hk, hs⟩ := h.key_of_hash hd hkey hhash
      have hactive : c.status = .active := hx.2
      refine ⟨c, hcm, ⟨⟨r, expiresAt, mem_keysOf.mp hr, hs, ?_, ?_, ?_⟩, ?_⟩, congrArg some hcid.symm⟩
      · exact hk.customerID.symm.trans hcid.symm
      · intro hmem
        rw [hcid, ← hk.id] at hmem
        exact h.revoked key hkey hmem hrev
      · have hexp := expired_eq_false.mp (by simpa using hx.1)
        exact fun t ht => hexp t (hk.expiresAt.trans ht)
      · rw [h.status c hcm, hactive]

end Verdicts

-- A string is valid for a customer if it is the secret of one of its keys that is neither revoked
-- nor expired, as long as the customer is active; and nothing else is valid.
theorem validateAPIKey_iff (start : Int) (events : List Event) (k : String)
    (hd : Distinct (run (.empty start) events).2 k) :
    let s := (run (.empty start) events).1
    let facts := (run (.empty start) events).2
    let r := validateAPIKey s.db s.now k
    (∀ c ∈ s.db.customers, Answers facts r c ↔ Entitled facts s.now k c.id) ∧
    (r.valid → ∃ c ∈ s.db.customers, Answers facts r c) := by
  intro s facts r
  have h := recorded_run start events
  refine ⟨fun c hc => ⟨fun ha => ?_, h.validate_of_entitled hd hc⟩, fun hv => ?_⟩
  · obtain ⟨d, hdm, he, hid⟩ := h.entitled_of_valid hd ha.valid
    have hcd : d = c := List.inj_on_of_nodup_map h.customerIDs hdm hc (Option.some.inj (hid.symm.trans ha.customerID))
    exact hcd ▸ he
  · obtain ⟨c, hc, he, -⟩ := h.entitled_of_valid hd hv
    exact ⟨c, hc, h.validate_of_entitled hd hc he⟩

end Validation

section Sample

@[reducible]
def plainRuntime : Runtime :=
  { Runtime.sample with sha256 := fun s => s.toByteArray.data.toList }

theorem plainRuntime_injective : Function.Injective plainRuntime.sha256 := by
  intro s t h
  have hdata : s.toByteArray.data = t.toByteArray.data := Array.toList_inj.mp h
  exact String.toByteArray_inj.mp (ByteArray.ext hdata)

def sampleBytes (b : UInt8) : Tenants.KeyBytes where
  lookup := .replicate 4 b
  secret := .replicate 32 0xff

def sampleDraws (n : Nat) : Draw where
  customerID := n
  keyID := n
  clientBytes := .replicate 4 n.toUInt8
  keyBytes := sampleBytes 1

def sampleEvents : List Event := [
  .createCustomer "Acme" none sampleDraws,
  .createAPIKey 1 "second" (some 60) 2 (sampleBytes 2),
  .updateCustomer 1 { status := some .suspended, rateLimitItemsPerSec := some (some 100) },
  .revokeAPIKey 1 1,
  .updateCustomer 1 { status := some .active },
  .wait 59]

-- The second key is good for one more second, with the limit that was set after it was created. The
-- first one is revoked.
theorem second_key_valid :
    letI := plainRuntime
    let s := (run (.empty 0) sampleEvents).1
    let facts := (run (.empty 0) sampleEvents).2
    let r := fun b => validateAPIKey s.db s.now (generateAPIKey (sampleBytes b)).secret
    (r 2).rateLimitItemsPerSec = 100 ∧ (∃ c ∈ s.db.customers, Answers facts (r 2) c) ∧ (r 1).valid = false ∧
      ∀ c ∈ s.db.customers, ¬Entitled facts s.now (generateAPIKey (sampleBytes 1)).secret c.id := by
  let := plainRuntime
  have hd (b : UInt8) : Distinct (run (.empty 0) sampleEvents).2 (generateAPIKey (sampleBytes b)).secret :=
    ⟨by decide +kernel, plainRuntime_injective.injOn⟩
  have hone : (validateAPIKey (run (.empty 0) sampleEvents).1.db (run (.empty 0) sampleEvents).1.now
      (generateAPIKey (sampleBytes 1)).secret).valid = false := by decide +kernel
  refine ⟨by decide +kernel, ?_, hone, fun c hc he => ?_⟩
  · exact (validateAPIKey_iff 0 sampleEvents (generateAPIKey (sampleBytes 2)).secret (hd 2)).2 (by decide +kernel)
  · have ha := ((validateAPIKey_iff 0 sampleEvents (generateAPIKey (sampleBytes 1)).secret (hd 1)).1 c hc).mpr he
    exact absurd (hone.symm.trans ha.valid) (by decide)

end Sample

end Ingestauth
