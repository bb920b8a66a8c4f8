import OtelFleet.Api.Customers
import OtelFleet.Tenants.Theorems.Accounts

open Store (UUID)
open Strings (Casing equalFold)

-- What a patch of a customer leaves behind, against what its body says.
namespace Api.Customers

def State.rateLimit (s : State) (id : UUID) : Option Int :=
  (s.accounts.customer? id).bind fun c => c.rateLimitItemsPerSec.map Int.ofNat

section Stored

variable {id : UUID}

theorem storeCustomer_eq_ok (h : storeCustomer s id name status rateLimit retention = .ok s') :
    (∃ upd : Store.Keys.CustomerUpdate, Tenants.Accounts.updateCustomer s.accounts id upd = .ok s'.accounts ∧
      upd.rateLimitItemsPerSec = rateLimit.map (·.map Int.toNat)) ∧
      s'.retentionDays = retention.elim s.retentionDays (Function.update s.retentionDays id) := by
  unfold storeCustomer at h
  split at h
  case h_1 => split at h <;> cases h
  case h_2 =>
    split at h
    case h_1 => cases h
    case h_2 accounts hok =>
      cases h
      exact ⟨⟨_, hok, rfl⟩, rfl⟩

theorem rateLimit_storeCustomer (hpos : ∀ value ∈ rateLimit, ∀ n ∈ value, 1 ≤ n)
    (h : storeCustomer s id name status rateLimit retention = .ok s') :
    s'.rateLimit id = rateLimit.getD (s.rateLimit id) := by
  obtain ⟨⟨upd, hok, hupd⟩, -⟩ := storeCustomer_eq_ok h
  obtain ⟨c, hc⟩ := Option.isSome_iff_exists.mp (Tenants.Accounts.isSome_of_updateCustomer hok)
  rw [State.rateLimit, Tenants.Accounts.customer?_updateCustomer hok, State.rateLimit, hc]
  simp only [Option.map_some, Option.bind_some, Store.Keys.CustomerUpdate.apply, hupd]
  cases rateLimit
  case none => rfl
  case some value =>
    cases value
    case none => rfl
    case some n =>
      have hn := hpos _ rfl n rfl
      simp only [Option.map_some, Option.getD_some, Option.some.injEq]
      exact Int.toNat_of_nonneg (by omega)

theorem retentionDays_storeCustomer (h : storeCustomer s id name status rateLimit retention = .ok s') :
    s'.retentionDays id = retention.getD (s.retentionDays id) := by
  rw [(storeCustomer_eq_ok h).right]
  cases retention
  case none => rfl
  case some value => simp

theorem update_eq_ok (h : update who s id raw body = .ok s') :
    s'.rateLimit id = (quotaRetentionUpdate raw body).1.getD (s.rateLimit id) ∧
      s'.retentionDays id = (quotaRetentionUpdate raw body).2.getD (s.retentionDays id) := by
  unfold update at h
  dsimp only at h
  split_ifs at h with hwho hrate hret
  push Not at hrate
  split at h
  case h_4 hok =>
    cases h
    exact ⟨rateLimit_storeCustomer hrate hok, retentionDays_storeCustomer hok⟩
  all_goals cases h

end Stored

section Followed

-- The value of a field follows the request: a number is stored, null clears the value, and without the field
-- the value stays.
structure Follows (given : Option Given) (pointer before after : Option Int) : Prop where
  number : ∀ n ∈ pointer, after = some n
  null : given = some .null → after = none
  absent : given = none → after = before

theorem follows_iff {heeded : Bool} (h : heeded → given ≠ none) :
    Follows given (given.bind Given.int?) before
        ((if heeded then some (given.bind Given.int?) else none).getD before) ↔
      heeded ∨ Follows given (given.bind Given.int?) before before := by
  cases heeded
  case false => simp
  case true =>
    simp only [if_true, Option.getD_some, true_or, iff_true]
    refine ⟨fun n hn => hn, ?_, fun habsent => absurd habsent (h rfl)⟩
    rintro rfl
    rfl

variable [Casing] {who : Option Principal} {s s' : State} {id : UUID} {t : Text} {fields : List (String × Given)}
  {body : UpdateBody}

-- The second reading finds the key: there are only blanks after the object, and the key is spelled as it is in the contract.
def Heeded (t : Text) (fields : List (String × Given)) (key : String) : Bool :=
  (captureRawBody t).ended && fields.any (·.1 = key)

theorem lastGiven_ne_none (h : Heeded t fields key) : lastGiven fields key ≠ none := by
  obtain ⟨f, hf, hkey⟩ := List.any_eq_true.mp (Bool.and_eq_true_iff.mp h).right
  have hkey : f.1 = key := of_decide_eq_true hkey
  rw [lastGiven, ne_eq, Option.map_eq_none_iff, List.find?_eq_none]
  push Not
  exact ⟨f, List.mem_reverse.mpr hf, by rw [hkey]; exact Strings.equalFold_self key⟩

theorem decode_eq_some (h : decode t = some body) (hf : t.fields = some fields) :
    body.rateLimitItemsPerSec = (lastGiven fields "rateLimitItemsPerSec").bind Given.int? ∧
      body.retentionDays = (lastGiven fields "retentionDays").bind Given.int? := by
  simp only [decode, hf, Option.bind_eq_bind, Option.bind_some, Option.ite_none_right_eq_some, Option.some.injEq] at h
  rw [← h.right]
  exact ⟨rfl, rfl⟩

theorem fields_captureRawBody (h : decode (captureRawBody t) = some body) : (captureRawBody t).fields = t.fields := by
  unfold captureRawBody at h ⊢
  split_ifs at h ⊢ with hsize
  · rfl
  · simp [decode, Text.fields] at h

-- A field follows the request when the second reading finds its key, or there is nothing to change.
theorem updateCustomer_follows_iff (hfields : t.fields = some fields) (hbody : decode (captureRawBody t) = some body)
    (h : updateCustomer who s id t = .ok s') :
    (Follows (lastGiven fields "rateLimitItemsPerSec") body.rateLimitItemsPerSec (s.rateLimit id) (s'.rateLimit id) ∧
        Follows (lastGiven fields "retentionDays") body.retentionDays (s.retentionDays id) (s'.retentionDays id)) ↔
      (Heeded t fields "rateLimitItemsPerSec" ∨
          Follows (lastGiven fields "rateLimitItemsPerSec") body.rateLimitItemsPerSec (s.rateLimit id) (s.rateLimit id)) ∧
        (Heeded t fields "retentionDays" ∨
          Follows (lastGiven fields "retentionDays") body.retentionDays (s.retentionDays id) (s.retentionDays id)) := by
  have hraw : (captureRawBody t).fields = some fields := (fields_captureRawBody hbody).trans hfields
  obtain ⟨hrate, hret⟩ := decode_eq_some hbody hraw
  simp only [updateCustomer, hbody] at h
  obtain ⟨hrate', hret'⟩ := update_eq_ok h
  simp only [quotaRetentionUpdate, hraw] at hrate' hret'
  rw [hrate', hret', hrate, hret]
  exact and_congr (follows_iff lastGiven_ne_none) (follows_iff lastGiven_ne_none)

end Followed

section Samples

def sampleCustomer : Store.Keys.Customer where
  id := 1
  name := "Acme"
  slug := "acme"
  clientID := "cust_00000001"
  status := .active
  rateLimitItemsPerSec := some 100

def sampleState : State where
  accounts := { customers := [sampleCustomer], keys := [] }
  retentionDays _ := some 7

def loweredFields : List (String × Given) :=
  [("ratelimititemspersec", .int 5)]

def lowered : Text where
  first := .object loweredFields
  size := 27
  rest := []

-- The request succeeds and changes nothing.
theorem lowered_ignored :
    letI := Casing.ascii
    ∃ body, decode (captureRawBody lowered) = some body ∧ body.rateLimitItemsPerSec = some 5 ∧
      updateCustomer none sampleState 1 lowered = .ok sampleState ∧
      ¬Follows (lastGiven loweredFields "rateLimitItemsPerSec") body.rateLimitItemsPerSec (sampleState.rateLimit 1)
        (sampleState.rateLimit 1) := by
  refine ⟨⟨none, some 5, none, none⟩, by decide +kernel, rfl, rfl, fun h => ?_⟩
  exact absurd (h.number 5 rfl) (by decide)

def spelledFields : List (String × Given) :=
  [("rateLimitItemsPerSec", .int 5), ("retentionDays", .null)]

def spelled : Text where
  first := .object spelledFields
  size := 49
  rest := [0x0a]

theorem spelled_followed :
    letI := Casing.ascii
    ∃ body s', decode (captureRawBody spelled) = some body ∧ updateCustomer none sampleState 1 spelled = .ok s' ∧
      s'.rateLimit 1 = some 5 ∧ s'.retentionDays 1 = none ∧
      Follows (lastGiven spelledFields "rateLimitItemsPerSec") body.rateLimitItemsPerSec (sampleState.rateLimit 1)
        (s'.rateLimit 1) ∧
      Follows (lastGiven spelledFields "retentionDays") body.retentionDays (sampleState.retentionDays 1)
        (s'.retentionDays 1) := by
  let := Casing.ascii
  have hbody : decode (captureRawBody spelled) = some ⟨none, some 5, none, none⟩ := by decide +kernel
  have hs : updateCustomer none sampleState 1 spelled = .ok {
      accounts := { customers := [{ sampleCustomer with rateLimitItemsPerSec := some 5 }], keys := [] }
      retentionDays := Function.update sampleState.retentionDays 1 none } := by
    simp only [updateCustomer, hbody]
    rfl
  refine ⟨_, _, hbody, hs, rfl, rfl, ?_⟩
  exact (updateCustomer_follows_iff rfl hbody hs).mpr ⟨.inl (by decide +kernel), .inl (by decide +kernel)⟩

end Samples

end Api.Customers
