import OtelFleet.Collector.Tenantstamp

-- Which resources come out with the identity of their tenant and no other.
namespace Tenantstamp

open SliceMap

variable {α β : Type} [Values α]

def isIdentityKey (key : String) : Bool :=
  key = attrTenantID ∨ key = attrClientID ∨ key = attrCustomerID

def ownEntries (key value : String) : List (String × α) :=
  if value = "" then [] else [(key, Values.str value)]

structure Stamped (id : Identity) (before after : Resource α β) : Prop where
  tenantID : entries attrTenantID after.attributes = [(attrTenantID, Values.str id.tenantID)]
  clientID : entries attrClientID after.attributes = ownEntries attrClientID id.clientID
  customerID : entries attrCustomerID after.attributes = ownEntries attrCustomerID id.customerID
  others : (after.attributes.filter fun e => !isIdentityKey e.1).Perm
    (before.attributes.filter fun e => !isIdentityKey e.1)
  telemetry : after.telemetry = before.telemetry

-- How often a key may occur, so that one removal and one put suffice.
def allowance (value : String) : Nat :=
  if value = "" then 1 else 2

structure Cleanable (id : Identity) (r : Resource α β) : Prop where
  tenantID : (entries attrTenantID r.attributes).length ≤ 2
  clientID : (entries attrClientID r.attributes).length ≤ allowance id.clientID
  customerID : (entries attrCustomerID r.attributes).length ≤ allowance id.customerID

section Steps

variable {key other value : String} {attrs : List (String × α)}

def putUnlessEmpty (key value : String) (attrs : List (String × α)) : List (String × α) :=
  if value ≠ "" then putStr key value attrs else attrs

theorem filter_putUnlessEmpty (hP : ∀ e : String × α, e.1 = key → P e = false) :
    (putUnlessEmpty key value attrs).filter P = attrs.filter P := by
  unfold putUnlessEmpty
  split_ifs
  · exact filter_put hP _ _
  · rfl

theorem entries_putUnlessEmpty_of_ne (h : other ≠ key) :
    entries other (putUnlessEmpty key value attrs) = entries other attrs :=
  filter_putUnlessEmpty fun e he => by simpa [he] using Ne.symm h

omit [Values α] in
theorem length_entries_remove_of_ne (h : other ≠ key) :
    (entries other (remove key attrs)).length = (entries other attrs).length :=
  (filter_remove_perm (fun e he => by simpa [he] using Ne.symm h) attrs).length_eq

theorem entries_putUnlessEmpty_iff :
    entries key (putUnlessEmpty key value attrs) = ownEntries key value ↔
      (entries key attrs).length + 1 ≤ allowance value := by
  unfold putUnlessEmpty ownEntries allowance
  by_cases hv : value = ""
  · simp [hv]
  · rw [if_pos hv, if_neg hv, if_neg hv]
    exact entries_put_iff.trans (by omega)

end Steps

section Resource

variable (attrs : List (String × α)) (id : Identity)

def removed : List (String × α) :=
  remove attrCustomerID (remove attrClientID (remove attrTenantID attrs))

theorem stamp_eq :
    stamp attrs id = putUnlessEmpty attrCustomerID id.customerID
      (putUnlessEmpty attrClientID id.clientID (putStr attrTenantID id.tenantID (removed attrs))) :=
  rfl

omit [Values α] in
theorem length_entries_removed (h : isIdentityKey key) :
    (entries key (removed attrs)).length = (entries key attrs).length - 1 := by
  simp only [isIdentityKey, decide_eq_true_eq] at h
  obtain rfl | rfl | rfl := h
  · rw [removed, length_entries_remove_of_ne (by decide), length_entries_remove_of_ne (by decide),
      length_entries_remove]
  · rw [removed, length_entries_remove_of_ne (by decide), length_entries_remove,
      length_entries_remove_of_ne (by decide)]
  · rw [removed, length_entries_remove, length_entries_remove_of_ne (by decide),
      length_entries_remove_of_ne (by decide)]

theorem entries_stamp_tenantID :
    entries attrTenantID (stamp attrs id) = [(attrTenantID, Values.str id.tenantID)] ↔
      (entries attrTenantID attrs).length ≤ 2 := by
  rw [stamp_eq, entries_putUnlessEmpty_of_ne (by decide), entries_putUnlessEmpty_of_ne (by decide), putStr,
    entries_put_iff, length_entries_removed attrs (by decide)]
  omega

theorem allowance_pos (value : String) : 0 < allowance value := by
  unfold allowance
  split_ifs <;> decide

theorem entries_putStr_of_ne (h : other ≠ key) : entries other (putStr key value attrs) = entries other attrs :=
  filter_put (fun e he => by simpa [he] using Ne.symm h) _ _

theorem entries_stamp_clientID :
    entries attrClientID (stamp attrs id) = ownEntries attrClientID id.clientID ↔
      (entries attrClientID attrs).length ≤ allowance id.clientID := by
  have hpos := allowance_pos id.clientID
  rw [stamp_eq, entries_putUnlessEmpty_of_ne (by decide), entries_putUnlessEmpty_iff,
    entries_putStr_of_ne _ (by decide), length_entries_removed attrs (by decide)]
  omega

theorem entries_stamp_customerID :
    entries attrCustomerID (stamp attrs id) = ownEntries attrCustomerID id.customerID ↔
      (entries attrCustomerID attrs).length ≤ allowance id.customerID := by
  have hpos := allowance_pos id.customerID
  rw [stamp_eq, entries_putUnlessEmpty_iff, entries_putUnlessEmpty_of_ne (by decide),
    entries_putStr_of_ne _ (by decide), length_entries_removed attrs (by decide)]
  omega

theorem filter_stamp_perm :
    ((stamp attrs id).filter fun e => !isIdentityKey e.1).Perm (attrs.filter fun e => !isIdentityKey e.1) := by
  have hkey : ∀ key, isIdentityKey key → ∀ e : String × α, e.1 = key → (!isIdentityKey e.1) = false := by
    intro key hk e he
    rw [he, hk]
    rfl
  have htenant := hkey attrTenantID (by decide)
  have hclient := hkey attrClientID (by decide)
  have hcustomer := hkey attrCustomerID (by decide)
  rw [stamp_eq, filter_putUnlessEmpty hcustomer, filter_putUnlessEmpty hclient, putStr, filter_put htenant]
  exact (filter_remove_perm hcustomer _).trans
    ((filter_remove_perm hclient _).trans (filter_remove_perm htenant _))

end Resource

theorem stamped_iff (id : Identity) (r : Resource α β) :
    Stamped id r { r with attributes := stamp r.attributes id } ↔ Cleanable id r := by
  constructor
  · intro h
    exact ⟨(entries_stamp_tenantID _ _).mp h.tenantID, (entries_stamp_clientID _ _).mp h.clientID,
      (entries_stamp_customerID _ _).mp h.customerID⟩
  · intro h
    exact ⟨(entries_stamp_tenantID _ _).mpr h.tenantID, (entries_stamp_clientID _ _).mpr h.clientID,
      (entries_stamp_customerID _ _).mpr h.customerID, filter_stamp_perm _ _, rfl⟩

-- What is said of a batch: without an identity it is not forwarded; otherwise every resource comes out
-- with that identity and no other one, exactly if no resource repeats a key too often.
def StampsIff (auth : Option AuthData) (batch : List (Resource α β)) (out : Option (List (Resource α β))) : Prop :=
  match identityFromContext auth with
  | none => out = none
  | some id => ∃ stamped, out = some stamped ∧
      (List.Forall₂ (Stamped id) batch stamped ↔ ∀ r ∈ batch, Cleanable id r)

theorem process_stamps_iff (auth : Option AuthData) (batch : List (Resource α β)) :
    StampsIff auth batch (process auth batch) := by
  unfold StampsIff process
  cases identityFromContext auth
  case none => rfl
  case some id =>
    refine ⟨_, rfl, ?_⟩
    rw [List.forall₂_map_right_iff, List.forall₂_same]
    exact forall₂_congr fun r _ => stamped_iff id r

theorem signals_stamped_iff {Spans Records Points : Type} (auth : Option AuthData)
    (traces : List (Resource α Spans)) (logs : List (Resource α Records)) (metrics : List (Resource α Points)) :
    StampsIff auth traces (processTraces auth traces) ∧ StampsIff auth logs (processLogs auth logs) ∧
      StampsIff auth metrics (processMetrics auth metrics) :=
  ⟨process_stamps_iff auth traces, process_stamps_iff auth logs, process_stamps_iff auth metrics⟩

section Sample

def acmeAuth : AuthData := fun name =>
  if name = attrTenantID ∨ name = attrClientID then some "cust_acme" else none

def spoofed : Resource String Unit where
  attributes := [("tenant.id", "cust_globex"), ("host.name", "a"), ("tenant.id", "cust_globex"),
    ("tenant.id", "cust_globex")]
  telemetry := ()

-- One of the claims is removed and one is overwritten. The third one gets through.
theorem spoofed_tenant_gets_through :
    letI : Values String := ⟨id⟩
    let id : Identity := { tenantID := "cust_acme", clientID := "cust_acme", customerID := "" }
    identityFromContext (some acmeAuth) = some id ∧
      (processLogs (some acmeAuth) [spoofed]).map (·.map (·.attributes)) =
        some [[("tenant.id", "cust_acme"), ("host.name", "a"), ("tenant.id", "cust_globex"),
          ("client.id", "cust_acme")]] ∧
      ¬∃ out, processLogs (some acmeAuth) [spoofed] = some out ∧ List.Forall₂ (Stamped id) [spoofed] out := by
  let _ : Values String := ⟨id⟩
  have hid : identityFromContext (some acmeAuth) =
      some { tenantID := "cust_acme", clientID := "cust_acme", customerID := "" } := by
    decide +kernel
  refine ⟨hid, by decide +kernel, ?_⟩
  rintro ⟨out, hout, h⟩
  simp only [processLogs, process, hid, Option.map_some, List.map_cons, List.map_nil, Option.some.injEq] at hout
  subst hout
  have hclean := ((stamped_iff _ spoofed).mp (List.forall₂_cons.mp h).left).tenantID
  exact absurd hclean (by decide)

end Sample

end Tenantstamp
