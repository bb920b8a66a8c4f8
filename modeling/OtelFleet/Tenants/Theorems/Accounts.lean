import OtelFleet.Tenants.Accounts

open Store (UUID)
open Store.Keys (Database CustomerUpdate)

namespace Tenants.Accounts

variable {id : UUID}

theorem updateCustomer_eq_ok (h : updateCustomer db id upd = .ok db') :
    db'.customers = db.customers.map fun c =>
      if c.id = id then { upd with name := upd.name.map Strings.trimSpace : CustomerUpdate }.apply c else c := by
  unfold updateCustomer at h
  split at h
  case _ => cases h
  case _ name hn =>
    have hname : name = upd.name.map Strings.trimSpace := by
      cases hu : upd.name
      case none =>
        rw [hu] at hn
        exact (Except.ok.inj hn).symm
      case some n =>
        simp only [hu, checkName] at hn
        split_ifs at hn
        exact (Except.ok.inj hn).symm
    subst hname
    unfold Database.updateCustomer at h
    split_ifs at h
    · cases h
    · cases h
      rfl
    · cases h

theorem isSome_of_updateCustomer (h : updateCustomer db id upd = .ok db') : (db.customer? id).isSome := by
  unfold updateCustomer at h
  split at h
  case _ => cases h
  case _ =>
    cases hc : db.customer? id
    case none => simp [Database.updateCustomer, hc, ofStore] at h
    case some c => rfl

theorem customer?_updateCustomer (h : updateCustomer db id upd = .ok db') :
    db'.customer? id =
      (db.customer? id).map { upd with name := upd.name.map Strings.trimSpace : CustomerUpdate }.apply := by
  set f := { upd with name := upd.name.map Strings.trimSpace : CustomerUpdate }.apply with hf
  rw [Database.customer?, updateCustomer_eq_ok h, List.find?_map]
  have hid : ((fun c : Store.Keys.Customer => decide (c.id = id)) ∘ fun c => if c.id = id then f c else c) =
      fun c => decide (c.id = id) := by
    funext c
    simp only [Function.comp_apply]
    split_ifs
    all_goals rfl
  rw [hid, Database.customer?]
  cases hc : db.customers.find? fun c => decide (c.id = id)
  case none => rfl
  case some c =>
    have hcid : c.id = id := by simpa using List.find?_some hc
    rw [Option.map_some, Option.map_some, if_pos hcid]

end Tenants.Accounts
