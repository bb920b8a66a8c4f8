import OtelFleet.Store.Administration
import OtelFleet.Store.Theorems.Users

-- When an enabled admin remains, whatever administrators do at the same time.
namespace Store.Administration

open Interleave (Config Event System)
open System (Exclusive Holds)

variable {users : List User} {s s' : Server} {t t' : Txn} {w w' : Write} {u : User} {id : UUID}

section Rows

theorem mem_apply : u ∈ w.apply users ↔ u ∈ users ∧ u.id ≠ w.old.id ∨ (∃ v ∈ users, v.id = w.old.id) ∧ w.new = some u := by
  simp only [Write.apply, List.mem_filterMap]
  constructor
  case mp =>
    rintro ⟨v, hv, h⟩
    split_ifs at h with hid
    · exact .inr ⟨⟨v, hv, hid⟩, h⟩
    · cases h
      exact .inl ⟨hv, hid⟩
  case mpr =>
    rintro (⟨hu, hid⟩ | ⟨⟨v, hv, hid⟩, h⟩)
    · exact ⟨u, hu, if_neg hid⟩
    · exact ⟨v, hv, by rw [if_pos hid, h]⟩

theorem mem_apply_of_ne (hu : u ∈ users) (h : u.id ≠ w.old.id) : u ∈ w.apply users :=
  mem_apply.mpr (.inl ⟨hu, h⟩)

def Write.Keyed (w : Write) : Prop :=
  ∀ u ∈ w.new, u.id = w.old.id

theorem nodup_apply (hw : w.Keyed) (h : (users.map (·.id)).Nodup) : ((w.apply users).map (·.id)).Nodup := by
  refine h.sublist ?_
  induction users
  case nil => exact .slnil
  case cons v vs hi =>
    have hi := hi (List.nodup_cons.mp h).right
    simp only [Write.apply, List.filterMap_cons]
    split
    case _ => exact hi.cons _
    case _ v' hv' =>
      have hid : v'.id = v.id := by
        split_ifs at hv' with hid
        · rw [hid]
          exact hw v' hv'
        · cases hv'
          rfl
      rw [List.map_cons, hid]
      exact hi.cons_cons _

theorem Write.new_of_not_takes (ht : w.takes = false) (h : w.old.isEnabledAdmin) :
    ∃ v, w.new = some v ∧ v.isEnabledAdmin := by
  simpa [Write.takes, h, Option.any_eq_true] using ht

theorem any_apply (hids : (users.map (·.id)).Nodup) (hold : w.old ∈ users) (ht : w.takes = false)
    (h : users.any (·.isEnabledAdmin)) : (w.apply users).any (·.isEnabledAdmin) := by
  simp only [List.any_eq_true] at h ⊢
  obtain ⟨u, hu, hadmin⟩ := h
  by_cases hid : u.id = w.old.id
  case neg => exact ⟨u, mem_apply_of_ne hu hid, hadmin⟩
  case pos =>
    obtain rfl : u = w.old := List.inj_on_of_nodup_map hids hu hold hid
    have ⟨v, hv, hadmin'⟩ := Write.new_of_not_takes ht hadmin
    exact ⟨v, mem_apply.mpr (.inr ⟨⟨_, hold, rfl⟩, hv⟩), hadmin'⟩

theorem any_apply_apply (hids : (users.map (·.id)).Nodup) (hold : w.old ∈ users) (hold' : w'.old ∈ users)
    (hne : w.old.id ≠ w'.old.id) (hw' : w'.Keyed) (ht : w'.takes = false)
    (h : (w.apply users).any (·.isEnabledAdmin)) : (w.apply (w'.apply users)).any (·.isEnabledAdmin) := by
  have hkept : w.old ∈ w'.apply users := mem_apply_of_ne hold hne
  simp only [List.any_eq_true] at h ⊢
  obtain ⟨u, hu, hadmin⟩ := h
  obtain ⟨hu, hid⟩ | ⟨_, hnew⟩ := mem_apply.mp hu
  case inr => exact ⟨u, mem_apply.mpr (.inr ⟨⟨_, hkept, rfl⟩, hnew⟩), hadmin⟩
  case inl =>
    by_cases hid' : u.id = w'.old.id
    case neg => exact ⟨u, mem_apply_of_ne (mem_apply_of_ne hu hid') hid, hadmin⟩
    case pos =>
      obtain rfl : u = w'.old := List.inj_on_of_nodup_map hids hu hold' hid'
      have ⟨v, hv, hadmin'⟩ := Write.new_of_not_takes ht hadmin
      refine ⟨v, mem_apply_of_ne (mem_apply.mpr (.inr ⟨⟨_, hold', rfl⟩, hv⟩)) ?_, hadmin'⟩
      rw [hw' v hv]
      exact hne.symm

end Rows

section Locks

def Owns (s : Server) (t : Txn) : Prop :=
  ∀ u ∈ t.row?, u ∈ s.users ∧ u.id ∈ s.locked

def Apart (t t' : Txn) : Prop :=
  ∀ u ∈ t.row?, ∀ u' ∈ t'.row?, u.id ≠ u'.id

def Txn.Keyed : Txn → Prop
  | updateDisabled _ _ old u => u.id = old.id
  | count w => w.Keyed
  | commit w => w.Keyed
  | _ => True

-- What a statement can do: read on, lock a row that is free, or end. A transaction is up to commit only
-- after it has counted an enabled admin.
inductive Effect (s : Server) (t : Txn) : Txn × Server → Prop
  | stay (t₁ : Txn) (h : t₁.row? = t.row?)
    (hcount : ∀ w, t₁ = .commit w → (w.apply s.users).any (·.isEnabledAdmin)) : Effect s t (t₁, s)
  | lock (t₁ : Txn) (u : User) (hu : u ∈ s.users) (hfree : u.id ∉ s.locked) (h : t₁.row? = some u)
    (hcount : ∀ w, t₁ ≠ .commit w) : Effect s t (t₁, s.lock u.id)
  | rollback : Effect s t (.idle, s.release t)
  | commit (w : Write) (h : t = .commit w) : Effect s t (.idle, { s.release t with users := w.apply s.users })

theorem lockRow_effect (ht : t.row? = none) (h : ∀ u, (locked u).row? = some u)
    (hcount : ∀ u w, locked u ≠ .commit w) : Effect s t (lockRow s t id locked) := by
  unfold lockRow
  split_ifs with hl
  · exact .stay t rfl fun w hw => by simp [hw, Txn.row?] at ht
  · cases hu : s.users.find? (·.id = id)
    case none => exact .stay .idle ht.symm fun _ hw => nomatch hw
    case some u =>
      obtain rfl : u.id = id := by simpa using List.find?_some hu
      exact .lock (locked u) u (List.mem_of_find?_eq_some hu) hl (h u) (hcount u)

theorem step_effect (abort : Bool) (s : Server) (t : Txn) : Effect s t (t.step abort s) := by
  unfold Txn.step
  cases abort
  case true => exact .rollback
  case false =>
    cases t
    case idle | updateRole now upd old | updateDisabled now upd old u => exact .stay _ rfl fun _ hw => nomatch hw
    case select now id upd | delete id => exact lockRow_effect rfl (fun _ => rfl) fun _ _ hw => nomatch hw
    case count w =>
      simp only [Txn.next, Bool.false_eq_true, if_false]
      split_ifs with hcount
      · refine .stay _ rfl fun w' hw => ?_
        cases hw
        exact hcount
      · exact .rollback
    case commit w => exact .commit w rfl

theorem setDisabled_id (u : User) (now : Int) (disabled : Bool) : (u.setDisabled now disabled).id = u.id :=
  rfl

theorem lockRow_keyed (ht : t.Keyed) (h : ∀ u, (locked u).Keyed) : (lockRow s t id locked).1.Keyed := by
  unfold lockRow
  split_ifs
  · exact ht
  · cases s.users.find? (·.id = id)
    case none => trivial
    case some u => exact h u

theorem step_keyed (h : t.Keyed) (abort : Bool) (s : Server) : (t.step abort s).1.Keyed := by
  unfold Txn.step
  cases abort
  case true => trivial
  case false =>
    cases t
    case idle | commit w => trivial
    case select now id upd => exact lockRow_keyed trivial fun _ => trivial
    case updateRole now upd old => cases hr : upd.role <;> simp [Txn.next, Txn.Keyed, hr]
    case updateDisabled now upd old u =>
      have hu : u.id = old.id := h
      cases hd : upd.disabled <;> simp [Txn.next, Txn.Keyed, Write.Keyed, hd, hu, setDisabled_id]
    case delete id => exact lockRow_keyed trivial fun _ _ hu => nomatch hu
    case count w =>
      simp only [Txn.next, Bool.false_eq_true, if_false]
      split_ifs
      · exact h
      · trivial

theorem mem_release : id ∈ (s.release t).locked ↔ id ∈ s.locked ∧ ∀ u ∈ t.row?, u.id ≠ id := by
  simp only [Server.release, List.mem_filter, Option.all_eq_true, decide_eq_true_eq, Option.mem_def]

theorem row?_begin (r : Request) : r.begin.row? = none := by
  cases r <;> rfl

section Effect

theorem Effect.ids (he : Effect s t o) (h : (s.users.map (·.id)).Nodup) (ht : t.Keyed) :
    (o.2.users.map (·.id)).Nodup := by
  cases he
  case stay | lock | rollback => exact h
  case commit w ht' =>
    subst ht'
    exact nodup_apply ht h

theorem Effect.owns (he : Effect s t o) (h : Owns s t) : Owns o.2 o.1 := by
  cases he
  case stay t₁ hrow _ => rwa [Owns, hrow]
  case lock t₁ u hu _ hrow _ =>
    intro v hv
    obtain rfl : u = v := Option.some.inj (hrow.symm.trans hv)
    exact ⟨hu, List.mem_cons_self⟩
  case rollback | commit => exact fun _ hu => nomatch hu

theorem Effect.keeps (he : Effect s t o) (ht' : Owns s t') (hne : Apart t t') : Owns o.2 t' := by
  intro u hu
  have ⟨hrow, hlock⟩ := ht' u hu
  have hfree : u.id ∈ (s.release t).locked := mem_release.mpr ⟨hlock, fun v hv => hne v hv u hu⟩
  cases he
  case stay => exact ⟨hrow, hlock⟩
  case lock => exact ⟨hrow, List.mem_cons_of_mem _ hlock⟩
  case rollback => exact ⟨hrow, hfree⟩
  case commit w ht =>
    refine ⟨mem_apply_of_ne hrow ?_, hfree⟩
    subst ht
    exact (hne w.old rfl u hu).symm

theorem Effect.apart (he : Effect s t o) (ht' : Owns s t') (hne : Apart t t') : Apart o.1 t' := by
  cases he
  case stay t₁ hrow _ => rwa [Apart, hrow]
  case lock t₁ u _ hfree hrow _ =>
    intro v hv u' hu'
    obtain rfl : u = v := Option.some.inj (hrow.symm.trans hv)
    exact fun he => hfree (he ▸ (ht' u' hu').right)
  case rollback | commit => exact fun _ hu => nomatch hu

end Effect

theorem exclusive : transactions.Exclusive (fun _ _ => True) (fun s => (s.users.map (·.id)).Nodup)
    (fun s t => Owns s t ∧ t.Keyed) Apart where
  symm t t' h u' hu' u hu := (h u hu u' hu').symm
  begin s r _ := ⟨fun u hu => by simp [transactions, row?_begin] at hu, by cases r <;> trivial⟩
  beginApart r t u hu := by simp [transactions, row?_begin] at hu
  shared abort s t h ht _ := (step_effect abort s t).ids h ht.right
  own abort s t _ ht _ := ⟨(step_effect abort s t).owns ht.left, step_keyed ht.right abort s⟩
  other abort s t t' _ _ _ ht' hne := ⟨(step_effect abort s t).keeps ht'.left hne, ht'.right⟩
  apart abort s t t' _ _ _ ht' hne := (step_effect abort s t).apart ht'.left hne

end Locks

section Admins

-- If both transactions have counted and each takes an enabled admin away, there is a third one.
def LeavesThird (s : Server) (t t' : Txn) : Prop :=
  t.takes → t'.takes →
    ∃ u ∈ s.users, u.isEnabledAdmin ∧ (∀ v ∈ t.row?, u.id ≠ v.id) ∧ ∀ v ∈ t'.row?, u.id ≠ v.id

instance (s : Server) (t t' : Txn) : Decidable (LeavesThird s t t') :=
  inferInstanceAs <| Decidable <| _ → _ → _

def Sparing (c : Config Txn Server) : Prop :=
  ∀ i j, i ≠ j → LeavesThird c.shared (c.calls i) (c.calls j)

-- An enabled admin is there, and stays there whichever transaction commits next.
structure Safe (c : Config Txn Server) : Prop where
  holds : Holds (fun s => (s.users.map (·.id)).Nodup) (fun s t => Owns s t ∧ t.Keyed) Apart c
  admin : c.shared.users.any (·.isEnabledAdmin)
  counted : ∀ i w, c.calls i = .commit w → (w.apply c.shared.users).any (·.isEnabledAdmin)

theorem step_counted (abort : Bool) (s : Server) (t : Txn) :
    ((t.step abort s).2.users = s.users ∧
      ∀ w, (t.step abort s).1 = .commit w → (w.apply s.users).any (·.isEnabledAdmin)) ∨
    ∃ w, t = .commit w ∧ (t.step abort s).1 = .idle ∧ (t.step abort s).2.users = w.apply s.users := by
  have he := step_effect abort s t
  generalize t.step abort s = o at he
  cases he
  case stay t₁ _ hcount => exact .inl ⟨rfl, hcount⟩
  case lock t₁ u _ _ _ hcount => exact .inl ⟨rfl, fun w hw => absurd hw (hcount w)⟩
  case rollback => exact .inl ⟨rfl, fun _ hw => nomatch hw⟩
  case commit w ht => exact .inr ⟨w, ht, rfl, rfl⟩

variable {c : Config Txn Server}

theorem Safe.counted_of_commit (h : Safe c) (hij : i ≠ j) (hi : c.calls i = .commit w)
    (hj : c.calls j = .commit w') (hthird : LeavesThird c.shared (.commit w) (.commit w')) :
    (w'.apply (w.apply c.shared.users)).any (·.isEnabledAdmin) := by
  have hids := h.holds.shared
  have ⟨hown, hkey⟩ : Owns c.shared (.commit w) ∧ (Txn.commit w).Keyed := hi ▸ h.holds.calls i
  have ⟨hown', _⟩ : Owns c.shared (.commit w') ∧ (Txn.commit w').Keyed := hj ▸ h.holds.calls j
  have hrow := (hown w.old rfl).left
  have hrow' := (hown' w'.old rfl).left
  have hne : w.old.id ≠ w'.old.id := by
    have hap := h.holds.apart i j hij
    rw [hi, hj] at hap
    exact hap w.old rfl w'.old rfl
  cases ht : w.takes
  case false => exact any_apply_apply hids hrow' hrow hne.symm hkey ht (h.counted j w' hj)
  case true =>
    cases ht' : w'.takes
    case false => exact any_apply (nodup_apply hkey hids) (mem_apply_of_ne hrow' hne.symm) ht' (h.counted i w hi)
    case true =>
      have ⟨u, hu, hadmin, hold, hold'⟩ := hthird ht ht'
      have hkept := mem_apply_of_ne (mem_apply_of_ne hu (hold _ rfl)) (hold' _ rfl)
      exact List.any_eq_true.mpr ⟨u, hkept, hadmin⟩

theorem Safe.step (h : Safe c) (hsparing : Sparing c) (i : Nat) (abort : Bool) : Safe (transactions.act c (.run i abort)) := by
  have hholds := h.holds.act exclusive i abort trivial
  obtain ⟨husers, hcount⟩ | ⟨w, hw, hidle, husers⟩ := step_counted abort c.shared (c.calls i)
  · have husers' : (transactions.act c (.run i abort)).shared.users = c.shared.users := husers
    refine ⟨hholds, husers' ▸ h.admin, fun j w hj => ?_⟩
    rw [husers']
    by_cases hji : j = i
    case pos =>
      rw [hji, System.calls_act_self] at hj
      exact hcount w hj
    case neg =>
      rw [System.calls_act_of_ne hji] at hj
      exact h.counted j w hj
  · have husers' : (transactions.act c (.run i abort)).shared.users = w.apply c.shared.users := husers
    refine ⟨hholds, husers' ▸ h.counted i w hw, fun j w' hj => ?_⟩
    rw [husers']
    by_cases hji : j = i
    case pos =>
      rw [hji, System.calls_act_self] at hj
      cases hidle.symm.trans hj
    case neg =>
      rw [System.calls_act_of_ne hji] at hj
      exact h.counted_of_commit (Ne.symm hji) hw hj (hw ▸ hj ▸ hsparing i j (Ne.symm hji))

theorem Safe.act (h : Safe c) (hsparing : Sparing c) (e : Event Request Bool) : Safe (transactions.act c e) := by
  cases e
  case run i abort => exact h.step hsparing i abort
  case start i r =>
    simp only [System.act]
    split_ifs with hidle
    · refine ⟨h.holds.start exclusive i r, h.admin, fun j w hj => ?_⟩
      by_cases hji : j = i
      case pos =>
        simp only [hji, Function.update_self] at hj
        cases r <;> cases hj
      case neg =>
        simp only [Function.update_of_ne hji] at hj
        exact h.counted j w hj
    · exact h

-- An enabled admin remains throughout every run in which any two open transactions that take one away
-- leave a third one once they have counted.
theorem enabled_admin_remains (users : List User) (hids : (users.map (·.id)).Nodup)
    (hadmin : users.any (·.isEnabledAdmin)) (events : List (Event Request Bool))
    (h : transactions.Along Sparing (transactions.init (.of users)) events) :
    transactions.Along (fun c => c.shared.users.any (·.isEnabledAdmin)) (transactions.init (.of users)) events := by
  refine System.along_invariant (I := Safe) ?_ (fun c hc => hc.admin) (fun c e hsparing hc => hc.act hsparing e) h
  exact ⟨⟨hids, fun _ => ⟨fun _ hu => (nomatch hu), trivial⟩, fun _ _ _ _ hu => nomatch hu⟩, hadmin,
    fun _ _ hw => nomatch hw⟩

theorem sparing_of_two (hc : ∀ j, 2 ≤ j → (c.calls j).takes = false)
    (h : LeavesThird c.shared (c.calls 0) (c.calls 1)) : Sparing c := by
  intro i j hij hi hj
  have hlt (k : Nat) (hk : (c.calls k).takes) : k < 2 :=
    not_le.mp fun hle => by simp [hc k hle] at hk
  obtain ⟨rfl, rfl⟩ | ⟨rfl, rfl⟩ : i = 0 ∧ j = 1 ∨ i = 1 ∧ j = 0 := by
    have := hlt i hi
    have := hlt j hj
    omega
  · exact h hi hj
  · have ⟨u, hu, hadmin, hrow, hrow'⟩ := h hj hi
    exact ⟨u, hu, hadmin, hrow', hrow⟩

theorem along_sparing_of_two (hslots : ∀ e ∈ events, e.slot < 2) (hc : ∀ j, 2 ≤ j → (c.calls j).takes = false)
    (h : transactions.Along (fun c => LeavesThird c.shared (c.calls 0) (c.calls 1)) c events) :
    transactions.Along Sparing c events := by
  induction events generalizing c
  case nil => exact sparing_of_two hc h
  case cons e es hi =>
    rw [List.forall_mem_cons] at hslots
    refine ⟨sparing_of_two hc h.left, hi hslots.right (fun j hj => ?_) h.right⟩
    have hother : (transactions.run c [e]).calls j = c.calls j :=
      System.calls_run_of_unused (by simpa using (hslots.left.trans_le hj).ne)
    exact (congrArg Txn.takes hother).trans (hc j hj)

def disableAtOnce : List (Event Request Bool) :=
  .start 0 (.setActive 0 3 false) :: List.replicate 4 (.run 0 false) ++
    .start 1 (.updateUserAdmin 1 4 { disabled := some true }) :: List.replicate 4 (.run 1 false) ++
      [.run 0 false, .run 1 false]

def twoAdmins : List User :=
  [{ id := 3, email := "admin@example.com", role := .admin }, { id := 4, email := "second@example.com", role := .admin }]

def threeAdmins : List User :=
  { id := 5, email := "third@example.com", role := .admin } :: twoAdmins

theorem third_admin_remains :
    transactions.Along (fun c => c.shared.users.any (·.isEnabledAdmin)) (transactions.init (.of threeAdmins))
      disableAtOnce :=
  enabled_admin_remains threeAdmins (by decide) (by decide) disableAtOnce
    (along_sparing_of_two (by decide) (fun _ _ => rfl) (by decide +kernel))

theorem no_admin_remains :
    ((transactions.run (transactions.init (.of twoAdmins)) disableAtOnce).shared.users.any (·.isEnabledAdmin)) = false ∧
      ¬transactions.Along (fun c => c.shared.users.any (·.isEnabledAdmin)) (transactions.init (.of twoAdmins))
        disableAtOnce := by
  decide +kernel

end Admins

section Alone

variable {a : Accounts}

theorem apply_eq_modifyUser (hids : (a.users.map (·.id)).Nodup) (hu : a.user? id = some u) :
    Write.apply { old := u, new := some (f u) } a.users = (a.modifyUser id f).users := by
  have ⟨hmem, hid⟩ := Accounts.mem_of_user? hu
  simp only [Write.apply, Accounts.modifyUser, ← List.filterMap_eq_map]
  refine List.filterMap_congr fun v hv => ?_
  by_cases hvu : v.id = u.id
  case pos =>
    obtain rfl : v = u := List.inj_on_of_nodup_map hids hv hmem hvu
    simp [hid]
  case neg => simp [hvu, hid ▸ hvu]

theorem finish_alone (w : Write) (hs : s.locked = [w.old.id]) :
    ((fun r : Txn × Server => r.1.step false r.2)^[2] (.count w, s)).2 =
      .of (if (w.apply s.users).any (·.isEnabledAdmin) then w.apply s.users else s.users) := by
  have hfree (t : Txn) (ht : t.row? = some w.old) : (s.release t).locked = [] := by
    simp [Server.release, ht, hs]
  simp only [Function.iterate_succ_apply, Function.iterate_zero, id_eq, Txn.step, Bool.false_eq_true, if_false, Txn.next]
  split_ifs
  · simp only [Server.of, hfree (.commit w) rfl]
  · simp only [Server.of, ← hfree (.count w) rfl]
    rfl

theorem lockRow_alone (t : Txn) (locked : User → Txn) :
    lockRow (.of a.users) t id locked =
      (a.user? id).elim (.idle, .of a.users) fun u => (locked u, (Server.of a.users).lock id) := by
  have hfind : a.users.find? (·.id = id) = a.user? id := rfl
  simp only [lockRow, Server.of, List.not_mem_nil, if_false, hfind]
  cases a.user? id <;> rfl

-- A transaction that runs alone does what the update does as a whole.
theorem updateUserAdmin_alone (hids : (a.users.map (·.id)).Nodup) (now : Int) (id : UUID) (upd : UserUpdate) :
    (transactions.run (transactions.init (.of a.users))
      (.start 0 (.updateUserAdmin now id upd) :: List.replicate 5 (.run 0 false))).shared =
      .of ((a.updateUserAdmin now id upd).toOption.elim a.users (·.users)) := by
  rw [System.run_cons, System.shared_run_replicate]
  change ((fun r : Txn × Server => r.1.step false r.2)^[4]
    (lockRow (.of a.users) (.select now id upd) id (.updateRole now upd))).2 = _
  rw [lockRow_alone, Accounts.updateUserAdmin]
  cases hu : a.user? id
  case none => rfl
  case some u =>
    have hid := (Accounts.mem_of_user? hu).right
    have hrow := apply_eq_modifyUser hids (f := (·.update now upd)) hu
    refine (finish_alone (s := (Server.of a.users).lock id) { old := u, new := some (u.update now upd) } ?_).trans ?_
    · simp [Server.lock, Server.of, hid]
    · change Server.of (if (Write.apply _ a.users).any _ then Write.apply _ a.users else a.users) = _
      rw [hrow]
      change Server.of (if (a.modifyUser id (·.update now upd)).hasEnabledAdmin then _ else _) = _
      by_cases hadmin : (a.modifyUser id (·.update now upd)).hasEnabledAdmin <;>
        simp [hadmin, Accounts.ensureEnabledAdminRemains, Except.toOption]

theorem deleteUser_alone (id : UUID) :
    (transactions.run (transactions.init (.of a.users))
      (.start 0 (.deleteUser id) :: List.replicate 3 (.run 0 false))).shared =
      .of (if (a.user? id).isSome ∧ (a.removeUser id).hasEnabledAdmin then (a.removeUser id).users else a.users) := by
  rw [System.run_cons, System.shared_run_replicate]
  change ((fun r : Txn × Server => r.1.step false r.2)^[2]
    (lockRow (.of a.users) (.delete id) id fun u => .count { old := u, new := none })).2 = _
  rw [lockRow_alone]
  cases hu : a.user? id
  case none => rfl
  case some u =>
    have hid := (Accounts.mem_of_user? hu).right
    have hrow : Write.apply { old := u, new := none } a.users = (a.removeUser id).users := by
      simp only [Write.apply, Accounts.removeUser, ← List.filterMap_eq_filter]
      refine List.filterMap_congr fun v _ => ?_
      by_cases hv : v.id = id <;> simp [hid, hv, Option.guard]
    refine (finish_alone (s := (Server.of a.users).lock id) { old := u, new := none } ?_).trans ?_
    · simp [Server.lock, Server.of, hid]
    · change Server.of (if (Write.apply _ a.users).any _ then Write.apply _ a.users else a.users) = _
      rw [hrow]
      simp [Accounts.hasEnabledAdmin]

end Alone

end Store.Administration
