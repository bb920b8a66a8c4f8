import OtelFleet.Tenants.Calls
import OtelFleet.Tenants.Theorems.Slug

open Store.Keys (Database Customer)
open Interleave (Event System Config)
open System (Stable Allows)

-- The slugs that customers come by when they are created side by side.
namespace Tenants.Accounts

section Steps

variable [Runtime] {l : Loop} {k : Call}

theorem Loop.insert_eq_ok (h : l.insert db x = .ok db') :
    db'.customers = db.customers ++ [(l.newCustomer x.draw).row] ∧ ∀ c ∈ db.customers, c.slug ≠ l.trySlug := by
  unfold Loop.insert at h
  split at h
  case h_1 => cases h
  case h_2 =>
    unfold Database.createCustomer Database.insertAPIKey at h
    split_ifs at h with hid hslug
    cases h
    exact ⟨rfl, fun c hc he => hslug ⟨c, hc, he⟩⟩

def Call.created : Call → Option (Option String × Created)
  | .done asked (.ok created) => some (asked, created)
  | _ => none

omit [Runtime] in
theorem created_check (asked : Asked) : (check asked).created = none := by
  unfold check
  dsimp only
  split_ifs
  case pos => rfl
  case neg =>
    split
    case h_1 => rfl
    case h_2 => split_ifs <;> rfl

theorem step_cases (x : Input) (db : Database) (k : Call) :
    ((step x db k).2 = db ∧ stored x db k = [] ∧ (step x db k).1.created = k.created) ∨
      ∃ l y, k = .inserting l y ∧ l.insert db y = .ok (step x db k).2 ∧ stored x db k = [(l.asked, l.trySlug)] ∧
        (step x db k).1.created = some (l.asked, l.created y.draw) := by
  cases k
  case inserting l y =>
    cases h : l.insert db y
    case ok db' => exact .inr ⟨l, y, rfl, by simp [step, stored, h, Call.created]⟩
    case error e =>
      refine .inl ?_
      cases e
      case slugExists =>
        simp only [step, stored, h, true_and]
        split_ifs <;> exact ⟨rfl, rfl⟩
      all_goals simp [step, stored, h, Call.created]
  case trying l =>
    refine .inl ?_
    simp only [step]
    split_ifs <;> exact ⟨rfl, rfl, rfl⟩
  case begun asked => exact .inl ⟨rfl, rfl, created_check asked⟩
  all_goals exact .inl ⟨rfl, rfl, rfl⟩

theorem mem_customers_step {c : Customer} (hc : c ∈ db.customers) : c ∈ (step x db k).2.customers := by
  obtain ⟨h, -⟩ | ⟨l, y, -, h, -⟩ := step_cases x db k
  · rwa [h]
  · rw [(Loop.insert_eq_ok h).left]
    exact List.mem_append_left _ hc

-- What a loop tries: the slug that was asked for, or the derived one, perhaps with a number.
structure Loop.Tried (l : Loop) : Prop where
  asked : ∀ s ∈ l.asked, validSlug s ∧ l.trySlug = s
  derived : l.asked = none →
    validSlug l.baseSlug ∧ (l.trySlug = l.baseSlug ∨ ∃ n, l.trySlug = l.baseSlug ++ "-" ++ Strconv.itoa n)

omit [Runtime] in
theorem Loop.Tried.validSlug_iff (h : l.Tried) : validSlug l.trySlug ↔ l.asked = none → l.trySlug.length ≤ 64 := by
  cases ha : l.asked
  case some s =>
    obtain ⟨hs, he⟩ := h.asked s ha
    simp [he, hs]
  case none =>
    obtain ⟨hb, he | ⟨n, he⟩⟩ := h.derived ha
    · simp [he, hb, (Tenants.validSlug_iff.mp hb).right.right]
    · simpa [he] using validSlug_suffix_iff hb n

def Call.Tried : Call → Prop
  | .trying l | .inserting l _ => l.Tried
  | .done asked (.ok created) => ∀ s ∈ asked, created.customer.slug = s
  | _ => True

omit [Runtime] in
theorem Call.Tried.created {p : Option String × Created} (h : k.Tried) (hp : p ∈ k.created) :
    ∀ s ∈ p.1, p.2.customer.slug = s := by
  unfold Call.created at hp
  split at hp
  case h_1 =>
    cases hp
    exact h
  case h_2 => cases hp

omit [Runtime] in
theorem Call.Tried.check (asked : Asked) : (check asked).Tried := by
  unfold Accounts.check
  dsimp only
  split_ifs
  case pos => trivial
  case neg =>
    split
    case h_1 => exact ⟨fun s hs => absurd hs (Option.not_mem_none s), fun _ => ⟨validSlug_deriveSlug _, .inl rfl⟩⟩
    case h_2 slug _ =>
      split_ifs with hv
      · exact ⟨fun s hs => ⟨Option.mem_some.mp hs ▸ hv, Option.mem_some.mp hs⟩, fun h => absurd h (Option.some_ne_none _)⟩
      · trivial

theorem Call.Tried.step (h : k.Tried) : (step x db k).1.Tried := by
  cases k
  case idle => trivial
  case begun asked => exact .check asked
  case done => exact h
  case trying l =>
    simp only [Accounts.step]
    split_ifs
    · exact h
    · trivial
  case inserting l y =>
    have hl : l.Tried := h
    simp only [Accounts.step]
    split
    case h_1 => exact fun s hs => (hl.asked s hs).right
    case h_2 =>
      split_ifs with hd
      case pos =>
        have ha : l.asked = none := Option.isNone_iff_eq_none.mp hd
        exact ⟨fun s hs => absurd (ha.symm.trans hs) nofun, fun _ => ⟨(hl.derived ha).left, .inr ⟨_, rfl⟩⟩⟩
      case neg => trivial
    case h_3 => exact ⟨hl.asked, hl.derived⟩
    case h_4 => trivial

end Steps

section Runs

variable [Runtime]

-- A slug that is derived and about to be stored is not too long.
def Roomy (db : Database) : Call → Prop
  | .inserting l x => l.asked = none → (l.insert db x).isOk → l.trySlug.length ≤ 64
  | _ => True

def begun : Config Call Database :=
  calls.init { customers := [], keys := [] }

-- What is to hold of slugs after a history of calls.
structure SlugsKept (events : List (Event Asked Input)) : Prop where
  valid : ∀ c ∈ (calls.run begun events).shared.customers, validSlug c.slug
  distinct : ((calls.run begun events).shared.customers.map (·.slug)).Nodup
  -- Every customer is stored by a call, under the slug that the call was given if it was given one.
  stored : (calls.run begun events).shared.customers.map (·.slug) = (calls.trace stored begun events).map (·.2)
  verbatim : ∀ p ∈ calls.trace Accounts.stored begun events, ∀ s ∈ p.1, p.2 = s
  answered : ∀ i, ∀ p ∈ ((calls.run begun events).calls i).created,
    p.2.customer ∈ (calls.run begun events).shared.customers ∧ ∀ s ∈ p.1, p.2.customer.slug = s

def Known (db : Database) (k : Call) : Prop :=
  k.Tried ∧ ∀ p ∈ k.created, p.2.customer ∈ db.customers

theorem Known.step {x : Input} {db : Database} {k : Call} (h : Known db k) : Known (step x db k).2 (step x db k).1 := by
  refine ⟨h.left.step, ?_⟩
  obtain ⟨hdb, -, hk⟩ | ⟨l, y, -, hins, -, hk⟩ := step_cases x db k
  · rw [hdb, hk]
    exact h.right
  · rw [hk, (Loop.insert_eq_ok hins).left]
    intro p hp
    cases hp
    exact List.mem_append_right _ (List.mem_singleton.mpr rfl)

theorem stable_distinct : calls.Stable (fun _ _ => True) (fun db => (db.customers.map (·.slug)).Nodup) Known where
  begin _ _ _ := ⟨trivial, nofun⟩
  shared x db k hG _ _ := by
    obtain ⟨h, -⟩ | ⟨l, y, -, h, -⟩ := step_cases x db k
    · rwa [show (calls.step x db k).2 = db from h]
    · obtain ⟨hrows, hfresh⟩ := Loop.insert_eq_ok h
      change ((step x db k).2.customers.map (·.slug)).Nodup
      rw [hrows]
      exact Assoc.nodup_map_concat hG fun c hc => hfresh c hc
  own _ _ _ _ hL _ := hL.step
  other _ _ _ _ _ _ _ hL := ⟨hL.left, fun p hp => mem_customers_step (hL.right p hp)⟩

theorem stable_valid : calls.Stable Roomy (fun db => ∀ c ∈ db.customers, validSlug c.slug) Known where
  begin _ _ _ := ⟨trivial, nofun⟩
  shared x db k hG hL hroomy c hc := by
    obtain ⟨h, -⟩ | ⟨l, y, rfl, h, -⟩ := step_cases x db k
    · rw [show (calls.step x db k).2 = db from h] at hc
      exact hG c hc
    · rw [show (calls.step x db (.inserting l y)).2.customers = _ from (Loop.insert_eq_ok h).left] at hc
      obtain hc | hc := List.mem_append.mp hc
      · exact hG c hc
      · obtain rfl := List.mem_singleton.mp hc
        exact hL.left.validSlug_iff.mpr fun ha => hroomy ha (by simp [h, Except.isOk, Except.toBool])
  own _ _ _ _ hL _ := hL.step
  other _ _ _ _ _ _ _ hL := ⟨hL.left, fun p hp => mem_customers_step (hL.right p hp)⟩

-- The customers are those that have been stored, for calls that asked for their slugs.
structure Recorded (shows : List (Option String × String)) (c : Config Call Database) : Prop where
  customers : c.shared.customers.map (·.slug) = shows.map (·.2)
  asked : ∀ p ∈ shows, ∀ s ∈ p.1, p.2 = s
  tried : ∀ i, (c.calls i).Tried

theorem tried_act {c : Config Call Database} (h : ∀ i, (c.calls i).Tried) (e : Event Asked Input) (j : Nat) :
    ((calls.act c e).calls j).Tried := by
  cases e
  case start i r =>
    simp only [System.act]
    split_ifs
    case pos =>
      by_cases hj : j = i
      · simp only [hj, Function.update_self]
        trivial
      · simpa only [Function.update_of_ne hj] using h j
    case neg => exact h j
  case run i x =>
    by_cases hj : j = i
    · rw [hj, System.calls_act_self]
      exact (h i).step
    · rw [System.calls_act_of_ne hj]
      exact h j

theorem Recorded.act {shows : List (Option String × String)} {c : Config Call Database} (h : Recorded shows c)
    (e : Event Asked Input) : Recorded (shows ++ System.shown stored c e) (calls.act c e) := by
  have htried := tried_act h.tried e
  cases e
  case start i r =>
    have hshared : (calls.act c (.start i r)).shared = c.shared := by
      simp only [System.act]
      split_ifs <;> rfl
    simp only [System.shown, List.append_nil]
    exact ⟨hshared ▸ h.customers, h.asked, htried⟩
  case run i x =>
    simp only [System.shown]
    obtain ⟨hdb, hs, -⟩ | ⟨l, y, hk, hins, hs, -⟩ := step_cases x c.shared (c.calls i)
    · rw [hs, List.append_nil]
      refine ⟨?_, h.asked, htried⟩
      rw [show (calls.act c (.run i x)).shared = c.shared from hdb]
      exact h.customers
    · have hl : (Call.inserting l y).Tried := hk ▸ h.tried i
      rw [hs]
      refine ⟨?_, ?_, htried⟩
      · rw [show (calls.act c (.run i x)).shared.customers = _ from (Loop.insert_eq_ok hins).left, List.map_append,
          List.map_append, h.customers]
        rfl
      · intro p hp s hps
        obtain hp | hp := List.mem_append.mp hp
        · exact h.asked p hp s hps
        · obtain rfl := List.mem_singleton.mp hp
          exact (Loop.Tried.asked hl s hps).right

theorem recorded_run (events : List (Event Asked Input)) :
    Recorded (calls.trace stored begun events) (calls.run begun events) := by
  have hinit : Recorded [] begun := ⟨rfl, nofun, fun _ => trivial⟩
  have hact : ∀ shows c e, Recorded shows c → True → Allows (fun _ _ => True) c e →
      Recorded (shows ++ System.shown stored c e) (calls.act c e) := fun _ _ e h _ _ => h.act e
  exact System.run_traced hinit hact (fun _ _ => trivial)
    (System.meets_true begun events)

theorem invalid_of_not_roomy {c : Config Call Database} {i : Nat} (x : Input) (h : ∀ i, (c.calls i).Tried)
    (hno : ¬Roomy c.shared (c.calls i)) : ∃ d ∈ (calls.act c (.run i x)).shared.customers, ¬validSlug d.slug := by
  unfold Roomy at hno
  split at hno
  case h_1 l y hk =>
    push Not at hno
    obtain ⟨ha, hok, hlong⟩ := hno
    have hl : (Call.inserting l y).Tried := hk ▸ h i
    obtain ⟨hdb, hs, -⟩ | ⟨l', y', hk', hins, -⟩ := step_cases x c.shared (c.calls i)
    · cases hins : l.insert c.shared y
      case ok => simp [hk, stored, hins] at hs
      case error => simp [hins, Except.isOk, Except.toBool] at hok
    · obtain ⟨rfl, rfl⟩ : l = l' ∧ y = y' := by simpa using hk.symm.trans hk'
      refine ⟨(l.newCustomer y.draw).row, ?_, ?_⟩
      · rw [show (calls.act c (.run i x)).shared.customers = _ from (Loop.insert_eq_ok hins).left]
        exact List.mem_append_right _ (List.mem_singleton.mpr rfl)
      · intro hv
        exact absurd (hl.validSlug_iff.mp hv ha) (by omega)
  case h_2 => exact absurd trivial hno

-- Slugs are kept when every suffix fits.
theorem slugsKept_iff (events : List (Event Asked Input)) : SlugsKept events ↔ calls.Meets Roomy begun events := by
  have hrec := recorded_run events
  obtain ⟨hdistinct, hknown⟩ := stable_distinct.always (s := { customers := [], keys := [] }) .nil ⟨trivial, nofun⟩ events
  constructor
  case mp =>
    intro h
    refine System.meets_of_unmarked (I := fun c => ∀ i, (c.calls i).Tried)
      (B := fun db => ∃ c ∈ db.customers, ¬validSlug c.slug) ?_ ?_ ?_ ?_ ?_
    · exact fun _ => trivial
    · exact fun c e hc => tried_act hc e
    · exact fun x db k ⟨c, hc, hv⟩ => ⟨c, mem_customers_step hc, hv⟩
    · exact fun c i x hc hno => invalid_of_not_roomy x hc hno
    · exact fun ⟨c, hc, hv⟩ => hv (h.valid c hc)
  case mpr =>
    intro h
    have hvalid := (stable_valid.run (c := begun) nofun (fun _ => ⟨trivial, nofun⟩) h).left
    exact ⟨hvalid, hdistinct, hrec.customers, hrec.asked,
      fun i p hp => ⟨(hknown i).right p hp, (hknown i).left.created hp⟩⟩

end Runs

section Samples

def inputs (draws : Nat → Draw) (attempt left : Nat) : List Input :=
  (List.range' attempt left).flatMap fun n => [{ draw := draws n }, { draw := draws n }]

def alone (asked : Asked) (draws : Nat → Draw) (i : Nat) : List (Event Asked Input) :=
  .start i asked :: ({ draw := draws 0 } :: (inputs draws 1 maxAttempts ++ [{ draw := draws 0 }])).map (.run i)

def sampleDraws (n attempt : Nat) : Draw where
  customerID := 20 * n + attempt
  keyID := 20 * n + attempt
  clientBytes := .replicate 4 (.ofNat n)
  keyBytes := { lookup := .replicate 4 0, secret := .replicate 32 0 }

def longName : String :=
  .ofList (.replicate 64 'a')

def namesakes : List (Event Asked Input) :=
  alone { name := longName, slug := none } (sampleDraws 1) 0 ++ alone { name := longName, slug := none } (sampleDraws 2) 0

theorem not_slugsKept [Runtime] {events : List (Event Asked Input)} {slug : String} (h : ¬validSlug slug)
    (hslug : slug ∈ (calls.run begun events).shared.customers.map (·.slug)) : ¬SlugsKept events := by
  intro hkept
  obtain ⟨c, hc, rfl⟩ := List.mem_map.mp hslug
  exact h (hkept.valid c hc)

-- There is no room for the suffix.
theorem namesakes_slugs :
    letI := Runtime.sample
    (calls.run begun namesakes).shared.customers.map (·.slug) = [longName, longName ++ "-2"] ∧
      ¬validSlug (longName ++ "-2") ∧ ¬SlugsKept namesakes := by
  have hinvalid : ¬validSlug (longName ++ "-2") := by decide +kernel
  exact ⟨by decide +kernel, hinvalid, @not_slugsKept .sample _ _ hinvalid (by decide +kernel)⟩

end Samples

end Tenants.Accounts
