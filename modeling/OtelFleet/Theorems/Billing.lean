import OtelFleet.Billing
import Mathlib.Algebra.Order.BigOperators.Group.List
import Mathlib.Algebra.Order.Ring.Int

open Stats (CustomerCost)
open Sorting (sortBy sortBy_perm sortBy_sorted mem_sortBy)

namespace Billing

section Settings

structure BillingSettings.Accepted (s : BillingSettings) : Prop where
  pricePerGiBMicro : 0 ≤ s.pricePerGiBMicro.toInt
  pricePerMillionItemsMicro : 0 ≤ s.pricePerMillionItemsMicro.toInt

theorem getD_nonneg {y : Option Int64} (hx : 0 ≤ x.toInt) (hy : ¬y.any (· < 0)) : 0 ≤ (y.getD x).toInt := by
  cases y
  case none => exact hx
  case some y => simpa [Int64.lt_iff_toInt_lt] using hy

theorem BillingSettings.Accepted.seeded : BillingSettings.seeded.Accepted :=
  ⟨by decide, by decide⟩

theorem BillingSettings.Accepted.update {body : BillingSettingsUpdate} (h : s.Accepted)
    (hs : updateBillingSettings s body = .ok s') : s'.Accepted := by
  unfold updateBillingSettings at hs
  split_ifs at hs with hg hm hc
  obtain rfl := Except.ok.inj hs
  exact ⟨getD_nonneg h.pricePerGiBMicro hg, getD_nonneg h.pricePerMillionItemsMicro hm⟩

end Settings

section Amounts

variable {settings : BillingSettings}

def bytesAmount (settings : BillingSettings) (bytes : Int64) : Int :=
  settings.pricePerGiBMicro.toInt * bytes.toInt / 2 ^ 30

def itemsAmount (settings : BillingSettings) (items : Int64) : Int :=
  settings.pricePerMillionItemsMicro.toInt * items.toInt / 10 ^ 6

def lineAmount (settings : BillingSettings) (c : CustomerCost) : Int :=
  bytesAmount settings c.bytes + itemsAmount settings c.items

def amount (settings : BillingSettings) (costs : List CustomerCost) : Int :=
  (costs.map (lineAmount settings)).sum

def Metered (c : CustomerCost) : Prop :=
  0 ≤ c.items.toInt ∧ 0 ≤ c.bytes.toInt

theorem toInt_ofInt_iff (hn : 0 ≤ n) : (Int64.ofInt n).toInt = n ↔ n < 2 ^ 63 := by
  constructor
  case mp =>
    intro h
    rw [← h]
    exact Int64.toInt_lt _
  case mpr =>
    intro h
    exact Int64.toInt_ofInt_of_le (by omega) h

theorem mulDiv_eq {price qty divisor : Int64} (hp : 0 ≤ price.toInt) (hq : 0 ≤ qty.toInt) (hd : 0 < divisor.toInt) :
    mulDiv price qty divisor = .ofInt (price.toInt * qty.toInt / divisor.toInt) := by
  unfold mulDiv
  split_ifs with h
  case pos =>
    -- One of the two factors is zero.
    simp only [Int64.le_iff_toInt_le, Int64.toInt_zero] at h
    have hz : price.toInt * qty.toInt = 0 := by
      obtain h | h | h := h
      · rw [le_antisymm h hp, zero_mul]
      · rw [le_antisymm h hq, mul_zero]
      · omega
    rw [hz, Int.zero_ediv]
    rfl
  case neg => rw [Int.tdiv_eq_ediv_of_nonneg (mul_nonneg hp hq)]

theorem toInt_mulDiv_iff {price qty divisor : Int64} (hp : 0 ≤ price.toInt) (hq : 0 ≤ qty.toInt)
    (hd : 0 < divisor.toInt) :
    (mulDiv price qty divisor).toInt = price.toInt * qty.toInt / divisor.toInt ↔
      price.toInt * qty.toInt / divisor.toInt < 2 ^ 63 := by
  rw [mulDiv_eq hp hq hd]
  exact toInt_ofInt_iff (Int.ediv_nonneg (mul_nonneg hp hq) hd.le)

theorem lineAmount_parts_nonneg (hs : settings.Accepted) (hc : Metered c) :
    0 ≤ bytesAmount settings c.bytes ∧ 0 ≤ itemsAmount settings c.items :=
  ⟨Int.ediv_nonneg (mul_nonneg hs.pricePerGiBMicro hc.right) (by decide),
    Int.ediv_nonneg (mul_nonneg hs.pricePerMillionItemsMicro hc.left) (by decide)⟩

theorem lineAmount_nonneg (hs : settings.Accepted) (hc : Metered c) : 0 ≤ lineAmount settings c :=
  add_nonneg (lineAmount_parts_nonneg hs hc).left (lineAmount_parts_nonneg hs hc).right

theorem lineAmount_le_amount (hs : settings.Accepted)
    (hcosts : ∀ c ∈ costs, Metered c) (hc : c ∈ costs) : lineAmount settings c ≤ amount settings costs := by
  refine List.single_le_sum ?_ _ (List.mem_map_of_mem hc)
  simp only [List.forall_mem_map]
  exact fun c hc => lineAmount_nonneg hs (hcosts c hc)

-- At most the given prices, for at most the given usage.
structure BillingSettings.AtMost (s s' : BillingSettings) : Prop where
  pricePerGiBMicro : s.pricePerGiBMicro ≤ s'.pricePerGiBMicro
  pricePerMillionItemsMicro : s.pricePerMillionItemsMicro ≤ s'.pricePerMillionItemsMicro

def UsedAtMost (c c' : CustomerCost) : Prop :=
  c.items ≤ c'.items ∧ c.bytes ≤ c'.bytes

theorem lineAmount_mono (hs : settings.Accepted) (hc : Metered c)
    (hp : settings.AtMost settings') (hu : UsedAtMost c c') : lineAmount settings c ≤ lineAmount settings' c' := by
  have hg := Int64.le_iff_toInt_le.mp hp.pricePerGiBMicro
  have hm := Int64.le_iff_toInt_le.mp hp.pricePerMillionItemsMicro
  have hi := Int64.le_iff_toInt_le.mp hu.left
  have hb := Int64.le_iff_toInt_le.mp hu.right
  refine add_le_add (Int.ediv_le_ediv (by decide) ?_) (Int.ediv_le_ediv (by decide) ?_)
  · exact mul_le_mul hg hb hc.right (hs.pricePerGiBMicro.trans hg)
  · exact mul_le_mul hm hi hc.left (hs.pricePerMillionItemsMicro.trans hm)

theorem amount_mono (hs : settings.Accepted)
    (hcosts : ∀ c ∈ costs, Metered c) (hp : settings.AtMost settings') (hu : List.Forall₂ UsedAtMost costs costs') :
    amount settings costs ≤ amount settings' costs' := by
  induction hu
  case nil => simp [amount]
  case cons c c' costs costs' hu _ hi =>
    simp only [amount, List.map_cons, List.sum_cons]
    exact add_le_add (lineAmount_mono hs (hcosts c List.mem_cons_self) hp hu)
      (hi fun c hc => hcosts c (List.mem_cons_of_mem _ hc))

end Amounts

section Lines

variable {settings : BillingSettings}

-- The costs of a line are rounded down, and the total of a line is what they add up to.
structure Line.Exact (settings : BillingSettings) (l : Line) : Prop where
  bytesCostMicro : l.bytesCostMicro.toInt = bytesAmount settings l.bytes
  itemsCostMicro : l.itemsCostMicro.toInt = itemsAmount settings l.items
  totalMicro : l.totalMicro.toInt = l.bytesCostMicro.toInt + l.itemsCostMicro.toInt

theorem Line.Exact.toInt_totalMicro (h : (price settings c).Exact settings) :
    (price settings c).totalMicro.toInt = lineAmount settings c := by
  rw [h.totalMicro, h.bytesCostMicro, h.itemsCostMicro]
  rfl

theorem price_exact_iff (hs : settings.Accepted) (hc : Metered c) :
    (price settings c).Exact settings ↔ lineAmount settings c < 2 ^ 63 := by
  constructor
  case mp =>
    intro h
    rw [← h.toInt_totalMicro]
    exact Int64.toInt_lt _
  case mpr =>
    intro h
    obtain ⟨hb, hi⟩ := lineAmount_parts_nonneg hs hc
    have hsum : lineAmount settings c = bytesAmount settings c.bytes + itemsAmount settings c.items := rfl
    have hbytes : (price settings c).bytesCostMicro.toInt = bytesAmount settings c.bytes :=
      (toInt_mulDiv_iff hs.pricePerGiBMicro hc.right (by decide)).mpr (show bytesAmount settings c.bytes < 2 ^ 63 by omega)
    have hitems : (price settings c).itemsCostMicro.toInt = itemsAmount settings c.items :=
      (toInt_mulDiv_iff hs.pricePerMillionItemsMicro hc.left (by decide)).mpr
        (show itemsAmount settings c.items < 2 ^ 63 by omega)
    refine ⟨hbytes, hitems, ?_⟩
    change ((price settings c).bytesCostMicro + (price settings c).itemsCostMicro).toInt = _
    rw [Int64.toInt_add, hbytes, hitems]
    exact Int.bmod_eq_of_le (by omega) (by omega)

theorem foldl_price (settings : BillingSettings) (costs : List CustomerCost) (lines : List Line) (total : Int64) :
    costs.foldl (fun (lines, total) c => (lines ++ [price settings c], total + (price settings c).totalMicro))
        (lines, total) =
      (lines ++ costs.map (price settings), (costs.map fun c => (price settings c).totalMicro).foldl (· + ·) total) := by
  induction costs generalizing lines total
  case nil => simp
  case cons c costs hi => simp [hi]

theorem lines_compute : (compute month costs settings).lines = sortBy lineKey (costs.map (price settings)) := by
  simp [compute, foldl_price]

theorem totalMicro_compute :
    (compute month costs settings).totalMicro = (costs.map fun c => (price settings c).totalMicro).foldl (· + ·) 0 := by
  simp [compute, foldl_price]

theorem mem_lines_compute : l ∈ (compute month costs settings).lines ↔ ∃ c ∈ costs, price settings c = l := by
  rw [lines_compute, mem_sortBy, List.mem_map]

theorem toInt_foldl_add {ns : List Int64} (hn : 0 ≤ n.toInt) (hns : ∀ m ∈ ns, 0 ≤ m.toInt)
    (h : n.toInt + (ns.map Int64.toInt).sum < 2 ^ 63) :
    (ns.foldl (· + ·) n).toInt = n.toInt + (ns.map Int64.toInt).sum := by
  induction ns generalizing n
  case nil => simp
  case cons m ns hi =>
    have hm := hns m List.mem_cons_self
    replace hns := fun m hm => hns m (List.mem_cons_of_mem _ hm)
    have hrest : 0 ≤ (ns.map Int64.toInt).sum := List.sum_nonneg (by simpa using hns)
    simp only [List.map_cons, List.sum_cons] at h ⊢
    have hadd : (n + m).toInt = n.toInt + m.toInt := by
      rw [Int64.toInt_add]
      exact Int.bmod_eq_of_le (by omega) (by omega)
    rw [List.foldl_cons, hi (by omega) hns (by omega), hadd]
    omega

end Lines

section Exact

variable {settings : BillingSettings} {month : String} {costs : List CustomerCost}

def CustomerCost.usage (c : CustomerCost) : Store.UUID × String × Int64 × Int64 :=
  (c.customerID, c.name, c.items, c.bytes)

def Line.usage (l : Line) : Store.UUID × String × Int64 × Int64 :=
  (l.customerID, l.name, l.items, l.bytes)

-- Every customer has a line, and every amount is what it is in the integers.
structure Statement.Exact (settings : BillingSettings) (costs : List CustomerCost) (st : Statement) : Prop where
  usage : (st.lines.map Line.usage).Perm (costs.map CustomerCost.usage)
  lines : ∀ l ∈ st.lines, l.Exact settings
  totalMicro : st.totalMicro.toInt = (st.lines.map (·.totalMicro.toInt)).sum
  nonneg : 0 ≤ st.totalMicro ∧ ∀ l ∈ st.lines, 0 ≤ l.bytesCostMicro ∧ 0 ≤ l.itemsCostMicro ∧ 0 ≤ l.totalMicro
  order : st.lines.Pairwise fun l m => m.totalMicro < l.totalMicro ∨ l.totalMicro = m.totalMicro ∧ l.name ≤ m.name

theorem usage_compute : ((compute month costs settings).lines.map Line.usage).Perm (costs.map CustomerCost.usage) := by
  rw [lines_compute]
  refine ((sortBy_perm _ _).map _).trans ?_
  rw [List.map_map]
  rfl

theorem order_compute :
    (compute month costs settings).lines.Pairwise fun l m =>
      m.totalMicro < l.totalMicro ∨ l.totalMicro = m.totalMicro ∧ l.name ≤ m.name := by
  rw [lines_compute]
  refine (sortBy_sorted _ _).imp fun {l m} h => ?_
  rw [lineKey, lineKey, Prod.Lex.toLex_le_toLex] at h
  rw [Int64.lt_iff_toInt_lt, ← Int64.toInt_inj]
  exact h.imp (by intro h; dsimp only at h; omega) (And.imp_left (by intro h; dsimp only at h; omega))

theorem sum_lines_compute (h : ∀ c ∈ costs, (price settings c).Exact settings) :
    ((compute month costs settings).lines.map (·.totalMicro.toInt)).sum = amount settings costs := by
  rw [lines_compute, ((sortBy_perm _ _).map _).sum_eq, List.map_map, amount]
  congr 1
  exact List.map_congr_left fun c hc => (h c hc).toInt_totalMicro

theorem compute_exact (hs : settings.Accepted) (hcosts : ∀ c ∈ costs, Metered c) (h : amount settings costs < 2 ^ 63) :
    (compute month costs settings).Exact settings costs := by
  have hlines : ∀ c ∈ costs, (price settings c).Exact settings := fun c hc =>
    (price_exact_iff hs (hcosts c hc)).mpr ((lineAmount_le_amount hs hcosts hc).trans_lt h)
  have hamount : ((costs.map fun c => (price settings c).totalMicro).map Int64.toInt).sum = amount settings costs := by
    rw [List.map_map, amount]
    congr 1
    exact List.map_congr_left fun c hc => (hlines c hc).toInt_totalMicro
  have hnonneg : ∀ c ∈ costs, 0 ≤ (price settings c).totalMicro.toInt := fun c hc => by
    rw [(hlines c hc).toInt_totalMicro]
    exact lineAmount_nonneg hs (hcosts c hc)
  have hzero : (0 : Int64).toInt = 0 := rfl
  have htotal : (compute month costs settings).totalMicro.toInt = amount settings costs := by
    rw [totalMicro_compute, toInt_foldl_add hzero.ge (by simpa using hnonneg) (by rwa [hamount, hzero, zero_add]), hamount,
      hzero, zero_add]
  constructor
  case usage => exact usage_compute
  case order => exact order_compute
  case lines =>
    intro l hl
    obtain ⟨c, hc, rfl⟩ := mem_lines_compute.mp hl
    exact hlines c hc
  case totalMicro => rw [htotal, sum_lines_compute hlines]
  case nonneg =>
    simp only [Int64.le_iff_toInt_le, hzero]
    constructor
    · rw [htotal]
      exact List.sum_nonneg (by simpa using fun c hc => lineAmount_nonneg hs (hcosts c hc))
    · intro l hl
      obtain ⟨c, hc, rfl⟩ := mem_lines_compute.mp hl
      obtain ⟨hb, hi⟩ := lineAmount_parts_nonneg hs (hcosts c hc)
      exact ⟨(hlines c hc).bytesCostMicro ▸ hb, (hlines c hc).itemsCostMicro ▸ hi, hnonneg c hc⟩

-- A statement is exact when the amount it is about fits, and then it is monotone.
theorem compute_exact_iff (hs : settings.Accepted) (hcosts : ∀ c ∈ costs, Metered c) :
    ((compute month costs settings).Exact settings costs ↔ amount settings costs < 2 ^ 63) ∧
      ∀ settings' costs', settings.AtMost settings' → List.Forall₂ UsedAtMost costs costs' →
        (compute month costs' settings').Exact settings' costs' →
          (compute month costs settings).totalMicro ≤ (compute month costs' settings').totalMicro := by
  have hlt : ∀ {settings costs}, (compute month costs settings).Exact settings costs →
      (compute month costs settings).totalMicro.toInt = amount settings costs := fun h => by
    rw [h.totalMicro, sum_lines_compute fun c hc => h.lines _ (mem_lines_compute.mpr ⟨c, hc, rfl⟩)]
  refine ⟨⟨fun h => hlt h ▸ Int64.toInt_lt _, compute_exact hs hcosts⟩, ?_⟩
  intro settings' costs' hp hu h'
  have hle := amount_mono hs hcosts hp hu
  have h : (compute month costs settings).Exact settings costs :=
    compute_exact hs hcosts (hle.trans_lt (hlt h' ▸ Int64.toInt_lt _))
  rwa [Int64.le_iff_toInt_le, hlt h, hlt h']

end Exact

section Samples

def sampleCost : CustomerCost where
  customerID := 1
  name := "Acme"
  items := 0
  bytes := 2147483648
  days := []

def dearest : BillingSettings where
  pricePerGiBMicro := 9223372036854775807
  pricePerMillionItemsMicro := 0
  currency := "EUR"

def usual : BillingSettings where
  pricePerGiBMicro := 250000
  pricePerMillionItemsMicro := 1000
  currency := "EUR"

-- The bill is negative.
theorem compute_dearest :
    updateBillingSettings .seeded { pricePerGiBMicro := some 9223372036854775807 } = .ok dearest ∧ Metered sampleCost ∧
      (compute "2026-01" [sampleCost] dearest).totalMicro = -2 ∧
      ¬(compute "2026-01" [sampleCost] dearest).Exact dearest [sampleCost] := by
  have htotal : (compute "2026-01" [sampleCost] dearest).totalMicro = -2 := by decide +kernel
  refine ⟨rfl, by simp [Metered, sampleCost], htotal, fun h => ?_⟩
  have hnonneg := h.nonneg.left
  rw [htotal] at hnonneg
  exact absurd hnonneg (by decide)

def sampleCosts : List CustomerCost := [
  { customerID := 2, name := "Bolt", items := 1999500, bytes := 0, days := [] },
  sampleCost,
  { customerID := 3, name := "Aero", items := 1999999, bytes := 1, days := [] }]

-- The first and the last customer owe the same once it is rounded down, and are listed by name.
theorem compute_usual :
    usual.Accepted ∧ (∀ c ∈ sampleCosts, Metered c) ∧
      ((compute "2026-01" sampleCosts usual).lines.map fun l => (l.name, l.totalMicro)) =
        [("Acme", 500000), ("Aero", 1999), ("Bolt", 1999)] ∧
      (compute "2026-01" sampleCosts usual).totalMicro = 503998 ∧
      (compute "2026-01" sampleCosts usual).Exact usual sampleCosts := by
  have hs : usual.Accepted := ⟨by decide, by decide⟩
  have hc : ∀ c ∈ sampleCosts, Metered c := by simp [Metered, sampleCosts, sampleCost]
  exact ⟨hs, hc, by decide +kernel, by decide +kernel, (compute_exact_iff hs hc).left.mpr (by decide +kernel)⟩

end Samples

end Billing
