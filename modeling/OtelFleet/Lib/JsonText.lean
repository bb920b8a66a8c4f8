import OtelFleet.Lib.Json

-- The texts of JSON values. A text is given by the value whose numbers are the literals that are written
-- and whose keys come in order.
namespace Json

open Assoc (sort mapVals)

def Number.printed (x : Float64) : Number :=
  if 0 ≤ x.exp then { neg := x.neg, coeff := x.coeff * 10 ^ x.exp.toNat, scale := 0 }
  else { neg := x.neg, coeff := x.coeff, scale := (-x.exp).toNat }

inductive Numeral where
  | float (x : Float64)
  | literal (n : Number)
deriving DecidableEq

namespace Numeral

def encoded : Numeral → Numeral
  | float x => literal (.printed x)
  | a => a

def stored : Numeral → Numeral
  | float x => literal (.ofFloat x)
  | a => a

def readable (parse : Number → Option Float64) : Numeral → Bool
  | float _ => true
  | literal n => (parse n).isSome

def decoded (parse : Number → Option Float64) : Numeral → Numeral
  | float x => float x
  | literal n => (parse n).elim (literal n) float

end Numeral

namespace Value

def ofNumeral : Numeral → Value
  | .float x => float x
  | .literal n => number n

section Equality

mutual

def beq : Value → Value → Bool
  | null, null => true
  | bool a, bool b => a == b
  | float x, float y => x = y
  | number n, number m => n = m
  | str s, str t => s == t
  | arr items, arr items' => beqItems items items'
  | obj fields, obj fields' => beqFields fields fields'
  | _, _ => false

def beqItems : List Value → List Value → Bool
  | [], [] => true
  | v :: vs, w :: ws => beq v w && beqItems vs ws
  | _, _ => false

def beqFields : Fields → Fields → Bool
  | [], [] => true
  | (k, v) :: fs, (k', w) :: gs => k == k' && (beq v w && beqFields fs gs)
  | _, _ => false

end

theorem beqItems_iff (h : ∀ v ∈ items, ∀ w, beq v w ↔ v = w) : beqItems items items' ↔ items = items' := by
  induction items generalizing items'
  case nil => cases items' <;> simp [beqItems]
  case cons v vs hi =>
    cases items'
    case nil => simp [beqItems]
    case cons w ws =>
      rw [beqItems, Bool.and_eq_true, h v (by simp) w, hi fun u hu => h u (by simp [hu]), List.cons.injEq]

theorem beqFields_iff (h : ∀ k v, (k, v) ∈ fields → ∀ w, beq v w ↔ v = w) :
    beqFields fields fields' ↔ fields = fields' := by
  induction fields generalizing fields'
  case nil => cases fields' <;> simp [beqFields]
  case cons e fs hi =>
    cases fields'
    case nil => simp [beqFields]
    case cons e' gs =>
      rw [beqFields, Bool.and_eq_true, Bool.and_eq_true, beq_iff_eq, h e.1 e.2 (by simp) e'.2,
        hi fun k v hm => h k v (by simp [hm]), List.cons.injEq, Prod.ext_iff, and_assoc]

theorem beq_iff : beq v w ↔ v = w := by
  induction v generalizing w
  case arr items hi =>
    cases w
    case arr items' => rw [beq, beqItems_iff fun v hv w => hi v hv, arr.injEq]
    all_goals simp [beq]
  case obj fields hi =>
    cases w
    case obj fields' => rw [beq, beqFields_iff fun k v hm w => hi k v hm, obj.injEq]
    all_goals simp [beq]
  all_goals cases w <;> simp [beq]

instance : DecidableEq Value :=
  fun _ _ => decidable_of_iff _ beq_iff

end Equality

mutual

def numerals : Value → List Numeral
  | float x => [.float x]
  | number n => [.literal n]
  | arr items => numeralsItems items
  | obj fields => numeralsFields fields
  | _ => []

def numeralsItems : List Value → List Numeral
  | [] => []
  | v :: vs => v.numerals ++ numeralsItems vs

def numeralsFields : Fields → List Numeral
  | [] => []
  | (_, v) :: fs => v.numerals ++ numeralsFields fs

end

mutual

def mapNumbers (f : Numeral → Numeral) : Value → Value
  | float x => ofNumeral (f (.float x))
  | number n => ofNumeral (f (.literal n))
  | arr items => arr (mapNumbersItems f items)
  | obj fields => obj (mapNumbersFields f fields)
  | v => v

def mapNumbersItems (f : Numeral → Numeral) : List Value → List Value
  | [] => []
  | v :: vs => v.mapNumbers f :: mapNumbersItems f vs

def mapNumbersFields (f : Numeral → Numeral) : Fields → Fields
  | [] => []
  | (k, v) :: fs => (k, v.mapNumbers f) :: mapNumbersFields f fs

end

mutual

def sortKeys : Value → Value
  | arr items => arr (sortKeysItems items)
  | obj fields => obj (sort (sortKeysFields fields))
  | v => v

def sortKeysItems : List Value → List Value
  | [] => []
  | v :: vs => v.sortKeys :: sortKeysItems vs

def sortKeysFields : Fields → Fields
  | [] => []
  | (k, v) :: fs => (k, v.sortKeys) :: sortKeysFields fs

end

attribute [local simp] numerals numeralsItems numeralsFields mapNumbers mapNumbersItems mapNumbersFields
  sortKeys sortKeysItems sortKeysFields stored storedItems storedFields

def encoded (v : Value) : Value :=
  (v.mapNumbers Numeral.encoded).sortKeys

section Lists

theorem mem_numeralsItems : a ∈ numeralsItems items ↔ ∃ v ∈ items, a ∈ v.numerals := by
  induction items <;> simp_all [numeralsItems]

theorem mem_numeralsFields : a ∈ numeralsFields fields ↔ ∃ e ∈ fields, a ∈ e.2.numerals := by
  induction fields <;> simp_all [numeralsFields]

theorem mapNumbersItems_eq (f : Numeral → Numeral) (items : List Value) :
    mapNumbersItems f items = items.map (mapNumbers f) := by
  induction items <;> simp_all [mapNumbersItems]

theorem mapNumbersFields_eq (f : Numeral → Numeral) (fields : Fields) :
    mapNumbersFields f fields = mapVals (fun _ v => v.mapNumbers f) fields := by
  induction fields
  case nil => rfl
  case cons e fs hi => simp [mapNumbersFields, hi, mapVals]

theorem sortKeysItems_eq (items : List Value) : sortKeysItems items = items.map sortKeys := by
  induction items <;> simp_all [sortKeysItems]

theorem sortKeysFields_eq (fields : Fields) : sortKeysFields fields = mapVals (fun _ v => v.sortKeys) fields := by
  induction fields
  case nil => rfl
  case cons e fs hi => simp [sortKeysFields, hi, mapVals]

end Lists

section Laws

@[simp]
theorem numerals_ofNumeral (a : Numeral) : (ofNumeral a).numerals = [a] := by
  cases a <;> rfl

@[simp]
theorem mapNumbers_ofNumeral (f : Numeral → Numeral) (a : Numeral) : (ofNumeral a).mapNumbers f = ofNumeral (f a) := by
  cases a <;> rfl

@[simp]
theorem sortKeys_ofNumeral (a : Numeral) : (ofNumeral a).sortKeys = ofNumeral a := by
  cases a <;> rfl

theorem ofNumeral_inj : ofNumeral a = ofNumeral b ↔ a = b := by
  cases a <;> cases b <;> simp [ofNumeral]

theorem mapNumbers_mapNumbers (v : Value) : (v.mapNumbers f).mapNumbers g = v.mapNumbers (g ∘ f) := by
  induction v
  case arr items hi =>
    simp only [mapNumbers, mapNumbersItems_eq, List.map_map]
    exact congrArg arr (List.map_congr_left hi)
  case obj fields hi =>
    simp only [mapNumbers, mapNumbersFields_eq]
    simp only [mapVals, List.map_map]
    exact congrArg obj (List.map_congr_left fun e he => Prod.ext rfl (hi e.1 e.2 he))
  all_goals simp [mapNumbers]

theorem sortKeys_mapNumbers (v : Value) : (v.mapNumbers f).sortKeys = v.sortKeys.mapNumbers f := by
  induction v
  case arr items hi =>
    simp only [mapNumbers, sortKeys, mapNumbersItems_eq, sortKeysItems_eq, List.map_map]
    exact congrArg arr (List.map_congr_left hi)
  case obj fields hi =>
    simp only [mapNumbers, sortKeys, mapNumbersFields_eq, sortKeysFields_eq, ← Assoc.sort_mapVals]
    refine congrArg (fun l => obj (sort l)) ?_
    simp only [mapVals, List.map_map]
    exact List.map_congr_left fun e he => Prod.ext rfl (hi e.1 e.2 he)
  all_goals simp [mapNumbers, sortKeys]

theorem sortKeys_sortKeys (v : Value) : v.sortKeys.sortKeys = v.sortKeys := by
  induction v
  case arr items hi =>
    simp only [sortKeys, sortKeysItems_eq, List.map_map]
    exact congrArg arr (List.map_congr_left hi)
  case obj fields hi =>
    simp only [sortKeys, sortKeysFields_eq, ← Assoc.sort_mapVals, Assoc.sort_sort]
    refine congrArg (fun l => obj (sort l)) ?_
    simp only [mapVals, List.map_map]
    exact List.map_congr_left fun e he => Prod.ext rfl (hi e.1 e.2 he)
  all_goals rfl

theorem mem_numerals_sortKeys {v : Value} : a ∈ v.sortKeys.numerals ↔ a ∈ v.numerals := by
  induction v
  case arr items hi =>
    simp only [sortKeys, sortKeysItems_eq, numerals, mem_numeralsItems, List.mem_map, exists_exists_and_eq_and]
    exact exists_congr fun v => and_congr_right fun hv => hi v hv
  case obj fields hi =>
    simp only [sortKeys, sortKeysFields_eq, numerals, mem_numeralsFields, Assoc.mem_sort, mapVals, List.mem_map,
      exists_exists_and_eq_and]
    exact exists_congr fun e => and_congr_right fun he => hi e.1 e.2 he
  all_goals rfl

theorem numerals_mapNumbers (f : Numeral → Numeral) (v : Value) : (v.mapNumbers f).numerals = v.numerals.map f := by
  induction v
  case arr items hi =>
    simp only [mapNumbers, numerals]
    induction items
    case nil => rfl
    case cons v vs hi' =>
      simp only [mapNumbersItems, numeralsItems, List.map_append]
      rw [hi v (by simp), hi' fun w hw => hi w (by simp [hw])]
  case obj fields hi =>
    simp only [mapNumbers, numerals]
    induction fields
    case nil => rfl
    case cons e fs hi' =>
      simp only [mapNumbersFields, numeralsFields, List.map_append]
      rw [hi e.1 e.2 (by simp), hi' fun k w hw => hi k w (by simp [hw])]
  all_goals simp [mapNumbers, numerals]

theorem mapNumbers_eq_iff {v : Value} : v.mapNumbers f = v.mapNumbers g ↔ ∀ a ∈ v.numerals, f a = g a := by
  induction v
  case float x | number n => simp [mapNumbers, numerals, ofNumeral_inj]
  case arr items hi =>
    simp only [mapNumbers, mapNumbersItems_eq, arr.injEq, List.map_inj_left, numerals, mem_numeralsItems]
    constructor
    · rintro h a ⟨v, hv, ha⟩
      exact (hi v hv).mp (h v hv) a ha
    · exact fun h v hv => (hi v hv).mpr fun a ha => h a ⟨v, hv, ha⟩
  case obj fields hi =>
    simp only [mapNumbers, mapNumbersFields_eq, obj.injEq, mapVals, List.map_inj_left, Prod.mk.injEq, true_and,
      numerals, mem_numeralsFields]
    constructor
    · rintro h a ⟨e, he, ha⟩
      exact (hi e.1 e.2 he).mp (h e he) a ha
    · exact fun h e he => (hi e.1 e.2 he).mpr fun a ha => h a ⟨e, he, ha⟩
  all_goals simp [mapNumbers, numerals]

theorem stored_eq (v : Value) : v.stored = (v.mapNumbers Numeral.stored).sortKeys := by
  induction v
  case arr items hi =>
    simp only [stored, mapNumbers, sortKeys, storedItems_eq, mapNumbersItems_eq, sortKeysItems_eq, List.map_map]
    exact congrArg arr (List.map_congr_left hi)
  case obj fields hi =>
    simp only [stored, mapNumbers, sortKeys, storedFields_eq, mapNumbersFields_eq, sortKeysFields_eq]
    refine congrArg (fun l => obj (sort l)) ?_
    simp only [mapVals, List.map_map]
    exact List.map_congr_left fun e he => Prod.ext rfl (hi e.1 e.2 he)
  all_goals rfl

end Laws

end Value
end Json
