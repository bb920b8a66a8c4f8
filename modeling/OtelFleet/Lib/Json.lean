import OtelFleet.Lib.Assoc
import Mathlib.Algebra.Group.Int.Defs
import Mathlib.Data.String.Basic

namespace Json

-- A finite 64-bit float, given by the shortest decimal that reads back as it: ±coeff·10^exp with
-- no trailing zero in `coeff`. Both zeros have exponent zero.
@[ext]
structure Float64 where
  neg : Bool
  coeff : Nat
  exp : Int
  canonical : if coeff = 0 then exp = 0 else coeff % 10 ≠ 0
deriving DecidableEq

def Float64.IsNegZero (x : Float64) : Prop :=
  x.neg = true ∧ x.coeff = 0

-- A number literal in plain decimal notation: ±coeff·10^(-scale), written with `scale` digits after
-- the point.
structure Number where
  neg : Bool
  coeff : Nat
  scale : Nat
deriving DecidableEq

namespace Number

-- The literal that a `numeric` column gives back for a float. Whether the encoder wrote it in
-- positional or in scientific notation, the column keeps its value and prints it positionally;
-- it has no negative zero.
def ofFloat (x : Float64) : Number :=
  if 0 ≤ x.exp then
    { neg := x.neg && x.coeff != 0, coeff := x.coeff * 10 ^ x.exp.toNat, scale := 0 }
  else
    { neg := x.neg, coeff := x.coeff, scale := (-x.exp).toNat }

def toInt (n : Number) : Int :=
  if n.neg then -(n.coeff : Int) else n.coeff

def int64? (n : Number) : Option Int :=
  if n.scale = 0 ∧ -2 ^ 63 ≤ n.toInt ∧ n.toInt < 2 ^ 63 then some n.toInt else none

def text (n : Number) : String :=
  (if n.neg then "-" else "") ++
    if n.scale = 0 then n.coeff.repr
    else
      let frac := (n.coeff % 10 ^ n.scale).repr
      (n.coeff / 10 ^ n.scale).repr ++ "." ++
        String.ofList (List.replicate (n.scale - frac.length) '0') ++ frac

end Number

namespace Float64

def stripZeros : Nat → Nat → Int → Nat × Int
  | 0, c, e => (c, e)
  | fuel + 1, c, e => if c % 10 = 0 then stripZeros fuel (c / 10) (e + 1) else (c, e)

theorem stripZeros_mod {fuel c : Nat} (h0 : c ≠ 0) (h : c < 10 ^ fuel) (e : Int) :
    (stripZeros fuel c e).1 ≠ 0 ∧ (stripZeros fuel c e).1 % 10 ≠ 0 := by
  induction fuel generalizing c e
  case zero => simp_all
  case succ fuel hi =>
    unfold stripZeros
    split_ifs with hc
    · exact hi (by omega) (by rw [pow_succ] at h; omega) (e + 1)
    · exact ⟨h0, hc⟩

theorem stripZeros_mul_pow {fuel c k : Nat} (hc : c % 10 ≠ 0) (hk : k < fuel) (e : Int) :
    stripZeros fuel (c * 10 ^ k) e = (c, e + k) := by
  induction k generalizing fuel e
  case zero =>
    obtain ⟨fuel, rfl⟩ : ∃ f, fuel = f + 1 := ⟨fuel - 1, by omega⟩
    simp [stripZeros, hc]
  case succ k hi =>
    obtain ⟨fuel, rfl⟩ : ∃ f, fuel = f + 1 := ⟨fuel - 1, by omega⟩
    have hm : c * 10 ^ (k + 1) = c * 10 ^ k * 10 := by rw [pow_succ, mul_assoc]
    rw [stripZeros, hm, if_pos (Nat.mul_mod_left _ _), Nat.mul_div_cancel _ (by decide),
      hi (by omega)]
    push_cast
    congr 1
    omega

def ofNumber (n : Number) : Float64 :=
  if h : n.coeff = 0 then
    { neg := n.neg, coeff := 0, exp := 0, canonical := by simp }
  else
    let s := stripZeros (n.coeff + 1) n.coeff (-n.scale)
    { neg := n.neg, coeff := s.1, exp := s.2
      canonical := by
        have hlt : n.coeff < 10 ^ (n.coeff + 1) :=
          lt_trans (Nat.lt_pow_self (by decide)) (Nat.pow_lt_pow_right (by decide) (by omega))
        have ⟨h₁, h₂⟩ := stripZeros_mod h hlt (-n.scale)
        rw [if_neg h₁]
        exact h₂ }

theorem ofNumber_eq {c k : Nat} (hc : c % 10 ≠ 0) (hn : n.coeff = c * 10 ^ k) :
    (ofNumber n).neg = n.neg ∧ (ofNumber n).coeff = c ∧ (ofNumber n).exp = -n.scale + k := by
  have hpos : 1 * 10 ^ k ≤ c * 10 ^ k := Nat.mul_le_mul_right _ (by omega)
  have hk : k < 10 ^ k := Nat.lt_pow_self (by decide)
  have hs := @stripZeros_mul_pow (n.coeff + 1) c k hc (by omega) (-n.scale)
  rw [← hn] at hs
  have h0 : n.coeff ≠ 0 := by omega
  simp [ofNumber, h0, hs]

theorem ofNumber_ofFloat {x : Float64} (h : ¬x.IsNegZero) : ofNumber (.ofFloat x) = x := by
  have hx := x.canonical
  by_cases h0 : x.coeff = 0
  case pos =>
    have hn : x.neg = false := by
      cases hn : x.neg
      case true => exact absurd ⟨hn, h0⟩ h
      case false => rfl
    rw [if_pos h0] at hx
    ext <;> simp [ofNumber, Number.ofFloat, h0, hx, hn]
  case neg =>
    rw [if_neg h0] at hx
    by_cases he : 0 ≤ x.exp
    case pos =>
      have ⟨h₁, h₂, h₃⟩ := ofNumber_eq (n := .ofFloat x) (k := x.exp.toNat) hx
        (by simp [Number.ofFloat, he])
      simp only [Number.ofFloat, he, if_true] at h₁ h₂ h₃ ⊢
      ext1
      · rw [h₁, bne_iff_ne.mpr h0, Bool.and_true]
      · exact h₂
      · omega
    case neg =>
      have ⟨h₁, h₂, h₃⟩ := ofNumber_eq (n := .ofFloat x) (k := 0) hx (by simp [Number.ofFloat, he])
      simp only [Number.ofFloat, he, if_false] at h₁ h₂ h₃ ⊢
      ext1
      · exact h₁
      · exact h₂
      · omega

end Float64

-- What a JSON text decodes to. A number is a float, or a literal where the decoder was told to keep
-- literals.
inductive Value where
  | null
  | bool (b : Bool)
  | float (x : Float64)
  | number (n : Number)
  | str (s : String)
  | arr (items : List Value)
  | obj (fields : List (String × Value))

abbrev Fields := List (String × Value)

namespace Value

@[elab_as_elim, induction_eliminator]
theorem induction {P : Value → Prop} (null : P null) (bool : ∀ b, P (bool b))
    (float : ∀ x, P (float x)) (number : ∀ n, P (number n)) (str : ∀ s, P (str s))
    (arr : ∀ items, (∀ v ∈ items, P v) → P (arr items))
    (obj : ∀ fields, (∀ k v, (k, v) ∈ fields → P v) → P (obj fields)) (v : Value) : P v := by
  apply @Value.rec P (fun items => ∀ v ∈ items, P v) (fun fields => ∀ k v, (k, v) ∈ fields → P v)
    (fun e => P e.2) null bool float number str arr obj
  case nil | nil => simp
  case cons => simp_all
  case cons =>
    rintro ⟨k, v⟩ fields hv hf k' v' hm
    cases hm
    case head => exact hv
    case tail hm => exact hf k' v' hm
  case mk => exact fun _ _ hv => hv

mutual

def subvalues : Value → List Value
  | arr items => arr items :: subvaluesItems items
  | obj fields => obj fields :: subvaluesFields fields
  | v => [v]

def subvaluesItems : List Value → List Value
  | [] => []
  | v :: vs => v.subvalues ++ subvaluesItems vs

def subvaluesFields : Fields → List Value
  | [] => []
  | (_, v) :: fs => v.subvalues ++ subvaluesFields fs

end

theorem mem_subvaluesItems {w : Value} {items : List Value} :
    w ∈ subvaluesItems items ↔ ∃ v ∈ items, w ∈ v.subvalues := by
  induction items <;> simp_all [subvaluesItems]

theorem mem_subvaluesFields {w : Value} {fields : Fields} :
    w ∈ subvaluesFields fields ↔ ∃ k v, (k, v) ∈ fields ∧ w ∈ v.subvalues := by
  induction fields
  case nil => simp [subvaluesFields]
  case cons e fs hi =>
    simp only [subvaluesFields, List.mem_append, hi, List.mem_cons]
    constructor
    · rintro (h | ⟨k, v, hm, h⟩)
      · exact ⟨e.1, e.2, .inl rfl, h⟩
      · exact ⟨k, v, .inr hm, h⟩
    · rintro ⟨k, v, rfl | hm, h⟩
      · exact .inl h
      · exact .inr ⟨k, v, hm, h⟩

theorem self_mem_subvalues (v : Value) : v ∈ v.subvalues := by
  cases v <;> simp [subvalues]

def WF (v : Value) : Prop :=
  ∀ fields, obj fields ∈ v.subvalues → (Assoc.keys fields).Nodup

def keysDistinct : Value → Bool
  | obj fields => (Assoc.keys fields).Nodup
  | _ => true

instance : DecidablePred WF := fun v =>
  decidable_of_iff (∀ w ∈ v.subvalues, w.keysDistinct) {
    mp := fun h fields hf => by simpa [keysDistinct] using h _ hf
    mpr := fun h w hw => by
      cases w
      case obj fields => simpa [keysDistinct] using h fields hw
      all_goals rfl }

theorem WF.field {fields : Fields} (h : (obj fields).WF) {k : String} {v : Value} (hm : (k, v) ∈ fields) : v.WF :=
  fun fs hf => h fs (by
    simp only [subvalues, List.mem_cons, mem_subvaluesFields]
    exact .inr ⟨k, v, hm, hf⟩)

theorem WF.keys {fields : Fields} (h : (obj fields).WF) : (Assoc.keys fields).Nodup :=
  h fields (self_mem_subvalues _)

mutual

-- The value after a trip through an encoder, a `jsonb` column and a decoder that keeps literals:
-- numbers become literals and the keys of an object come back sorted.
def stored : Value → Value
  | float x => number (.ofFloat x)
  | arr items => arr (storedItems items)
  | obj fields => obj (Assoc.sort (storedFields fields))
  | v => v

def storedItems : List Value → List Value
  | [] => []
  | v :: vs => v.stored :: storedItems vs

def storedFields : Fields → Fields
  | [] => []
  | (k, v) :: fs => (k, v.stored) :: storedFields fs

end

theorem storedItems_eq (items : List Value) : storedItems items = items.map stored := by
  induction items <;> simp_all [storedItems]

theorem storedFields_eq (fields : Fields) : storedFields fields = Assoc.mapVals (fun _ v => v.stored) fields := by
  induction fields
  case nil => rfl
  case cons e fs hi => simp [storedFields, hi, Assoc.mapVals]

end Value
end Json
