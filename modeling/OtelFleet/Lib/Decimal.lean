import OtelFleet.Lib.Strconv
import Mathlib.Algebra.Field.Rat
import Mathlib.Tactic.FieldSimp
import Mathlib.Tactic.Ring

-- The numbers that literals and floats denote.
namespace Json

def sign (neg : Bool) : ℚ :=
  if neg then -1 else 1

def Number.value (n : Number) : ℚ :=
  sign n.neg * (n.coeff * 10 ^ (-(n.scale : ℤ)))

def Float64.value (x : Float64) : ℚ :=
  sign x.neg * (x.coeff * 10 ^ x.exp)

theorem Number.cast_toInt (n : Number) : (n.toInt : ℚ) = sign n.neg * n.coeff := by
  cases hn : n.neg <;> simp [toInt, sign, hn]

theorem Number.value_of_int64? {n : Number} (h : n.int64? = some i) : n.value = i := by
  simp only [int64?] at h
  split_ifs at h with hi
  obtain rfl : n.toInt = i := by simpa using h
  simp [value, cast_toInt, hi.left]

end Json

open Json (Float64 sign)

namespace Strconv

theorem toList_itoa (n : Nat) : (itoa n).toList = Nat.toDigits 10 n := by
  rw [itoa, Nat.toList_repr]

theorem length_itoa (n : Nat) : (itoa n).length = (Nat.toDigits 10 n).length := by
  rw [← String.length_toList, toList_itoa]

section Parse

def cut (c : Char) : List Char → List Char × Option (List Char)
  | [] => ([], none)
  | d :: ds => if d = c then ([], some ds) else (d :: (cut c ds).1, (cut c ds).2)

def AreDigits (l : List Char) : Prop :=
  l ≠ [] ∧ ∀ c ∈ l, c.isDigit

instance : DecidablePred AreDigits :=
  fun _ => inferInstanceAs <| Decidable <| _ ∧ _

def parseExponent : Option (List Char) → Option Int
  | none => some 0
  | some (c :: ds) =>
    if AreDigits ds ∧ c = '-' then some (-(Nat.ofDigitChars 10 ds 0 : Int))
    else if AreDigits ds ∧ c = '+' then some (Nat.ofDigitChars 10 ds 0)
    else none
  | some [] => none

def parseUnsigned (l : List Char) : Option ℚ :=
  let (mantissa, exponent) := cut 'e' l
  let (whole, fraction) := cut '.' mantissa
  let digits := whole ++ fraction.getD []
  if AreDigits digits then
    (parseExponent exponent).map fun e : Int =>
      (Nat.ofDigitChars 10 digits 0 : ℚ) * 10 ^ (e - (fraction.getD []).length)
  else none

def parseDecimal (s : String) : Option ℚ :=
  if s.toList.head? = some '-' then (parseUnsigned s.toList.tail).map (-1 * ·)
  else parseUnsigned s.toList

theorem cut_append (h : c ∉ l) (r : Option (List Char)) : cut c (l ++ r.elim [] (c :: ·)) = (l, r) := by
  induction l
  case nil => cases r <;> simp [cut]
  case cons d ds hi =>
    simp only [List.mem_cons, not_or] at h
    simp [cut, Ne.symm h.left, hi h.right]

theorem areDigits_toDigits (n : Nat) : AreDigits (Nat.toDigits 10 n) := by
  refine ⟨List.ne_nil_of_length_pos Nat.length_toDigits_pos, fun c hc => ?_⟩
  exact Nat.isDigit_of_mem_toDigits (by decide) (by decide) hc

theorem areDigits_zeros_append (h : AreDigits l) (k : Nat) : AreDigits (List.replicate k '0' ++ l) := by
  refine ⟨by simp [h.left], fun c hc => ?_⟩
  obtain hc | hc := List.mem_append.mp hc
  · rw [List.eq_of_mem_replicate hc]
    decide
  · exact h.right c hc

theorem AreDigits.append (hl : AreDigits l) (hm : AreDigits m) : AreDigits (l ++ m) :=
  ⟨by simp [hl.left], fun c hc => (List.mem_append.mp hc).elim (hl.right c) (hm.right c)⟩

theorem ofDigitChars_zeros_append (l : List Char) (k : Nat) :
    Nat.ofDigitChars 10 (List.replicate k '0' ++ l) 0 = Nat.ofDigitChars 10 l 0 := by
  induction k
  case zero => rfl
  case succ k hi => simpa [List.replicate_succ, Nat.ofDigitChars_cons] using hi

theorem parseUnsigned_append {whole : List Char} {fraction exponent : Option (List Char)} {e : Int}
    (hd : AreDigits (whole ++ fraction.getD [])) (he : parseExponent exponent = some e) :
    parseUnsigned (whole ++ fraction.elim [] ('.' :: ·) ++ exponent.elim [] ('e' :: ·)) =
      some ((Nat.ofDigitChars 10 (whole ++ fraction.getD []) 0 : ℚ) *
        10 ^ (e - (fraction.getD []).length)) := by
  have hw : ∀ c ∈ whole, c.isDigit := fun c hc => hd.right c (List.mem_append_left _ hc)
  have hf : ∀ c ∈ fraction.getD [], c.isDigit := fun c hc => hd.right c (List.mem_append_right _ hc)
  have hpoint : '.' ∉ whole := fun hc => absurd (hw _ hc) (by decide)
  have hmark : 'e' ∉ whole ++ fraction.elim [] ('.' :: ·) := by
    simp only [List.mem_append, not_or]
    refine ⟨fun hc => absurd (hw _ hc) (by decide), ?_⟩
    cases fraction
    case none => simp
    case some f =>
      simp only [Option.elim_some, List.mem_cons, not_or]
      exact ⟨by decide, fun hc => absurd (hf _ hc) (by decide)⟩
  simp only [parseUnsigned, cut_append hmark, cut_append hpoint, if_pos hd, he, Option.map_some]

theorem parseUnsigned_minus (l : List Char) : parseUnsigned ('-' :: l) = none := by
  have hd : ∀ l' : List Char, ¬AreDigits ('-' :: l') :=
    fun l' h => absurd (h.right '-' List.mem_cons_self) (by decide)
  simp [parseUnsigned, cut, hd]

theorem parseDecimal_sign (h : parseUnsigned s.toList = some q) (neg : Bool) :
    parseDecimal ((if neg then "-" else "") ++ s) = some (sign neg * q) := by
  cases neg
  case true => simp [parseDecimal, sign, h]
  case false =>
    have hne : s.toList.head? ≠ some '-' := by
      intro hc
      obtain ⟨l, hl⟩ : ∃ l, s.toList = '-' :: l := by
        cases hs : s.toList <;> simp_all
      rw [hl, parseUnsigned_minus] at h
      cases h
    simp [parseDecimal, sign, h, hne]

end Parse

section Format

theorem parseUnsigned_toDigits (n : Nat) : parseUnsigned (Nat.toDigits 10 n) = some (n : ℚ) := by
  have h := @parseUnsigned_append (Nat.toDigits 10 n) none none 0
    (by simpa using areDigits_toDigits n) rfl
  simpa [Nat.ofDigitChars_ten_toDigits] using h

theorem parseDecimal_formatInt (i : Int) : parseDecimal (formatInt i) = some (i : ℚ) := by
  have h := parseDecimal_sign (s := itoa i.natAbs) (q := (i.natAbs : ℚ))
    (by rw [toList_itoa, parseUnsigned_toDigits]) (decide (i < 0))
  have hv : sign (decide (i < 0)) * (i.natAbs : ℚ) = i := by
    cases i
    case ofNat n => simp [sign]
    case negSucc n => simp [sign, Int.negSucc_lt_zero, Int.natAbs_negSucc]
  rw [hv] at h
  simpa [formatInt] using h

def fractionDigits (n k : Nat) : List Char :=
  let frac := Nat.toDigits 10 (n % 10 ^ k)
  List.replicate (k - frac.length) '0' ++ frac

theorem areDigits_fractionDigits (n k : Nat) : AreDigits (fractionDigits n k) :=
  areDigits_zeros_append (areDigits_toDigits _) _

theorem length_fractionDigits (hk : 0 < k) : (fractionDigits n k).length = k := by
  have hf : (Nat.toDigits 10 (n % 10 ^ k)).length ≤ k :=
    (Nat.length_toDigits_le_iff (by decide) hk).mpr (Nat.mod_lt _ (Nat.pow_pos (by decide)))
  simp only [fractionDigits, List.length_append, List.length_replicate]
  omega

theorem ofDigitChars_fractionDigits (hk : 0 < k) :
    Nat.ofDigitChars 10 (Nat.toDigits 10 (n / 10 ^ k) ++ fractionDigits n k) 0 = n := by
  rw [Nat.ofDigitChars_append, Nat.ofDigitChars_ten_toDigits, Nat.ofDigitChars_eq_ofDigitChars_zero,
    length_fractionDigits hk, fractionDigits, ofDigitChars_zeros_append, Nat.ofDigitChars_ten_toDigits,
    Nat.div_add_mod]

theorem parseUnsigned_formatF (x : Float64) : parseUnsigned (formatF x).toList = some ((x.coeff : ℚ) * 10 ^ x.exp) := by
  by_cases he : 0 ≤ x.exp
  case pos =>
    have hp : ((10 : ℚ) ^ x.exp.toNat) = 10 ^ x.exp := by
      rw [← zpow_natCast, Int.toNat_of_nonneg he]
    simp [formatF, Json.Number.ofFloat, he, Json.Number.text, parseUnsigned_toDigits, hp]
  case neg =>
    have hk : 0 < (-x.exp).toNat := by omega
    have h := @parseUnsigned_append (Nat.toDigits 10 (x.coeff / 10 ^ (-x.exp).toNat))
      (some (fractionDigits x.coeff (-x.exp).toNat)) none 0
      ((areDigits_toDigits _).append (areDigits_fractionDigits _ _)) rfl
    have he' : (0 : Int) - ((-x.exp).toNat : Int) = x.exp := by omega
    simp only [Option.getD_some, length_fractionDigits hk, ofDigitChars_fractionDigits hk, he'] at h
    have hl : (x.coeff % 10 ^ (-x.exp).toNat).repr.length = _ := length_itoa _
    simpa [formatF, Json.Number.ofFloat, he, Json.Number.text, fractionDigits, hl] using h

theorem parseExponent_format (e : Int) :
    parseExponent (some ((if e < 0 then '-' else '+') ::
      ((if e.natAbs < 10 then ['0'] else []) ++ Nat.toDigits 10 e.natAbs))) = some e := by
  have hz : (if e.natAbs < 10 then ['0'] else []) = List.replicate (if e.natAbs < 10 then 1 else 0) '0' := by
    split <;> rfl
  have hd := areDigits_zeros_append (areDigits_toDigits e.natAbs) (if e.natAbs < 10 then 1 else 0)
  rw [hz, parseExponent]
  simp only [hd, true_and, ofDigitChars_zeros_append, Nat.ofDigitChars_ten_toDigits]
  by_cases he : e < 0
  case pos =>
    simp only [he, if_true, Option.some.injEq]
    omega
  case neg =>
    have hne : ('+' : Char) ≠ '-' := by decide
    simp only [he, if_false, hne, if_true, Option.some.injEq]
    omega

theorem parseUnsigned_formatE (x : Float64) : parseUnsigned (formatE x).toList = some ((x.coeff : ℚ) * 10 ^ x.exp) := by
  let ds := Nat.toDigits 10 x.coeff
  let fraction := if ds.length ≤ 1 then none else some (ds.drop 1)
  have hpos : 0 < ds.length := Nat.length_toDigits_pos
  have hf : fraction.getD [] = ds.drop 1 := by
    by_cases hl : ds.length ≤ 1
    · simp [fraction, hl, List.drop_eq_nil_of_le hl]
    · simp [fraction, hl]
  have hds : ds.take 1 ++ fraction.getD [] = ds := by rw [hf, List.take_append_drop]
  have htext : (formatE x).toList = ds.take 1 ++ fraction.elim [] ('.' :: ·) ++
      (some ((if exponent x < 0 then '-' else '+') ::
        ((if (exponent x).natAbs < 10 then ['0'] else []) ++
          Nat.toDigits 10 (exponent x).natAbs))).elim [] ('e' :: ·) := by
    simp only [formatE, String.toList_append, String.toList_ofList, toList_itoa, Option.elim_some]
    by_cases hl : ds.length ≤ 1 <;> by_cases he : exponent x < 0 <;>
      by_cases hs : (exponent x).natAbs < 10 <;> simp [ds, fraction, hl, he, hs]
  have hlen : exponent x - ((fraction.getD []).length : Int) = x.exp := by
    have hl : (itoa x.coeff).length = ds.length := length_itoa _
    rw [hf, List.length_drop, exponent, hl]
    omega
  rw [htext, parseUnsigned_append (hds.symm ▸ areDigits_toDigits _) (parseExponent_format _), hds, hlen,
    Nat.ofDigitChars_ten_toDigits]

theorem parseDecimal_formatG (x : Float64) : parseDecimal (formatG x) = some x.value := by
  refine parseDecimal_sign ?_ x.neg
  split
  · exact parseUnsigned_formatE x
  · exact parseUnsigned_formatF x

end Format

end Strconv
