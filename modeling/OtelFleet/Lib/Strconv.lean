import OtelFleet.Lib.Json

open Json (Float64 Number)

-- Conversions between values and their text, as Go's package of the same name writes them.
namespace Strconv

-- Decided in one pass over the text, and not by going through all characters there are.
scoped instance (priority := 2000) decidableChars (l : List Char) (p : Char → Prop) [DecidablePred p] : Decidable (∀ c ∈ l, p c) :=
  List.decidableBAll p l

def itoa (n : Nat) : String :=
  n.repr

theorem itoa_injective : Function.Injective itoa := by
  intro m n h
  have ht : Nat.toDigits 10 m = Nat.toDigits 10 n := by
    simpa [itoa, Nat.repr_eq_ofList_toDigits, String.ofList_inj] using h
  rw [← Nat.ofDigitChars_ten_toDigits (n := m), ht, Nat.ofDigitChars_ten_toDigits]

theorem isDigit_of_mem_itoa (h : c ∈ (itoa n).toList) : c.isDigit := by
  rw [itoa, Nat.toList_repr] at h
  exact Nat.isDigit_of_mem_toDigits (by decide) (by decide) h

def formatInt (i : Int) : String :=
  (if i < 0 then "-" else "") ++ itoa i.natAbs

def atoi (s : String) : Option Int64 :=
  let (neg, digits) :=
    match s.toList with
    | '-' :: cs => (true, cs)
    | '+' :: cs => (false, cs)
    | cs => (false, cs)
  if digits ≠ [] ∧ ∀ c ∈ digits, c.isDigit then
    let n : Int := Nat.ofDigitChars 10 digits 0
    let i := if neg then -n else n
    if -2 ^ 63 ≤ i ∧ i < 2 ^ 63 then some (.ofInt i) else none
  else none

def parseBool (s : String) : Option Bool :=
  if ["1", "t", "T", "TRUE", "true", "True"].contains s then some true
  else if ["0", "f", "F", "FALSE", "false", "False"].contains s then some false
  else none

theorem append_sep_inj (h : c ∉ a.toList) (h' : c ∉ a'.toList)
    (he : a ++ String.singleton c ++ b = a' ++ String.singleton c ++ b') : a = a' ∧ b = b' := by
  have hl : a.toList ++ c :: b.toList = a'.toList ++ c :: b'.toList := by
    simpa using congrArg String.toList he
  suffices ∀ l m r s : List Char, c ∉ l → c ∉ m → l ++ c :: r = m ++ c :: s → l = m ∧ r = s by
    have ⟨h₁, h₂⟩ := this _ _ _ _ h h' hl
    exact ⟨String.toList_inj.mp h₁, String.toList_inj.mp h₂⟩
  intro l
  induction l
  case nil =>
    intro m r s _ hm he
    cases m
    case nil => simpa using he
    case cons d ds => simp_all
  case cons d ds hi =>
    intro m r s hl hm he
    cases m
    case nil => simp_all
    case cons d' ds' =>
      simp only [List.cons_append, List.cons.injEq, List.mem_cons, not_or] at he hl hm
      have ⟨h₁, h₂⟩ := hi ds' r s hl.right hm.right he.right
      exact ⟨by rw [he.left, h₁], h₂⟩

section FormatFloat

def exponent (x : Float64) : Int :=
  (itoa x.coeff).length + x.exp - 1

def formatE (x : Float64) : String :=
  let exp := exponent x
  let digits := (itoa x.coeff).toList
  String.ofList (digits.take 1) ++
    (if digits.length ≤ 1 then "" else "." ++ String.ofList (digits.drop 1)) ++
    (if exp < 0 then "e-" else "e+") ++ (if exp.natAbs < 10 then "0" else "") ++ itoa exp.natAbs

def formatF (x : Float64) : String :=
  { Number.ofFloat x with neg := false }.text

-- The 'g' format with the smallest number of digits that reads back as the same float: scientific
-- when the exponent is below -4 or, six being the precision of this decision, at least 6.
def formatG (x : Float64) : String :=
  (if x.neg then "-" else "") ++
    if exponent x < -4 ∨ 6 ≤ exponent x then formatE x else formatF x

theorem six_le_exponent_iff (h : 0 ≤ x.exp) : 6 ≤ exponent x ↔ 10 ^ 6 ≤ x.coeff * 10 ^ x.exp.toNat := by
  obtain ⟨e, he⟩ := Int.eq_ofNat_of_zero_le h
  have hl : (itoa x.coeff).length = (Nat.toDigits 10 x.coeff).length := by
    rw [← String.length_toList, itoa, Nat.toList_repr]
  have hc := x.canonical
  simp only [exponent, hl, he, Int.toNat_natCast]
  have hpos : 0 < (Nat.toDigits 10 x.coeff).length := Nat.length_toDigits_pos
  by_cases h6 : e < 6
  case pos =>
    have hd := Nat.length_toDigits_le_iff (b := 10) (n := x.coeff) (k := 6 - e) (by decide) (by omega)
    have hp : 10 ^ 6 = 10 ^ (6 - e) * 10 ^ e := by
      rw [← pow_add, Nat.sub_add_cancel (by omega)]
    rw [hp, Nat.mul_le_mul_right_iff (Nat.pow_pos (by decide))]
    omega
  case neg =>
    -- A zero has exponent zero, so here the coefficient is positive.
    have h0 : x.coeff ≠ 0 := by
      intro h0
      rw [if_pos h0, he] at hc
      omega
    have hp : 10 ^ 6 ≤ 10 ^ e := Nat.pow_le_pow_right (by decide) (by omega)
    have hm : 1 * 10 ^ e ≤ x.coeff * 10 ^ e := Nat.mul_le_mul_right _ (Nat.pos_of_ne_zero h0)
    omega

theorem e_mem_formatE (x : Float64) : 'e' ∈ (formatE x).toList := by
  unfold formatE
  simp only [String.toList_append, List.mem_append]
  refine .inl (.inl (.inr ?_))
  split <;> decide

theorem e_not_mem_itoa (n : Nat) : 'e' ∉ (itoa n).toList :=
  fun h => absurd (isDigit_of_mem_itoa h) (by decide)

theorem e_not_mem_formatInt (i : Int) : 'e' ∉ (formatInt i).toList := by
  simp only [formatInt, String.toList_append, List.mem_append, not_or]
  refine ⟨?_, e_not_mem_itoa _⟩
  split <;> decide

-- An integer prints the same as a float and as an integer exactly when it is not written in
-- scientific notation and is not the negative zero.
theorem formatG_eq_formatInt_iff (h : 0 ≤ x.exp) :
    formatG x = formatInt (Number.ofFloat x).toInt ↔
      ¬x.IsNegZero ∧ x.coeff * 10 ^ x.exp.toNat < 10 ^ 6 := by
  have hx := six_le_exponent_iff h
  have hlow : ¬exponent x < -4 := by
    have : 0 < (itoa x.coeff).length := by
      rw [← String.length_toList, itoa, Nat.toList_repr]
      exact Nat.length_toDigits_pos
    simp only [exponent]
    omega
  by_cases h6 : 6 ≤ exponent x
  case pos =>
    have hne : formatG x ≠ formatInt (Number.ofFloat x).toInt := by
      intro hc
      apply e_not_mem_formatInt (Number.ofFloat x).toInt
      rw [← hc, formatG, if_pos (Or.inr h6), String.toList_append]
      exact List.mem_append_right _ (e_mem_formatE x)
    simp only [hne, false_iff, not_and, not_lt]
    exact fun _ => hx.mp h6
  case neg =>
    have hlt : x.coeff * 10 ^ x.exp.toNat < 10 ^ 6 := Nat.lt_of_not_le fun hc => h6 (hx.mpr hc)
    have hzero : x.coeff * 10 ^ x.exp.toNat = 0 ↔ x.coeff = 0 := by
      rw [Nat.mul_eq_zero, or_iff_left (Nat.pow_pos (by decide)).ne']
    simp only [hlt, and_true, formatG, hlow, h6, or_self, if_false, formatF, Number.ofFloat, h,
      if_true, Number.text, Number.toInt, formatInt, Float64.IsNegZero, Bool.false_eq_true,
      String.empty_append]
    generalize x.coeff * 10 ^ x.exp.toNat = d at hzero
    cases hn : x.neg
    case false =>
      have hd : ¬(d : Int) < 0 := by omega
      simp [itoa, hd]
    case true =>
      by_cases h0 : x.coeff = 0
      case pos =>
        simp only [h0, hzero.mpr h0]
        decide
      case neg =>
        have hd : 0 < d := Nat.pos_of_ne_zero (mt hzero.mp h0)
        simp [h0, itoa, hd]

end FormatFloat

section Quote

def hex : Nat → Nat → List Char
  | 0, _ => []
  | w + 1, n => hex w (n / 16) ++ [Nat.digitChar (n % 16)]

def shortEscapes : List (Char × Char) :=
  [('\x07', 'a'), ('\x08', 'b'), ('\x0c', 'f'), ('\n', 'n'), ('\r', 'r'), ('\t', 't'), ('\x0b', 'v')]

def quoteRune (isPrint : Char → Bool) (c : Char) : List Char :=
  if c = '"' ∨ c = '\\' then ['\\', c]
  else if isPrint c then [c]
  else match shortEscapes.lookup c with
    | some e => ['\\', e]
    | none =>
      if c.toNat < 0x20 ∨ c.toNat = 0x7f then '\\' :: 'x' :: hex 2 c.toNat
      else if c.toNat < 0x10000 then '\\' :: 'u' :: hex 4 c.toNat
      else '\\' :: 'U' :: hex 8 c.toNat

def quote (isPrint : Char → Bool) (s : String) : String :=
  "\"" ++ String.ofList (s.toList.flatMap (quoteRune isPrint)) ++ "\""

def hexVal (c : Char) : Nat :=
  if c.isDigit then c.toNat - '0'.toNat else c.toNat - 'a'.toNat + 10

def ofHex (l : List Char) : Nat :=
  l.foldl (fun n c => n * 16 + hexVal c) 0

def unescape (e : Char) (cs : List Char) : Char × List Char :=
  match (shortEscapes.map Prod.swap).lookup e with
  | some c => (c, cs)
  | none =>
    if e = 'x' then (.ofNat (ofHex (cs.take 2)), cs.drop 2)
    else if e = 'u' then (.ofNat (ofHex (cs.take 4)), cs.drop 4)
    else if e = 'U' then (.ofNat (ofHex (cs.take 8)), cs.drop 8)
    else (e, cs)

def unquoteRune : List Char → Option (Char × List Char)
  | [] => none
  | [c] => some (c, [])
  | c :: e :: cs => if c = '\\' then some (unescape e cs) else some (c, e :: cs)

-- The runes up to the closing quote, and what stands after it.
def unquoteRunes : Nat → List Char → Option (List Char × List Char)
  | 0, _ => none
  | fuel + 1, cs =>
    if cs.head? = some '"' then some ([], cs.tail)
    else (unquoteRune cs).bind fun r => (unquoteRunes fuel r.2).map fun l => (r.1 :: l.1, l.2)

def unquote? : List Char → Option (String × List Char)
  | '"' :: cs => (unquoteRunes cs.length cs).map fun l => (.ofList l.1, l.2)
  | _ => none

@[simp]
theorem length_hex (w n : Nat) : (hex w n).length = w := by
  induction w generalizing n <;> simp_all [hex]

theorem ofHex_hex (h : n < 16 ^ w) : ofHex (hex w n) = n := by
  induction w generalizing n
  case zero => simp_all [hex, ofHex]
  case succ w hi =>
    have hd : ∀ d < 16, hexVal (Nat.digitChar d) = d := by decide
    have hq : n / 16 < 16 ^ w := Nat.div_lt_of_lt_mul (by rwa [pow_succ'] at h)
    have hc := hi hq
    simp only [ofHex] at hc
    simp only [hex, ofHex, List.foldl_append, List.foldl_cons, List.foldl_nil, hc,
      hd _ (Nat.mod_lt _ (by decide))]
    omega

theorem take_hex (w n : Nat) (cs : List Char) : (hex w n ++ cs).take w = hex w n := by
  simp

theorem drop_hex (w n : Nat) (cs : List Char) : (hex w n ++ cs).drop w = cs := by
  simp

theorem unquoteRune_cons (h : c ≠ '\\') (cs : List Char) : unquoteRune (c :: cs) = some (c, cs) := by
  cases cs <;> simp [unquoteRune, h]

theorem unquoteRune_escape (e : Char) (cs : List Char) : unquoteRune ('\\' :: e :: cs) = some (unescape e cs) := by
  simp [unquoteRune]

theorem unescape_shortEscape (h : shortEscapes.lookup c = some e) (cs : List Char) : unescape e cs = (c, cs) := by
  have hm : ∀ p ∈ shortEscapes, (shortEscapes.map Prod.swap).lookup p.2 = some p.1 := by decide
  have := hm _ (Assoc.mem_of_lookup h)
  simp only [unescape, this]

theorem unescape_hex (h : n < 16 ^ w) (cs : List Char) :
    Char.ofNat (ofHex ((hex w n ++ cs).take w)) = Char.ofNat n ∧ (hex w n ++ cs).drop w = cs := by
  rw [take_hex, drop_hex, ofHex_hex h]
  exact ⟨rfl, rfl⟩

theorem unquoteRune_quoteRune (isPrint : Char → Bool) (c : Char) (cs : List Char) :
    unquoteRune (quoteRune isPrint c ++ cs) = some (c, cs) := by
  have hmax : c.toNat < 16 ^ 8 := lt_of_lt_of_le c.val.toNat_lt (by decide)
  unfold quoteRune
  by_cases hq : c = '"' ∨ c = '\\'
  case pos =>
    obtain rfl | rfl := hq <;> rfl
  case neg =>
    rw [if_neg hq]
    split
    case isTrue => exact unquoteRune_cons (fun hc => hq (.inr hc)) cs
    case isFalse =>
      split
      case _ e he => simp [unquoteRune_escape, unescape_shortEscape he]
      case _ =>
        split_ifs with h₂ h₄ <;> simp only [List.cons_append, unquoteRune_escape, Option.some.injEq]
        · have ⟨ho, hd⟩ := unescape_hex (show c.toNat < 16 ^ 2 by omega) cs
          show (Char.ofNat _, _) = _
          rw [ho, hd, Char.ofNat_toNat]
        · have ⟨ho, hd⟩ := unescape_hex (show c.toNat < 16 ^ 4 by omega) cs
          show (Char.ofNat _, _) = _
          rw [ho, hd, Char.ofNat_toNat]
        · have ⟨ho, hd⟩ := unescape_hex hmax cs
          show (Char.ofNat _, _) = _
          rw [ho, hd, Char.ofNat_toNat]

theorem quoteRune_cons (isPrint : Char → Bool) (c : Char) : ∃ d ds, d ≠ '"' ∧ quoteRune isPrint c = d :: ds := by
  unfold quoteRune
  split
  case isTrue => exact ⟨_, _, by decide, rfl⟩
  case isFalse hq =>
    split
    case isTrue => exact ⟨_, _, fun hc => hq (.inl hc), rfl⟩
    case isFalse =>
      split
      case _ => exact ⟨_, _, by decide, rfl⟩
      case _ => split_ifs <;> exact ⟨_, _, by decide, rfl⟩

theorem unquoteRunes_append (isPrint : Char → Bool) (l cs : List Char) (h : l.length < fuel) :
    unquoteRunes fuel (l.flatMap (quoteRune isPrint) ++ '"' :: cs) = some (l, cs) := by
  induction l generalizing fuel
  case nil =>
    obtain _ | fuel := fuel
    · cases h
    · rfl
  case cons c l hi =>
    obtain _ | fuel := fuel
    · cases h
    · have ⟨d, ds, hd, he⟩ := quoteRune_cons isPrint c
      have hr := unquoteRune_quoteRune isPrint c (l.flatMap (quoteRune isPrint) ++ '"' :: cs)
      rw [List.flatMap_cons, List.append_assoc]
      rw [he, List.cons_append] at hr ⊢
      rw [unquoteRunes, if_neg (by simpa using hd), hr, Option.bind_some, hi (Nat.lt_of_succ_lt_succ h),
        Option.map_some]

theorem length_le_flatMap_quoteRune (isPrint : Char → Bool) (l : List Char) :
    l.length ≤ (l.flatMap (quoteRune isPrint)).length := by
  induction l
  case nil => exact Nat.le_refl _
  case cons c l hi =>
    have ⟨d, ds, _, he⟩ := quoteRune_cons isPrint c
    simp only [List.flatMap_cons, List.length_append, he, List.length_cons]
    omega

-- A quoted text is read back, whatever stands after it.
theorem unquote?_quote (isPrint : Char → Bool) (s : String) (cs : List Char) :
    unquote? ((quote isPrint s).toList ++ cs) = some (s, cs) := by
  have hl : (quote isPrint s).toList ++ cs =
      '"' :: (s.toList.flatMap (quoteRune isPrint) ++ '"' :: cs) := by
    simp [quote]
  have hlen := length_le_flatMap_quoteRune isPrint s.toList
  rw [hl, unquote?, unquoteRunes_append isPrint _ _ (by simp only [List.length_append, List.length_cons]; omega),
    Option.map_some, String.ofList_toList]

theorem quote_injective (isPrint : Char → Bool) : Function.Injective (quote isPrint) := by
  intro s t h
  have hs := unquote?_quote isPrint s []
  rw [h, unquote?_quote] at hs
  exact (Prod.mk.inj (Option.some.inj hs)).left.symm

end Quote

end Strconv
