import Mathlib.Data.List.Basic
import Mathlib.Tactic.Common

-- The standard base64 encoding with padding.
namespace Base64

abbrev Bytes := List UInt8

def char (n : Nat) : Char :=
  if n < 26 then .ofNat ('A'.toNat + n)
  else if n < 52 then .ofNat ('a'.toNat + (n - 26))
  else if n < 62 then .ofNat ('0'.toNat + (n - 52))
  else if n = 62 then '+'
  else '/'

def sextet (c : Char) : Option Nat :=
  if 'A' ≤ c ∧ c ≤ 'Z' then some (c.toNat - 'A'.toNat)
  else if 'a' ≤ c ∧ c ≤ 'z' then some (c.toNat - 'a'.toNat + 26)
  else if '0' ≤ c ∧ c ≤ '9' then some (c.toNat - '0'.toNat + 52)
  else if c = '+' then some 62
  else if c = '/' then some 63
  else none

def encodeChars : Bytes → List Char
  | [] => []
  | [a] => [char (a.toNat / 4), char (a.toNat % 4 * 16), '=', '=']
  | [a, b] =>
    [char (a.toNat / 4), char (a.toNat % 4 * 16 + b.toNat / 16), char (b.toNat % 16 * 4), '=']
  | a :: b :: c :: rest =>
    char (a.toNat / 4) :: char (a.toNat % 4 * 16 + b.toNat / 16) ::
      char (b.toNat % 16 * 4 + c.toNat / 64) :: char (c.toNat % 64) :: encodeChars rest

def decodeChars : List Char → Option Bytes
  | [] => some []
  | w :: x :: y :: z :: rest => do
    let w ← sextet w
    let x ← sextet x
    if y = '=' then
      if z = '=' ∧ rest = [] then some [.ofNat (w * 4 + x / 16)] else none
    else
      let y ← sextet y
      if z = '=' then
        if rest = [] then some [.ofNat (w * 4 + x / 16), .ofNat (x % 16 * 16 + y / 4)] else none
      else
        let z ← sextet z
        let tail ← decodeChars rest
        some (.ofNat (w * 4 + x / 16) :: .ofNat (x % 16 * 16 + y / 4) :: .ofNat (y % 4 * 64 + z) :: tail)
  | _ => none

def encodeToString (bs : Bytes) : String :=
  String.ofList (encodeChars bs)

def urlChar (c : Char) : Char :=
  if c = '+' then '-' else if c = '/' then '_' else c

def rawURLEncodeToString (bs : Bytes) : String :=
  String.ofList (((encodeChars bs).filter (· ≠ '=')).map urlChar)

def decodeString (s : String) : Option Bytes :=
  decodeChars (s.toList.filter fun c => c ≠ '\r' ∧ c ≠ '\n')

theorem sextet_char : ∀ n < 64, sextet (char n) = some n := by
  decide

theorem char_ne : ∀ n < 64, char n ≠ '=' ∧ char n ≠ '\r' ∧ char n ≠ '\n' := by
  decide

theorem ofNat_eq (h : n = a.toNat) : UInt8.ofNat n = a := by
  rw [h, UInt8.ofNat_toNat]

theorem decodeChars_encodeChars (bs : Bytes) : decodeChars (encodeChars bs) = some bs := by
  induction bs using encodeChars.induct
  case case1 => rfl
  case case2 a =>
    have ha := a.toNat_lt
    simp only [encodeChars, decodeChars, sextet_char (a.toNat / 4) (by omega),
      sextet_char (a.toNat % 4 * 16) (by omega), Option.bind_eq_bind, Option.bind_some]
    simp only [if_true, Option.some.injEq, List.cons.injEq, and_true]
    exact ofNat_eq (by omega)
  case case3 a b =>
    have ha := a.toNat_lt
    have hb := b.toNat_lt
    simp only [encodeChars, decodeChars, sextet_char (a.toNat / 4) (by omega),
      sextet_char (a.toNat % 4 * 16 + b.toNat / 16) (by omega),
      sextet_char (b.toNat % 16 * 4) (by omega), (char_ne (b.toNat % 16 * 4) (by omega)).left,
      Option.bind_eq_bind, Option.bind_some, if_false, if_true, Option.some.injEq, List.cons.injEq,
      and_true]
    exact ⟨ofNat_eq (by omega), ofNat_eq (by omega)⟩
  case case4 a b c rest hi =>
    have ha := a.toNat_lt
    have hb := b.toNat_lt
    have hc := c.toNat_lt
    simp only [encodeChars, decodeChars, sextet_char (a.toNat / 4) (by omega),
      sextet_char (a.toNat % 4 * 16 + b.toNat / 16) (by omega),
      sextet_char (b.toNat % 16 * 4 + c.toNat / 64) (by omega),
      sextet_char (c.toNat % 64) (by omega),
      (char_ne (b.toNat % 16 * 4 + c.toNat / 64) (by omega)).left,
      (char_ne (c.toNat % 64) (by omega)).left, hi,
      Option.bind_eq_bind, Option.bind_some, if_false, Option.some.injEq, List.cons.injEq, and_true]
    exact ⟨ofNat_eq (by omega), ofNat_eq (by omega), ofNat_eq (by omega)⟩

theorem not_break_of_mem_encodeChars (bs : Bytes) : ∀ c ∈ encodeChars bs, c ≠ '\r' ∧ c ≠ '\n' := by
  induction bs using encodeChars.induct
  case case1 => simp [encodeChars]
  case case2 a =>
    have ha := a.toNat_lt
    simp only [encodeChars, List.mem_cons, forall_eq_or_imp]
    exact ⟨(char_ne _ (by omega)).right, (char_ne _ (by omega)).right, by decide, by decide, by simp⟩
  case case3 a b =>
    have ha := a.toNat_lt
    have hb := b.toNat_lt
    simp only [encodeChars, List.mem_cons, forall_eq_or_imp]
    exact ⟨(char_ne _ (by omega)).right, (char_ne _ (by omega)).right, (char_ne _ (by omega)).right,
      by decide, by simp⟩
  case case4 a b c rest hi =>
    have ha := a.toNat_lt
    have hb := b.toNat_lt
    have hc := c.toNat_lt
    simp only [encodeChars, List.mem_cons, forall_eq_or_imp]
    exact ⟨(char_ne _ (by omega)).right, (char_ne _ (by omega)).right, (char_ne _ (by omega)).right,
      (char_ne _ (by omega)).right, hi⟩

@[simp]
theorem decodeString_encodeToString (bs : Bytes) : decodeString (encodeToString bs) = some bs := by
  have hf : (encodeChars bs).filter (fun c => c ≠ '\r' ∧ c ≠ '\n') = encodeChars bs := by
    refine List.filter_eq_self.mpr fun c hc => ?_
    simpa using not_break_of_mem_encodeChars bs c hc
  simp only [decodeString, encodeToString, String.toList_ofList, hf, decodeChars_encodeChars]

theorem rawURLEncodeToString_ne_empty (h : bs ≠ []) : rawURLEncodeToString bs ≠ "" := by
  obtain ⟨a, bs, rfl⟩ := List.exists_cons_of_ne_nil h
  have ha := a.toNat_lt
  have hfirst : ∃ cs, encodeChars (a :: bs) = char (a.toNat / 4) :: cs := by
    rcases bs with - | ⟨b, - | ⟨c, rest⟩⟩ <;> exact ⟨_, rfl⟩
  obtain ⟨cs, hcs⟩ := hfirst
  intro he
  have hnil := String.ofList_eq_empty_iff.mp he
  rw [hcs, List.filter_cons_of_pos (by simpa using (char_ne (a.toNat / 4) (by omega)).left)] at hnil
  cases hnil

end Base64
