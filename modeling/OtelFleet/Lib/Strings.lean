import Mathlib.Data.String.Basic
import Mathlib.Data.List.DropRight
import Mathlib.Data.List.TakeDrop
import Mathlib.Tactic.Common

namespace Strings

def isSpace (c : Char) : Bool :=
  "\t\n\x0b\x0c\r \u0085\u00a0\u1680\u2028\u2029\u202f\u205f\u3000".toList.contains c ||
    ('\u2000' ≤ c && c ≤ '\u200a')

def trimSpace (s : String) : String :=
  .ofList ((s.toList.dropWhile isSpace).reverse.dropWhile isSpace).reverse

theorem trimSpace_trimSpace (s : String) : trimSpace (trimSpace s) = trimSpace s := by
  have heq (l : List Char) : trimSpace (.ofList l) = .ofList ((l.dropWhile isSpace).rdropWhile isSpace) := by
    rw [trimSpace, String.toList_ofList, List.rdropWhile]
  have hfix (l : List Char) :
      ((l.dropWhile isSpace).rdropWhile isSpace).dropWhile isSpace = (l.dropWhile isSpace).rdropWhile isSpace := by
    refine List.dropWhile_eq_self_iff.mpr fun hl => ?_
    -- What is left begins as it did before the end was cut off.
    have hpre := List.rdropWhile_prefix isSpace (l.dropWhile isSpace)
    rw [hpre.getElem hl]
    exact List.dropWhile_eq_self_iff.mp (List.dropWhile_idempotent isSpace l) (hl.trans_le hpre.length_le)
  rw [← String.ofList_toList (s := s), heq, heq, hfix, List.rdropWhile_idempotent]

def cut (s : String) (sep : Char) : Option (String × String) :=
  let r := s.toList.span (· ≠ sep)
  match r.2 with
  | [] => none
  | _ :: after => some (.ofList r.1, .ofList after)

theorem cut_append (h : sep ∉ s.toList) (t : String) : cut (s ++ String.singleton sep ++ t) sep = some (s, t) := by
  have hl : (s ++ String.singleton sep ++ t).toList = s.toList ++ sep :: t.toList := by simp
  have htake : (s.toList ++ sep :: t.toList).span (· ≠ sep) = (s.toList, sep :: t.toList) := by
    have hall : ∀ c ∈ s.toList, decide (c ≠ sep) = true := fun c hc => decide_eq_true (ne_of_mem_of_not_mem hc h)
    rw [List.span_eq_takeWhile_dropWhile, List.takeWhile_append_of_pos hall, List.dropWhile_append_of_pos hall]
    simp
  unfold cut
  rw [hl, htake]
  simp

theorem cut_eq_some_iff : cut s sep = some (a, b) ↔ s = a ++ String.singleton sep ++ b ∧ sep ∉ a.toList := by
  constructor
  case mp =>
    intro h
    have hsplit := List.takeWhile_append_dropWhile (p := (· ≠ sep)) (l := s.toList)
    unfold cut at h
    rw [List.span_eq_takeWhile_dropWhile] at h
    dsimp only at h
    split at h
    case h_1 => cases h
    case h_2 c after heq =>
      obtain ⟨rfl, rfl⟩ := Prod.mk.inj (Option.some.inj h)
      have hc : c = sep := by
        have hnot := List.head?_dropWhile_not (· ≠ sep) s.toList
        rw [heq] at hnot
        simpa using hnot
      rw [heq, hc] at hsplit
      refine ⟨?_, ?_⟩
      · rw [← String.toList_inj]
        simpa using hsplit.symm
      · rw [String.toList_ofList]
        intro hmem
        have hne := List.mem_takeWhile_imp hmem
        simp at hne
  case mpr =>
    rintro ⟨rfl, h⟩
    exact cut_append h b

def cutPrefix (s start : String) : Option String :=
  if start.toList <+: s.toList then some (.ofList (s.toList.drop start.length)) else none

def hasPrefix (s start : String) : Bool :=
  start.toList.isPrefixOf s.toList

def trimPrefix (s start : String) : String :=
  (cutPrefix s start).getD s

def trim (s : String) (c : Char) : String :=
  .ofList ((s.toList.dropWhile (· = c)).reverse.dropWhile (· = c)).reverse

-- The lower case of runes, which is its own lower case.
class Casing where
  lower : Char → Char
  lower_lower : ∀ c, lower (lower c) = lower c
  -- Whether a rune is printed as it is between quotes.
  isPrint : Char → Bool

theorem toLower_toLower (c : Char) : c.toLower.toLower = c.toLower := by
  by_cases h : c.val ≥ 'A'.val ∧ c.val ≤ 'Z'.val
  · have hno : ¬(c.toLower.val ≥ 'A'.val ∧ c.toLower.val ≤ 'Z'.val) := by
      rw [Char.toLower.eq_def, dif_pos h]
      grind
    rw [Char.toLower.eq_def c.toLower, dif_neg hno]
  · have hc : c.toLower = c := dif_neg h
    rw [hc, hc]

@[reducible]
def Casing.ascii : Casing where
  lower := Char.toLower
  lower_lower := toLower_toLower
  isPrint c := 0x20 ≤ c.toNat && c.toNat < 0x7f

def Casing.Standard (casing : Casing) : Prop :=
  ∀ c : Char, c.toNat < 128 → casing.lower c = c.toLower

theorem Casing.ascii_standard : Casing.ascii.Standard :=
  fun _ _ => rfl

def toLower [Casing] (s : String) : String :=
  .ofList (s.toList.map Casing.lower)

def equalFold [Casing] (s t : String) : Bool :=
  toLower s = toLower t

@[simp]
theorem equalFold_self [Casing] (s : String) : equalFold s s = true :=
  decide_eq_true rfl

theorem toLower_of_standard [casing : Casing] (h : casing.Standard) (hs : ∀ c ∈ s.toList, c.toNat < 128) :
    toLower s = .ofList (s.toList.map Char.toLower) := by
  rw [toLower, List.map_congr_left fun c hc => h c (hs c hc)]

theorem length_toLower [Casing] (s : String) : (toLower s).length = s.length := by
  simp [toLower, String.length_toList]

end Strings
