import Mathlib.Data.List.Basic
import Mathlib.Data.List.Perm.Basic
import Mathlib.Tactic.Common

-- A map that is kept as a list of entries, in which keys may occur several times.
namespace SliceMap

variable {κ α : Type} [DecidableEq κ]

def entries (k : κ) (l : List (κ × α)) : List (κ × α) :=
  l.filter (·.1 = k)

-- Drops the first entry with the key and moves the last entry of all into its place.
def remove (k : κ) : List (κ × α) → List (κ × α)
  | [] => []
  | e :: l =>
    if e.1 = k then
      match l.getLast? with
      | none => []
      | some last => last :: l.dropLast
    else e :: remove k l

def put (k : κ) (v : α) : List (κ × α) → List (κ × α)
  | [] => [(k, v)]
  | e :: l => if e.1 = k then (k, v) :: l else e :: put k v l

section Remove

theorem remove_perm (k : κ) (l : List (κ × α)) : (remove k l).Perm (l.eraseP (·.1 = k)) := by
  induction l
  case nil => exact .refl _
  case cons e l hi =>
    unfold remove
    split_ifs with he
    · rw [List.eraseP_cons_of_pos (by simpa using he)]
      cases hl : l.getLast?
      case none => rw [List.getLast?_eq_none_iff.mp hl]
      case some last =>
        have hsplit := List.dropLast_append_getLast? last hl
        calc last :: l.dropLast
          _ = [last] ++ l.dropLast := rfl
          _ |>.Perm (l.dropLast ++ [last]) := List.perm_append_comm
          _ = l := hsplit
    · rw [List.eraseP_cons_of_neg (by simpa using he)]
      exact hi.cons e

theorem length_entries_remove (k : κ) (l : List (κ × α)) :
    (entries k (remove k l)).length = (entries k l).length - 1 := by
  rw [entries, ((remove_perm k l).filter _).length_eq]
  induction l
  case nil => rfl
  case cons e l hi =>
    by_cases he : e.1 = k
    · rw [List.eraseP_cons_of_pos (by simpa using he), entries, List.filter_cons_of_pos (by simpa using he)]
      rfl
    · rw [List.eraseP_cons_of_neg (by simpa using he), List.filter_cons_of_neg (by simpa using he), hi, entries,
        entries, List.filter_cons_of_neg (by simpa using he)]

theorem filter_remove_perm (hP : ∀ e : κ × α, e.1 = k → P e = false)
    (l : List (κ × α)) : ((remove k l).filter P).Perm (l.filter P) := by
  refine ((remove_perm k l).filter P).trans (.of_eq ?_)
  induction l
  case nil => rfl
  case cons e l hi =>
    by_cases he : e.1 = k
    · rw [List.eraseP_cons_of_pos (by simpa using he), List.filter_cons_of_neg (by simp [hP e he])]
    · rw [List.eraseP_cons_of_neg (by simpa using he), List.filter_cons, List.filter_cons, hi]

end Remove

section Put

theorem filter_put (hP : ∀ e : κ × α, e.1 = k → P e = false) (v : α)
    (l : List (κ × α)) : (put k v l).filter P = l.filter P := by
  induction l
  case nil => simp [put, hP (k, v) rfl]
  case cons e l hi =>
    unfold put
    split_ifs with he
    · rw [List.filter_cons_of_neg (by simp [hP (k, v) rfl]), List.filter_cons_of_neg (by simp [hP e he])]
    · rw [List.filter_cons, List.filter_cons, hi]

theorem entries_put_iff {l : List (κ × α)} : entries k (put k v l) = [(k, v)] ↔ (entries k l).length ≤ 1 := by
  induction l
  case nil => simp [put, entries]
  case cons e l hi =>
    unfold put
    split_ifs with he
    · rw [entries, entries, List.filter_cons_of_pos (by simp), List.filter_cons_of_pos (by simpa using he)]
      simp
    · rw [entries, entries, List.filter_cons_of_neg (by simpa using he),
        List.filter_cons_of_neg (by simpa using he)]
      exact hi

end Put

end SliceMap
