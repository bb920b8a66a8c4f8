import Mathlib.Data.List.Basic
import Mathlib.Tactic.Common

-- Rows that are collected under their keys, in the order in which the keys appear.
namespace Grouping

variable {κ ρ : Type} [DecidableEq κ] {key : ρ → κ}

def push (key : ρ → κ) (groups : List (κ × List ρ)) (r : ρ) : List (κ × List ρ) :=
  if groups.any (·.1 = key r) then
    groups.map fun g => if g.1 = key r then (g.1, g.2 ++ [r]) else g
  else groups ++ [(key r, [r])]

def groupBy (key : ρ → κ) (rows : List ρ) : List (κ × List ρ) :=
  rows.foldl (push key) []

theorem lookup_push (groups : List (κ × List ρ)) (r : ρ) (k : κ) :
    (push key groups r).lookup k =
      if k = key r then some ((groups.lookup k).getD [] ++ [r]) else groups.lookup k := by
  have hbeq (k k' : κ) (h : k ≠ k') : (k == k') = false := beq_eq_false_iff_ne.mpr h
  unfold push
  split_ifs with hany hk hk
  · subst hk
    induction groups
    case nil => simp at hany
    case cons g groups hi =>
      obtain ⟨j, rows⟩ := g
      by_cases hj : j = key r
      · simp [hj]
      · have hrest : groups.any (·.1 = key r) := by simpa [hj] using hany
        simp [hj, List.lookup_cons, hbeq _ _ (Ne.symm hj), hi hrest]
  · clear hany
    induction groups
    case nil => rfl
    case cons g groups hi =>
      obtain ⟨j, rows⟩ := g
      rw [List.map_cons, List.lookup_cons, List.lookup_cons, hi]
      by_cases hj : j = key r
      · subst hj
        simp [hbeq _ _ hk]
      · simp [hj]
  · subst hk
    have hnone : groups.lookup (key r) = none := by
      rw [List.lookup_eq_none_iff]
      intro g hg
      simp only [List.any_eq_true, decide_eq_true_eq, not_exists, not_and] at hany
      simpa using Ne.symm (hany g hg)
    rw [List.lookup_append, hnone]
    simp
  · rw [List.lookup_append]
    simp [List.lookup_cons, hbeq _ _ hk]

variable {P : κ → Bool}

theorem filter_push_of_not (h : ¬P (key r)) (groups : List (κ × List ρ)) :
    (push key groups r).filter (fun g => P g.1) = groups.filter fun g => P g.1 := by
  unfold push
  split_ifs
  · rw [List.filter_map]
    have hkeys : ((fun g : κ × List ρ => P g.1) ∘ fun g => if g.1 = key r then (g.1, g.2 ++ [r]) else g) =
        fun g => P g.1 := by
      funext g
      simp only [Function.comp_apply]
      split_ifs <;> rfl
    rw [hkeys]
    refine (List.map_congr_left fun g hg => if_neg fun he => ?_).trans (List.map_id _)
    exact h (he ▸ (List.mem_filter.mp hg).2)
  · simp [List.filter_append, h]

theorem filter_push (h : P (key r)) (groups : List (κ × List ρ)) :
    (push key groups r).filter (fun g => P g.1) = push key (groups.filter fun g => P g.1) r := by
  have hany : (groups.filter fun g => P g.1).any (·.1 = key r) = groups.any (·.1 = key r) := by
    rw [List.any_filter]
    congr 1
    funext g
    by_cases hg : g.1 = key r <;> simp [hg, h]
  unfold push
  rw [hany]
  split_ifs
  · rw [List.filter_map]
    congr 2
    funext g
    simp only [Function.comp_apply]
    split_ifs <;> rfl
  · simp [List.filter_append, h]

theorem groupBy_filter (key : ρ → κ) (P : κ → Bool) (rows : List ρ) :
    groupBy key (rows.filter fun r => P (key r)) = (groupBy key rows).filter fun g => P g.1 := by
  suffices h : ∀ groups, (rows.filter fun r => P (key r)).foldl (push key) (groups.filter fun g => P g.1) =
      (rows.foldl (push key) groups).filter fun g => P g.1 from h []
  induction rows
  case nil => exact fun _ => rfl
  case cons r rows hi =>
    intro groups
    rw [List.filter_cons, List.foldl_cons, ← hi]
    split_ifs with h
    · rw [List.foldl_cons, filter_push h]
    · rw [filter_push_of_not h]

end Grouping
