import Mathlib.Data.List.Sort
import Mathlib.Data.Prod.Lex

-- Lists in the order of a key.
namespace Sorting

variable {α κ : Type} [LinearOrder κ] {key : α → κ} {l : List α}

def sortBy (key : α → κ) (l : List α) : List α :=
  l.insertionSort fun a b => key a ≤ key b

theorem sortBy_perm (key : α → κ) (l : List α) : (sortBy key l).Perm l :=
  List.perm_insertionSort _ l

@[simp]
theorem mem_sortBy : a ∈ sortBy key l ↔ a ∈ l :=
  List.mem_insertionSort _

theorem sortBy_sorted (key : α → κ) (l : List α) : (sortBy key l).Pairwise fun a b => key a ≤ key b := by
  have total : Std.Total fun a b => key a ≤ key b := ⟨fun a b => le_total (key a) (key b)⟩
  have trans : IsTrans α fun a b => key a ≤ key b := ⟨fun _ _ _ => le_trans⟩
  exact List.pairwise_insertionSort _ l

theorem sortBy_eq_of_perm (hk : ∀ a ∈ l, ∀ b ∈ l, key a = key b → a = b) (h : l.Perm l') :
    sortBy key l = sortBy key l' := by
  have hp : (sortBy key l).Perm (sortBy key l') := (sortBy_perm _ _).trans (h.trans (sortBy_perm _ _).symm)
  refine hp.eq_of_pairwise ?_ (sortBy_sorted key l) (sortBy_sorted key l')
  intro a b ha hb hab hba
  exact hk a (mem_sortBy.mp ha) b (h.mem_iff.mpr (mem_sortBy.mp hb)) (le_antisymm hab hba)

theorem find?_sortBy_eq_some (h : (sortBy key l).find? p = some a) : a ∈ l ∧ p a ∧ ∀ b ∈ l, p b → key a ≤ key b := by
  refine ⟨mem_sortBy.mp (List.mem_of_find?_eq_some h), List.find?_some h, fun b hb hp => ?_⟩
  obtain ⟨_, before, after, hl, hno⟩ := List.find?_eq_some_iff_append.mp h
  have hs := sortBy_sorted key l
  have hb : b ∈ sortBy key l := mem_sortBy.mpr hb
  rw [hl] at hs hb
  obtain hb | hb := List.mem_append.mp hb
  · exact absurd hp (by simpa using hno b hb)
  · obtain rfl | hb := List.mem_cons.mp hb
    · exact le_rfl
    · exact (List.pairwise_cons.mp (List.pairwise_append.mp hs).2.1).1 b hb

section Filter

theorem filter_orderedInsert (a : α) (hl : l.Pairwise fun a b => key a ≤ key b) :
    (l.orderedInsert (fun a b => key a ≤ key b) a).filter p =
      if p a then (l.filter p).orderedInsert (fun a b => key a ≤ key b) a else l.filter p := by
  induction l
  case nil => cases h : p a <;> simp [h]
  case cons b l hi =>
    obtain ⟨hb, hl⟩ := List.pairwise_cons.mp hl
    rw [List.orderedInsert_cons]
    by_cases hab : key a ≤ key b
    · rw [if_pos hab, List.filter_cons]
      split_ifs with ha
      · -- Everything that is kept of the list comes after the new element.
        have hall : ∀ c ∈ (b :: l).filter p, key a ≤ key c := by
          intro c hc
          obtain rfl | hc := List.mem_cons.mp (List.mem_filter.mp hc).1
          exacts [hab, hab.trans (hb c hc)]
        cases hf : (b :: l).filter p
        case nil => rfl
        case cons c m =>
          rw [List.orderedInsert_cons, if_pos (hall c (by simp [hf]))]
      · rfl
    · rw [if_neg hab, List.filter_cons, hi hl, List.filter_cons]
      split_ifs with hpb hpa hpa
      · rw [List.orderedInsert_cons, if_neg hab]
      all_goals rfl

theorem filter_sortBy (p : α → Bool) (key : α → κ) (l : List α) :
    (sortBy key l).filter p = sortBy key (l.filter p) := by
  induction l
  case nil => rfl
  case cons a l hi =>
    rw [sortBy, List.insertionSort_cons, ← sortBy, filter_orderedInsert a (sortBy_sorted key l), hi, List.filter_cons]
    split_ifs
    · rw [sortBy, sortBy, List.insertionSort_cons]
    · rfl

end Filter

section Stable

theorem pair_sublist_or (ha : a ∈ l) (hb : b ∈ l) (hne : a ≠ b) : [a, b].Sublist l ∨ [b, a].Sublist l := by
  obtain ⟨l₁, l₂, rfl⟩ := List.append_of_mem ha
  have hpair {x y : α} {m₁ m₂ : List α} (hx : x ∈ m₁) (hy : y ∈ m₂) : [x, y].Sublist (m₁ ++ m₂) :=
    (List.singleton_sublist.mpr hx).append (List.singleton_sublist.mpr hy)
  obtain hb | hb := List.mem_append.mp hb
  · exact .inr (hpair hb List.mem_cons_self)
  · obtain rfl | hb := List.mem_cons.mp hb
    · exact absurd rfl hne
    · exact .inl ((hpair (List.mem_singleton_self a) hb).trans (List.sublist_append_right _ _))

theorem not_pair_sublist_swap (hn : l.Nodup) (h : [a, b].Sublist l) : ¬[b, a].Sublist l := by
  induction l
  case nil => cases h
  case cons x l hi =>
    obtain ⟨hx, hn⟩ := List.nodup_cons.mp hn
    intro h'
    obtain hab | ⟨r, hr, hb⟩ := List.sublist_cons_iff.mp h
    · obtain hba | ⟨r', hr', -⟩ := List.sublist_cons_iff.mp h'
      · exact hi hn hab hba
      · obtain ⟨rfl, -⟩ := List.cons.inj hr'
        exact hx (hab.subset (by simp))
    · obtain ⟨rfl, rfl⟩ := List.cons.inj hr
      obtain hba | ⟨r', hr', ha⟩ := List.sublist_cons_iff.mp h'
      · exact hx (hba.subset (by simp))
      · obtain ⟨rfl, rfl⟩ := List.cons.inj hr'
        exact hx (ha.subset (by simp))

theorem pair_sublist_sortBy (hn : l.Nodup) (h : [a, b].Sublist (sortBy key l)) :
    key a < key b ∨ key a = key b ∧ [a, b].Sublist l := by
  have hle : key a ≤ key b := by
    have hsorted := (sortBy_sorted key l).sublist h
    simpa using hsorted
  refine hle.lt_or_eq.imp_right fun heq => ⟨heq, ?_⟩
  have hn' : (sortBy key l).Nodup := (sortBy_perm key l).nodup_iff.mpr hn
  have hne : a ≠ b := by
    rintro rfl
    exact absurd h (List.nodup_iff_sublist.mp hn' a)
  have ha : a ∈ l := mem_sortBy.mp (h.subset (by simp))
  have hb : b ∈ l := mem_sortBy.mp (h.subset (by simp))
  refine (pair_sublist_or ha hb hne).resolve_right fun hswap => ?_
  exact not_pair_sublist_swap hn' h (List.pair_sublist_insertionSort heq.ge hswap)

end Stable

end Sorting
