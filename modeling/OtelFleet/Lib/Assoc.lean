import Mathlib.Data.List.Sort
import Mathlib.Data.List.Nodup
import Mathlib.Data.List.Perm.Basic

-- Association lists as a model of maps: the list of the entries, in the order an iteration meets
-- them. A list stands for a map when its keys are pairwise distinct.
namespace Assoc

variable {κ α β : Type}

def keys (l : List (κ × α)) : List κ :=
  l.map Prod.fst

@[simp]
theorem keys_nil : keys ([] : List (κ × α)) = [] :=
  rfl

@[simp]
theorem keys_cons : keys (e :: l) = e.1 :: keys l :=
  rfl

@[simp]
theorem keys_append : keys (l₁ ++ l₂) = keys l₁ ++ keys l₂ := by
  simp [keys]

theorem keys_flatMap {l : List γ} : keys (l.flatMap f) = l.flatMap fun x => keys (f x) := by
  simp [keys, List.map_flatMap]

theorem mem_keys_of_mem (h : (k, v) ∈ l) : k ∈ keys l :=
  List.mem_map_of_mem h

theorem mem_keys : k ∈ keys l ↔ ∃ v, (k, v) ∈ l := by
  simp [keys]

def mapVals (f : κ → α → β) (l : List (κ × α)) : List (κ × β) :=
  l.map fun e => (e.1, f e.1 e.2)

theorem mem_mapVals : (k, w) ∈ mapVals f l ↔ ∃ v, (k, v) ∈ l ∧ w = f k v := by
  simp only [mapVals, List.mem_map, Prod.mk.injEq, Prod.exists]
  constructor
  · rintro ⟨k', v, hm, rfl, rfl⟩
    exact ⟨v, hm, rfl⟩
  · rintro ⟨v, hm, rfl⟩
    exact ⟨k, v, hm, rfl, rfl⟩

theorem val_unique (hn : (keys l).Nodup) (hv : (k, v) ∈ l) (hw : (k, w) ∈ l) : v = w := by
  have h := List.inj_on_of_nodup_map hn hv hw rfl
  exact (Prod.mk.inj h).right

section Lookup

section Mem

variable [BEq κ]

theorem lookup_map (f : α → β) (l : List (κ × α)) (k : κ) :
    (l.map fun e => (e.1, f e.2)).lookup k = (l.lookup k).map f := by
  induction l
  case nil => rfl
  case cons e l hi =>
    obtain ⟨j, v⟩ := e
    rw [List.map_cons, List.lookup_cons, List.lookup_cons, hi]
    cases k == j
    all_goals rfl

variable [LawfulBEq κ]

theorem mem_of_lookup {l : List (κ × α)} (h : l.lookup k = some v) : (k, v) ∈ l := by
  have ⟨l₁, l₂, he, _⟩ := List.lookup_eq_some_iff.mp h
  simp [he]

theorem lookup_of_mem {l : List (κ × α)} (hn : (keys l).Nodup) (h : (k, v) ∈ l) : l.lookup k = some v := by
  cases hl : l.lookup k
  case none =>
    have hk := List.lookup_eq_none_iff.mp hl _ h
    simp at hk
  case some w => rw [val_unique hn h (mem_of_lookup hl)]

end Mem

variable [DecidableEq κ]

theorem lookup_eq_none {k : κ} (h : k ∉ keys l) : l.lookup k = none := by
  refine List.lookup_eq_none_iff.mpr fun e he => ?_
  have hne : k ≠ e.1 := fun hc => h (hc ▸ mem_keys_of_mem he)
  simpa using hne

theorem lookup_filter_ne [BEq κ] [LawfulBEq κ] (l : List (κ × α)) (k k' : κ) :
    (l.filter (·.1 ≠ k)).lookup k' = if k' = k then none else l.lookup k' := by
  induction l
  case nil => simp
  case cons e l hi =>
    obtain ⟨j, v⟩ := e
    by_cases hj : j = k
    case pos =>
      subst hj
      rw [List.filter_cons_of_neg (by simp), hi]
      by_cases hk : k' = j
      · simp [hk]
      · simp [hk, List.lookup_cons, beq_eq_false_iff_ne.mpr hk]
    case neg =>
      rw [List.filter_cons_of_pos (by simpa using hj), List.lookup_cons, List.lookup_cons, hi]
      by_cases hk : k' = j
      · simp [hk, hj]
      · simp [beq_eq_false_iff_ne.mpr hk]

end Lookup

section Sorting

variable [LinearOrder κ]

def sort (l : List (κ × α)) : List (κ × α) :=
  l.insertionSort fun a b => a.1 ≤ b.1

theorem sort_perm (l : List (κ × α)) : (sort l).Perm l :=
  List.perm_insertionSort _ l

@[simp]
theorem mem_sort {e : κ × α} : e ∈ sort l ↔ e ∈ l :=
  (sort_perm l).mem_iff

theorem sort_sort (l : List (κ × α)) : sort (sort l) = sort l := by
  have total : Std.Total fun a b : κ × α => a.1 ≤ b.1 := ⟨fun a b => le_total a.1 b.1⟩
  have trans : IsTrans (κ × α) fun a b => a.1 ≤ b.1 := ⟨fun _ _ _ => le_trans⟩
  exact List.Pairwise.insertionSort_eq (List.pairwise_insertionSort _ l)

theorem sort_mapVals (f : κ → α → β) (l : List (κ × α)) : sort (mapVals f l) = mapVals f (sort l) := by
  unfold sort mapVals
  exact (List.map_insertionSort _ _ (fun e : κ × α => (e.1, f e.1 e.2)) l (fun _ _ _ _ => Iff.rfl)).symm

end Sorting

theorem find?_unique {l : List α} (hu : ∀ y ∈ l, p y → y = x) (hx : x ∈ l) (hp : p x) : l.find? p = some x := by
  cases hf : l.find? p
  case none => exact absurd hp (List.find?_eq_none.mp hf x hx)
  case some y => rw [hu y (List.mem_of_find?_eq_some hf) (List.find?_some hf)]

theorem nodup_map_concat (h : (l.map f).Nodup) (hx : ∀ y ∈ l, f y ≠ f x) : ((l ++ [x]).map f).Nodup := by
  rw [List.map_append]
  refine List.nodup_append'.mpr ⟨h, List.nodup_singleton _, ?_⟩
  simpa only [List.map_cons, List.map_nil, List.disjoint_singleton, List.mem_map, not_exists, not_and]

theorem filter_flatMap {xs : List α} (hn : xs.Nodup)
    (hx : x ∈ xs) (hP : ∀ y ∈ xs, ∀ b ∈ f y, P b = true ↔ y = x) : (xs.flatMap f).filter P = f x := by
  induction xs
  case nil => cases hx
  case cons y ys hi =>
    obtain ⟨hy, hn⟩ := List.nodup_cons.mp hn
    rw [List.flatMap_cons, List.filter_append]
    obtain rfl | hx := List.mem_cons.mp hx
    · have hrest : (ys.flatMap f).filter P = [] := by
        rw [List.filter_eq_nil_iff]
        intro b hb hPb
        obtain ⟨z, hz, hb⟩ := List.mem_flatMap.mp hb
        exact hy ((hP z (List.mem_cons_of_mem _ hz) b hb).mp hPb ▸ hz)
      rw [hrest, List.append_nil]
      exact List.filter_eq_self.mpr fun b hb => (hP x List.mem_cons_self b hb).mpr rfl
    · have hfirst : (f y).filter P = [] := by
        rw [List.filter_eq_nil_iff]
        intro b hb hPb
        exact hy ((hP y List.mem_cons_self b hb).mp hPb ▸ hx)
      rw [hfirst, List.nil_append]
      exact hi hn hx fun z hz => hP z (List.mem_cons_of_mem _ hz)

end Assoc
