import Mathlib.Data.List.Nodup
import Mathlib.Tactic.Common

-- A linked list. An element is known by its address, and keeps its value when it is removed.
structure LinkedList (α : Type) where
  cells : List α
  order : List Nat
  nodup : order.Nodup
  allocated : ∀ a ∈ order, a < cells.length

namespace LinkedList

variable {α : Type}

def empty : LinkedList α :=
  { cells := [], order := [], nodup := .nil, allocated := by simp }

def value (l : LinkedList α) (a : Nat) : Option α :=
  l.cells[a]?

def elements (l : LinkedList α) : List (Nat × α) :=
  l.order.filterMap fun a => (l.value a).map (a, ·)

def back (l : LinkedList α) : Option (Nat × α) :=
  l.order.getLast?.bind fun a => (l.value a).map (a, ·)

def modify (l : LinkedList α) (a : Nat) (f : α → α) : LinkedList α where
  cells := l.cells.modify a f
  order := l.order
  nodup := l.nodup
  allocated b hb := by
    rw [List.length_modify]
    exact l.allocated b hb

def pushFront (l : LinkedList α) (v : α) : Nat × LinkedList α where
  fst := l.cells.length
  snd.cells := l.cells ++ [v]
  snd.order := l.cells.length :: l.order
  snd.nodup := List.nodup_cons.mpr ⟨fun h => absurd (l.allocated _ h) (Nat.lt_irrefl _), l.nodup⟩
  snd.allocated a ha := by
    rw [List.length_append, List.length_singleton]
    obtain rfl | ha := List.mem_cons.mp ha
    · exact Nat.lt_succ_self _
    · exact Nat.lt_succ_of_lt (l.allocated a ha)

def remove (l : LinkedList α) (a : Nat) : LinkedList α where
  cells := l.cells
  order := l.order.filter (· ≠ a)
  nodup := l.nodup.filter _
  allocated b hb := l.allocated b (List.mem_of_mem_filter hb)

def moveToFront (l : LinkedList α) (a : Nat) : LinkedList α :=
  if h : a ∈ l.order then
    { cells := l.cells
      order := a :: l.order.filter (· ≠ a)
      nodup := List.nodup_cons.mpr ⟨by simp, l.nodup.filter _⟩
      allocated := by
        rw [List.forall_mem_cons]
        exact ⟨l.allocated a h, fun b hb => l.allocated b (List.mem_of_mem_filter hb)⟩ }
  else l

variable {l : LinkedList α}

theorem mem_elements : (a, v) ∈ l.elements ↔ a ∈ l.order ∧ l.value a = some v := by
  simp [elements]

theorem value_of_mem (h : (a, v) ∈ l.elements) : l.value a = some v :=
  (mem_elements.mp h).right

theorem exists_value (h : a ∈ l.order) : ∃ v, l.value a = some v :=
  ⟨_, List.getElem?_eq_getElem (l.allocated a h)⟩

theorem map_fst_elements (l : LinkedList α) : l.elements.map (·.1) = l.order := by
  rw [elements, List.map_filterMap]
  nth_rewrite 2 [← List.filterMap_some (l := l.order)]
  refine List.filterMap_congr fun a ha => ?_
  obtain ⟨v, hv⟩ := exists_value ha
  rw [hv]
  rfl

theorem nodup_elements (l : LinkedList α) : (l.elements.map (·.1)).Nodup := by
  rw [map_fst_elements]
  exact l.nodup

theorem back_eq (l : LinkedList α) : l.back = l.elements.getLast? := by
  unfold back elements
  obtain heq | ⟨order, a, heq⟩ := List.eq_nil_or_concat' l.order
  · rw [heq]
    rfl
  · obtain ⟨v, hv⟩ := exists_value (l := l) (a := a) (by simp [heq])
    rw [heq, List.filterMap_append, List.getLast?_concat]
    simp [hv]

theorem elements_pushFront (l : LinkedList α) (v : α) :
    (l.pushFront v).2.elements = ((l.pushFront v).1, v) :: l.elements := by
  have hnew : (l.pushFront v).2.value l.cells.length = some v := by simp [pushFront, value]
  unfold elements
  rw [show (l.pushFront v).2.order = l.cells.length :: l.order from rfl]
  rw [List.filterMap_cons_some (by rw [hnew]; rfl)]
  refine congrArg _ (List.filterMap_congr fun a ha => ?_)
  rw [value, pushFront, List.getElem?_append_left (l.allocated a ha)]
  rfl

theorem elements_remove (l : LinkedList α) (a : Nat) : (l.remove a).elements = l.elements.filter (·.1 ≠ a) := by
  have hvalue (b : Nat) : (l.remove a).value b = l.value b := rfl
  unfold elements
  rw [remove, List.filterMap_filter, List.filter_filterMap, ← remove]
  refine List.filterMap_congr fun b hb => ?_
  obtain ⟨v, hv⟩ := exists_value hb
  rw [hvalue, hv]
  by_cases hab : b = a
  all_goals simp [hab, Option.filter]

theorem length_remove_lt (h : l.back = some e) : (l.remove e.1).order.length < l.order.length := by
  have hmem : e ∈ l.elements := by
    rw [back_eq] at h
    exact List.mem_of_getLast? h
  refine List.length_filter_lt_length_iff_exists.mpr ⟨e.1, (mem_elements.mp hmem).left, ?_⟩
  simp

theorem elements_moveToFront (h : (a, v) ∈ l.elements) :
    (l.moveToFront a).elements = (a, v) :: l.elements.filter (·.1 ≠ a) := by
  have hvalue (b : Nat) : (l.moveToFront a).value b = l.value b := by
    unfold moveToFront
    split_ifs
    all_goals rfl
  have ⟨hmem, hv⟩ := mem_elements.mp h
  have horder : (l.moveToFront a).order = a :: (l.remove a).order := by
    rw [moveToFront, dif_pos hmem]
    rfl
  rw [← elements_remove, elements, horder, List.filterMap_cons_some (b := (a, v)) (by rw [hvalue, hv]; rfl)]
  simp only [hvalue]
  rfl

theorem elements_modify (l : LinkedList α) (a : Nat) (f : α → α) :
    (l.modify a f).elements = l.elements.map fun e => if e.1 = a then (e.1, f e.2) else e := by
  unfold elements
  rw [List.map_filterMap]
  refine List.filterMap_congr fun b hb => ?_
  obtain ⟨v, hv⟩ := exists_value (l := l) hb
  have hv' : (l.modify a f).value b = some (if a = b then f v else v) := by
    rw [value, modify, List.getElem?_modify, ← value, hv]
    rfl
  rw [hv, hv']
  by_cases hab : a = b
  · simp [hab]
  · simp [hab, Ne.symm hab]

theorem elements_moveToFront_modify (f : α → α) (h : (a, v) ∈ l.elements) :
    ((l.modify a f).moveToFront a).elements = (a, f v) :: l.elements.filter (·.1 ≠ a) := by
  have hmodified : (a, f v) ∈ (l.modify a f).elements := by
    rw [elements_modify]
    exact List.mem_map.mpr ⟨_, h, if_pos rfl⟩
  rw [elements_moveToFront hmodified, elements_modify]
  refine congrArg _ ?_
  induction l.elements
  case nil => rfl
  case cons e es hi =>
    rw [List.map_cons, List.filter_cons, List.filter_cons, hi]
    by_cases ha : e.1 = a
    all_goals simp [ha]

theorem elements_perm (h : (a, v) ∈ l.elements) : l.elements.Perm ((a, v) :: l.elements.filter (·.1 ≠ a)) := by
  refine (List.perm_ext_iff_of_nodup (.of_map _ l.nodup_elements) ?_).mpr fun e => ?_
  · exact List.nodup_cons.mpr ⟨by simp, (List.Nodup.of_map _ l.nodup_elements).filter _⟩
  · rw [List.mem_cons, List.mem_filter, decide_eq_true_iff]
    constructor
    · intro he
      by_cases ha : e.1 = a
      · exact .inl (List.inj_on_of_nodup_map l.nodup_elements he h ha)
      · exact .inr ⟨he, ha⟩
    · rintro (rfl | ⟨he, -⟩)
      · exact h
      · exact he

theorem elements_of_back (h : l.back = some e) : l.elements = (l.remove e.1).elements ++ [e] := by
  rw [back_eq] at h
  obtain ⟨front, hfront⟩ := List.getLast?_eq_some_iff.mp h
  have hnodup := l.nodup_elements
  rw [hfront, List.map_append, List.map_singleton, List.nodup_append] at hnodup
  rw [elements_remove, hfront, List.filter_append, List.filter_eq_self.mpr]
  · simp
  · intro e' he'
    exact decide_eq_true (hnodup.right.right _ (List.mem_map_of_mem he') _ (List.mem_singleton_self _))

end LinkedList
