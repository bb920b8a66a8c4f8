import Mathlib.Data.List.Nodup
import Mathlib.Tactic.Common

-- A map of bounded size that drops what has not been used for longest. The front is the entry that
-- has been used last.
structure Lru (κ α : Type) (max : Nat) where
  items : List (κ × α)
  nodup : (items.map (·.1)).Nodup
  bounded : items.length ≤ max

namespace Lru

variable {κ α : Type} [DecidableEq κ] {max : Nat}

def empty : Lru κ α max :=
  { items := [], nodup := .nil, bounded := Nat.zero_le _ }

def others (k : κ) (l : List (κ × α)) : List (κ × α) :=
  l.filter (·.1 ≠ k)

theorem mem_others {e : κ × α} : e ∈ others k l ↔ e ∈ l ∧ e.1 ≠ k := by
  simp [others]

theorem nodup_cons_others (v : α) {l : List (κ × α)} (h : (l.map (·.1)).Nodup) :
    (((k, v) :: others k l).map (·.1)).Nodup := by
  rw [List.map_cons, List.nodup_cons]
  refine ⟨?_, h.sublist (List.filter_sublist.map _)⟩
  intro hk
  obtain ⟨e, he, rfl⟩ := List.mem_map.mp hk
  exact (mem_others.mp he).right rfl

theorem length_others_lt {l : List (κ × α)} (h : k ∈ l.map (·.1)) : (others k l).length < l.length := by
  obtain ⟨e, he, rfl⟩ := List.mem_map.mp h
  exact List.length_filter_lt_length_iff_exists.mpr ⟨e, he, by simp⟩

def toFront (c : Lru κ α max) (k : κ) (v : α) (h : k ∈ c.items.map (·.1)) : Lru κ α max where
  items := (k, v) :: others k c.items
  nodup := nodup_cons_others v c.nodup
  bounded := Nat.lt_of_lt_of_le (length_others_lt h) c.bounded

def pushFront (c : Lru κ α max) (k : κ) (v : α) (h : k ∉ c.items.map (·.1)) : Lru κ α max where
  items := ((k, v) :: c.items).take max
  nodup := by
    rw [List.map_take]
    exact (List.nodup_cons.mpr ⟨h, c.nodup⟩).sublist (List.take_sublist _ _)
  bounded := by
    rw [List.length_take]
    exact Nat.min_le_left _ _

def put (c : Lru κ α max) (k : κ) (v : α) : Lru κ α max :=
  if h : k ∈ c.items.map (·.1) then c.toFront k v h else c.pushFront k v h

def get (c : Lru κ α max) (k : κ) : Option α × Lru κ α max :=
  match c.items.find? (·.1 = k) with
  | none => (none, c)
  | some e => (some e.2, c.put k e.2)

variable {c : Lru κ α max}

theorem mem_put (h : e ∈ (c.put k v).items) : e = (k, v) ∨ e ∈ c.items ∧ e.1 ≠ k := by
  unfold put at h
  split_ifs at h with hk
  case pos =>
    obtain rfl | he := List.mem_cons.mp h
    · exact .inl rfl
    · exact .inr (mem_others.mp he)
  case neg =>
    obtain rfl | he := List.mem_cons.mp (List.mem_of_mem_take h)
    · exact .inl rfl
    · refine .inr ⟨he, ?_⟩
      rintro rfl
      exact hk (List.mem_map_of_mem he)

theorem mem_of_get (h : (c.get k).1 = some v) : (k, v) ∈ c.items := by
  unfold get at h
  split at h
  case h_1 => simp at h
  case h_2 e he =>
    have hk : e.1 = k := by simpa using List.find?_some he
    obtain rfl : e.2 = v := by simpa using h
    rw [← hk]
    exact List.mem_of_find?_eq_some he

theorem mem_of_mem_get (h : e ∈ (c.get k).2.items) : e ∈ c.items := by
  unfold get at h
  split at h
  case h_1 => exact h
  case h_2 e' he' =>
    obtain rfl | he := mem_put h
    · have hk : e'.1 = k := by simpa using List.find?_some he'
      rw [← hk]
      exact List.mem_of_find?_eq_some he'
    · exact he.left

end Lru
