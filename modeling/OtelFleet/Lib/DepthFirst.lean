import Mathlib.Data.List.Count
import Mathlib.Data.List.Nodup
import Mathlib.Tactic.Common

-- A depth-first walk that does not visit a key twice.
namespace DepthFirst

variable {α κ : Type}

-- The keys that have been met, and the elements in the order in which they were met, each with its depth.
structure State (α κ : Type) where
  visited : List κ
  ordered : List (α × Nat)

def State.empty : State α κ where
  visited := []
  ordered := []

def State.visit (st : State α κ) (k : κ) (a : α) (depth : Nat) : State α κ where
  visited := st.visited ++ [k]
  ordered := st.ordered ++ [(a, depth)]

variable {key : α → κ} {children : α → List α} {S : List α} {st st' st'' : State α κ} {a : α} {fuel depth : Nat}

section Grows

structure Grows (key : α → κ) (S : List α) (st st' : State α κ) : Prop where
  ordered : ∃ new, st'.ordered = st.ordered ++ new ∧ st'.visited = st.visited ++ new.map (key ·.1) ∧ ∀ n ∈ new, n.1 ∈ S
  nodup : st.visited.Nodup → st'.visited.Nodup

theorem Grows.refl : Grows key S st st where
  ordered := ⟨[], by simp⟩
  nodup h := h

theorem Grows.trans (h : Grows key S st st') (h' : Grows key S st' st'') : Grows key S st st'' where
  ordered := by
    obtain ⟨new, hord, hvis, hmem⟩ := h.ordered
    obtain ⟨new', hord', hvis', hmem'⟩ := h'.ordered
    refine ⟨new ++ new', by rw [hord', hord, List.append_assoc], by rw [hvis', hvis, List.map_append, List.append_assoc], ?_⟩
    intro n hn
    exact (List.mem_append.mp hn).elim (hmem n) (hmem' n)
  nodup hn := h'.nodup (h.nodup hn)

theorem Grows.subset (h : Grows key S st st') : st.visited ⊆ st'.visited := by
  obtain ⟨new, -, hvis, -⟩ := h.ordered
  rw [hvis]
  exact List.subset_append_left _ _

theorem Grows.visit (hmem : a ∈ S) (hnew : key a ∉ st.visited) (depth : Nat) :
    Grows key S st (st.visit (key a) a depth) where
  ordered := ⟨[(a, depth)], rfl, rfl, by simpa using hmem⟩
  nodup h := by
    unfold State.visit
    rw [List.nodup_append]
    refine ⟨h, List.nodup_singleton _, fun k hk k' hk' => ?_⟩
    rw [List.mem_singleton.mp hk']
    exact fun heq => hnew (heq ▸ hk)

end Grows

variable [DecidableEq κ]

-- The fuel bounds how deep calls are nested.
def walk (key : α → κ) (children : α → List α) : Nat → Nat → State α κ → α → Option (State α κ)
  | 0, _, _, _ => none
  | fuel + 1, depth, st, a =>
    if key a ∈ st.visited then some st
    else (children a).foldlM (walk key children fuel (depth + 1)) (st.visit (key a) a depth)

theorem walk_of_mem (h : key a ∈ st.visited) : walk key children (fuel + 1) depth st a = some st :=
  if_pos h

theorem walk_of_not_mem (h : key a ∉ st.visited) :
    walk key children (fuel + 1) depth st a =
      (children a).foldlM (walk key children fuel (depth + 1)) (st.visit (key a) a depth) :=
  if_neg h

section Fuel

omit [DecidableEq κ] in
theorem foldlM_of_le
    (h : ∀ st a st', f st a = some st' → g st a = some st') (l : List α) (hl : l.foldlM f st = some st') :
    l.foldlM g st = some st' := by
  induction l generalizing st
  case nil => exact hl
  case cons a l hi =>
    rw [List.foldlM_cons] at hl ⊢
    obtain ⟨st₁, hst₁, hl⟩ := Option.bind_eq_some_iff.mp hl
    rw [h st a st₁ hst₁]
    exact hi hl

theorem walk_succ (h : walk key children fuel depth st a = some st') :
    walk key children (fuel + 1) depth st a = some st' := by
  induction fuel generalizing depth st st' a
  case zero => cases h
  case succ fuel hi =>
    by_cases hmem : key a ∈ st.visited
    · rw [walk_of_mem hmem] at h ⊢
      exact h
    · rw [walk_of_not_mem hmem] at h ⊢
      exact foldlM_of_le (fun _ _ _ => hi) _ h

theorem walk_of_le (hle : fuel ≤ fuel') (h : walk key children fuel depth st a = some st') :
    walk key children fuel' depth st a = some st' := by
  induction hle
  case refl => exact h
  case step hi => exact walk_succ hi

end Fuel

omit [DecidableEq κ] in
theorem foldlM_congr {f g : State α κ → α → Option (State α κ)} {l : List α} (h : ∀ st, ∀ a ∈ l, f st a = g st a) :
    l.foldlM f st = l.foldlM g st := by
  induction l generalizing st
  case nil => rfl
  case cons a l hi =>
    rw [List.foldlM_cons, List.foldlM_cons, h st a List.mem_cons_self]
    refine Option.bind_congr fun st _ => ?_
    exact hi fun st b hb => h st b (List.mem_cons_of_mem _ hb)

section Total

def unvisited (key : α → κ) (S : List α) (st : State α κ) : Nat :=
  S.countP fun a => key a ∉ st.visited

theorem Grows.unvisited_le (h : Grows key S st st') : unvisited key S st' ≤ unvisited key S st := by
  refine List.countP_mono_left fun a _ ha => ?_
  simp only [decide_eq_true_eq] at ha ⊢
  exact fun hmem => ha (h.subset hmem)

theorem unvisited_visit (hmem : a ∈ S) (hnew : key a ∉ st.visited) :
    unvisited key S (st.visit (key a) a depth) < unvisited key S st := by
  have hcount : unvisited key S (st.visit (key a) a depth) =
      (S.filter fun b => key b ∉ st.visited).countP fun b => key b ≠ key a := by
    rw [List.countP_filter]
    refine List.countP_congr fun b _ => ?_
    simp [State.visit, and_comm]
  have hlength : unvisited key S st = (S.filter fun b => key b ∉ st.visited).length := List.countP_eq_length_filter
  rw [hcount, hlength, List.countP_lt_length_iff]
  exact ⟨a, List.mem_filter.mpr ⟨hmem, by simpa using hnew⟩, by simp⟩

theorem foldlM_grows
    (hf : ∀ st, unvisited key S st < n → ∀ a ∈ S, ∃ st', f st a = some st' ∧ Grows key S st st' ∧ key a ∈ st'.visited)
    (hl : l ⊆ S) (hn : unvisited key S st < n) :
    ∃ st', l.foldlM f st = some st' ∧ Grows key S st st' ∧ ∀ a ∈ l, key a ∈ st'.visited := by
  induction l generalizing st
  case nil => exact ⟨st, rfl, .refl, by simp⟩
  case cons a l hi =>
    obtain ⟨ha, hl⟩ := List.cons_subset.mp hl
    obtain ⟨st₁, hst₁, hgrows, hmet⟩ := hf st hn a ha
    obtain ⟨st₂, hst₂, hgrows', hmet'⟩ := hi hl (Nat.lt_of_le_of_lt hgrows.unvisited_le hn)
    refine ⟨st₂, ?_, hgrows.trans hgrows', ?_⟩
    · rw [List.foldlM_cons, hst₁]
      exact hst₂
    · intro b hb
      obtain rfl | hb := List.mem_cons.mp hb
      · exact hgrows'.subset hmet
      · exact hmet' b hb

-- The walk ends, even if there are cycles.
theorem walk_grows (hS : ∀ a ∈ S, children a ⊆ S) (ha : a ∈ S) (hfuel : unvisited key S st < fuel) :
    ∃ st', walk key children fuel depth st a = some st' ∧ Grows key S st st' ∧ key a ∈ st'.visited := by
  induction fuel generalizing depth st a
  case zero => cases hfuel
  case succ fuel hi =>
    by_cases hmem : key a ∈ st.visited
    case pos => exact ⟨st, walk_of_mem hmem, .refl, hmem⟩
    case neg =>
      have hvisit : Grows key S st (st.visit (key a) a depth) := .visit ha hmem depth
      have hleft : unvisited key S (st.visit (key a) a depth) < fuel :=
        Nat.lt_of_lt_of_le (unvisited_visit ha hmem) (Nat.lt_succ_iff.mp hfuel)
      obtain ⟨st', hst', hgrows, -⟩ := foldlM_grows (fun st hst b hb => hi hb hst) (hS a ha) hleft
      refine ⟨st', ?_, hvisit.trans hgrows, ?_⟩
      · rw [walk_of_not_mem hmem]
        exact hst'
      · exact hgrows.subset (by simp [State.visit])

end Total

theorem walk_congr {children' : α → List α} (hS : ∀ a ∈ S, children a ⊆ S) (h : ∀ a ∈ S, children a = children' a) (ha : a ∈ S) :
    walk key children fuel depth st a = walk key children' fuel depth st a := by
  induction fuel generalizing depth st a
  case zero => rfl
  case succ fuel hi =>
    unfold walk
    rw [← h a ha]
    refine if_congr Iff.rfl rfl ?_
    exact foldlM_congr fun st b hb => hi (hS a ha hb)

end DepthFirst
