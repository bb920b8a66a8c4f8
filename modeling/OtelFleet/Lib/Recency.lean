import OtelFleet.Lib.Lru
import Mathlib.Data.List.Induction

-- What is found in a map that drops what has not been used for longest, told from the calls alone.
namespace Lru

inductive Call (κ α : Type) where
  | get (k : κ)
  | put (k : κ) (v : α)

variable {κ α : Type} [DecidableEq κ]

def touch (k : κ) (used : List κ) : List κ :=
  k :: used.filter (· ≠ k)

def use (max : Nat) (used : List κ) : Call κ α → List κ
  | .get k => if k ∈ used.take max then touch k used else used
  | .put k _ => touch k used

def recency (max : Nat) (calls : List (Call κ α)) : List κ :=
  calls.foldl (use max) []

def lastPut (calls : List (Call κ α)) (k : κ) : Option α :=
  calls.foldl (fun found call =>
    match call with
    | .get _ => found
    | .put j v => if k = j then some v else found) none

def ideal (max : Nat) (calls : List (Call κ α)) (k : κ) : Option α :=
  if k ∈ (recency max calls).take max then lastPut calls k else none

def call {max : Nat} (c : Lru κ α max) : Call κ α → Lru κ α max
  | .get k => (c.get k).2
  | .put k v => c.put k v

variable {max : Nat} {used : List κ} {c : Lru κ α max}

theorem nodup_touch (h : used.Nodup) : (touch k used).Nodup :=
  List.nodup_cons.mpr ⟨by simp, h.filter _⟩

theorem nodup_use (h : used.Nodup) (call : Call κ α) : (use max used call).Nodup := by
  cases call
  case get k =>
    simp only [use]
    split_ifs
    · exact nodup_touch h
    · exact h
  case put k v => exact nodup_touch h

theorem length_filter_ne (hn : used.Nodup) (h : k ∈ used) : (used.filter (· ≠ k)).length = used.length - 1 := by
  rw [← List.length_erase_of_mem h, hn.erase_eq_filter]
  refine congrArg List.length (List.filter_congr fun j _ => ?_)
  rw [Bool.eq_iff_iff, decide_eq_true_iff, bne_iff_ne]

theorem take_touch_of_mem (hn : used.Nodup) (h : k ∈ used.take max) :
    (touch k used).take max = touch k (used.take max) := by
  have hlen := length_filter_ne (hn.sublist (List.take_sublist _ _)) h
  cases max
  case zero => simp at h
  case succ n =>
    rw [touch, touch, List.take_succ_cons]
    refine congrArg (k :: ·) ?_
    by_cases hle : used.length ≤ n + 1
    · rw [List.take_of_length_le hle] at hlen ⊢
      exact List.take_of_length_le (by omega)
    · rw [List.length_take, Nat.min_eq_left (by omega), Nat.add_sub_cancel] at hlen
      nth_rewrite 1 [← List.take_append_drop (n + 1) used]
      rw [List.filter_append, List.take_left' hlen]

theorem take_touch_of_notMem (h : k ∉ used.take max) : (touch k used).take max = (k :: used.take max).take max := by
  have hself : (used.take max).filter (· ≠ k) = used.take max := by
    refine List.filter_eq_self.mpr fun j hj => decide_eq_true ?_
    rintro rfl
    exact h hj
  cases max
  case zero => rfl
  case succ n =>
    rw [touch, List.take_succ_cons, List.take_succ_cons]
    refine congrArg (k :: ·) ?_
    by_cases hle : used.length ≤ n + 1
    · rw [List.take_of_length_le hle] at hself ⊢
      rw [hself]
    · nth_rewrite 1 [← List.take_append_drop (n + 1) used]
      rw [List.filter_append, hself, List.take_append_of_le_length]
      rw [List.length_take]
      omega

theorem keys_others (k : κ) (l : List (κ × α)) : (others k l).map (·.1) = (l.map (·.1)).filter (· ≠ k) := by
  simp [others, List.filter_map, Function.comp_def]

theorem items_put_of_mem (h : k ∈ c.items.map (·.1)) : (c.put k v).items = (k, v) :: others k c.items := by
  rw [put, dif_pos h, toFront]

theorem items_put_of_notMem (h : k ∉ c.items.map (·.1)) : (c.put k v).items = ((k, v) :: c.items).take max := by
  rw [put, dif_neg h, pushFront]

theorem keys_put (hn : used.Nodup) (hc : c.items.map (·.1) = used.take max) :
    (c.put k v).items.map (·.1) = (touch k used).take max := by
  by_cases hk : k ∈ c.items.map (·.1)
  case pos => rw [items_put_of_mem hk, take_touch_of_mem hn (hc ▸ hk), ← hc, List.map_cons, keys_others, touch]
  case neg => rw [items_put_of_notMem hk, take_touch_of_notMem (hc ▸ hk), ← hc, List.map_take, List.map_cons]

theorem get_of_notMem (h : k ∉ c.items.map (·.1)) : c.get k = (none, c) := by
  have hfind : c.items.find? (·.1 = k) = none := by
    refine List.find?_eq_none.mpr fun e he hk => h ?_
    exact List.mem_map.mpr ⟨e, he, by simpa using hk⟩
  rw [get, hfind]

theorem get_of_mem (h : (k, v) ∈ c.items) : c.get k = (some v, c.put k v) := by
  have hfind : c.items.find? (·.1 = k) = some (k, v) := by
    cases hf : c.items.find? (·.1 = k)
    case none =>
      have hk := List.find?_eq_none.mp hf _ h
      simp at hk
    case some e =>
      have hk : e.1 = k := by simpa using List.find?_some hf
      rw [List.inj_on_of_nodup_map c.nodup (List.mem_of_find?_eq_some hf) h hk]
  rw [get, hfind]

structure Recent (calls : List (Call κ α)) (c : Lru κ α max) : Prop where
  nodup : (recency max calls).Nodup
  keys : c.items.map (·.1) = (recency max calls).take max
  values : ∀ e ∈ c.items, lastPut calls e.1 = some e.2

theorem Recent.get (h : Recent calls c) (k : κ) : (c.get k).1 = ideal max calls k := by
  unfold ideal
  rw [← h.keys]
  split_ifs with hk
  case pos =>
    obtain ⟨e, he, rfl⟩ := List.mem_map.mp hk
    rw [get_of_mem he, h.values e he]
  case neg => rw [get_of_notMem hk]

theorem recency_concat (calls : List (Call κ α)) (x : Call κ α) :
    recency max (calls ++ [x]) = use max (recency max calls) x := by
  rw [recency, List.foldl_append]
  rfl

theorem lastPut_get (calls : List (Call κ α)) (j k : κ) : lastPut (calls ++ [.get j]) k = lastPut calls k := by
  rw [lastPut, List.foldl_append]
  rfl

theorem lastPut_put (calls : List (Call κ α)) (j k : κ) (v : α) :
    lastPut (calls ++ [.put j v]) k = if k = j then some v else lastPut calls k := by
  rw [lastPut, List.foldl_append]
  rfl

theorem Recent.call (h : Recent calls c) (x : Call κ α) : Recent (calls ++ [x]) (c.call x) := by
  have hnodup : (recency max (calls ++ [x])).Nodup := by
    rw [recency_concat]
    exact nodup_use h.nodup x
  cases x
  case get k =>
    by_cases hk : k ∈ c.items.map (·.1)
    case pos =>
      obtain ⟨⟨k, v⟩, he, rfl⟩ := List.mem_map.mp hk
      have hcall : c.call (.get k) = c.put k v := congrArg Prod.snd (get_of_mem he)
      have huse : recency max (calls ++ [.get k]) = touch k (recency max calls) := by
        rw [recency_concat, use, if_pos (h.keys ▸ hk)]
      rw [hcall]
      refine { nodup := hnodup, keys := huse ▸ keys_put h.nodup h.keys, values := fun e hput => ?_ }
      rw [lastPut_get]
      obtain rfl | ⟨hmem, -⟩ := mem_put hput
      · exact h.values _ he
      · exact h.values e hmem
    case neg =>
      have hcall : c.call (.get k) = c := congrArg Prod.snd (get_of_notMem hk)
      have huse : recency max (calls ++ [.get k]) = recency max calls := by
        rw [recency_concat, use, if_neg (h.keys ▸ hk)]
      rw [hcall]
      refine { nodup := hnodup, keys := huse ▸ h.keys, values := fun e he => ?_ }
      rw [lastPut_get]
      exact h.values e he
  case put k v =>
    have huse : recency max (calls ++ [.put k v]) = touch k (recency max calls) := recency_concat calls _
    refine { nodup := hnodup, keys := huse ▸ keys_put h.nodup h.keys, values := fun e hput => ?_ }
    rw [lastPut_put]
    obtain rfl | ⟨hmem, hne⟩ := mem_put hput
    · exact if_pos rfl
    · rw [if_neg hne]
      exact h.values e hmem

theorem recent_run (calls : List (Call κ α)) : Recent calls (calls.foldl call (empty : Lru κ α max)) := by
  induction calls using List.reverseRecOn
  case nil => exact { nodup := .nil, keys := List.take_nil.symm, values := fun e he => by cases he }
  case append_singleton calls x hi =>
    rw [List.foldl_append]
    exact hi.call x

end Lru
