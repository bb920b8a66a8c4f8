import OtelFleet.Collector.KeyCache
import OtelFleet.Lib.Assoc

-- The cache is a map that drops what has not been used for longest.
namespace Tenantauth
namespace KeyCache

variable {α β : Type} {max a : Nat} {c : KeyCache α} {l : Lru String α max} {hash : String}

def contents (c : KeyCache α) : List (String × α) :=
  c.ll.elements.map fun el => (el.2.key, el.2.entry)

-- The map leads from each key in the list to its element, and nowhere else.
structure Linked (c : KeyCache α) : Prop where
  perm : c.items.Perm (c.ll.elements.map fun el => (el.2.key, el.1))
  nodup : (c.ll.elements.map (·.2.key)).Nodup

theorem keys_contents (c : KeyCache α) : c.contents.map (·.1) = c.ll.elements.map (·.2.key) := by
  rw [contents, List.map_map]
  rfl

theorem length_contents (c : KeyCache α) : c.contents.length = c.ll.elements.length :=
  List.length_map _

theorem mem_contents (ha : (a, ⟨hash, e⟩) ∈ c.ll.elements) : (hash, e) ∈ c.contents :=
  List.mem_map.mpr ⟨_, ha, rfl⟩

namespace Linked

theorem keys_perm (h : Linked c) : (Assoc.keys c.items).Perm (c.ll.elements.map (·.2.key)) := by
  have hp := h.perm.map Prod.fst
  rwa [List.map_map] at hp

theorem len_eq (h : Linked c) : c.len = c.ll.elements.length := by
  rw [len, h.perm.length_eq, List.length_map]

theorem notMem_contents (h : Linked c) (hl : c.items.lookup hash = none) : hash ∉ c.contents.map (·.1) := by
  rw [keys_contents, ← h.keys_perm.mem_iff]
  intro hk
  obtain ⟨a, ha⟩ := Assoc.mem_keys.mp hk
  have hne := List.lookup_eq_none_iff.mp hl _ ha
  simp at hne

theorem exists_element (h : Linked c) (hl : c.items.lookup hash = some a) : ∃ e, (a, ⟨hash, e⟩) ∈ c.ll.elements := by
  have hmem := h.perm.mem_iff.mp (Assoc.mem_of_lookup hl)
  obtain ⟨⟨a, ⟨hash, e⟩⟩, he, heq⟩ := List.mem_map.mp hmem
  cases heq
  exact ⟨e, he⟩

theorem others_map (h : Linked c) (ha : (a, ⟨hash, e⟩) ∈ c.ll.elements) (f : Nat × LruItem α → β) :
    Lru.others hash (c.ll.elements.map fun el => (el.2.key, f el)) =
      (c.ll.elements.filter (·.1 ≠ a)).map fun el => (el.2.key, f el) := by
  rw [Lru.others, List.filter_map]
  refine congrArg _ (List.filter_congr fun el hel => ?_)
  have hiff : el.2.key = hash ↔ el.1 = a := by
    constructor
    · intro hkey
      exact congrArg Prod.fst (List.inj_on_of_nodup_map h.nodup hel ha hkey)
    · intro haddr
      rw [List.inj_on_of_nodup_map c.ll.nodup_elements hel ha haddr]
  simp [hiff]

theorem moved {ll : LinkedList (LruItem α)} (h : Linked c) (ha : (a, ⟨hash, e⟩) ∈ c.ll.elements)
    (hll : ll.elements = (a, ⟨hash, e'⟩) :: c.ll.elements.filter (·.1 ≠ a)) : Linked { c with ll := ll } where
  perm := by
    rw [hll]
    exact h.perm.trans ((c.ll.elements_perm ha).map _)
  nodup := by
    rw [hll]
    exact ((c.ll.elements_perm ha).map _).nodup_iff.mp h.nodup

theorem contents_moved {ll : LinkedList (LruItem α)} (h : Linked c) (ha : (a, ⟨hash, e⟩) ∈ c.ll.elements)
    (hll : ll.elements = (a, ⟨hash, e'⟩) :: c.ll.elements.filter (·.1 ≠ a)) :
    contents { c with ll := ll } = (hash, e') :: Lru.others hash c.contents := by
  rw [contents, hll, contents, h.others_map ha]
  rfl

theorem pushed (h : Linked c) (hl : c.items.lookup hash = none) :
    Linked
      { c with
        ll := (c.ll.pushFront ⟨hash, e⟩).2
        items := (hash, (c.ll.pushFront ⟨hash, e⟩).1) :: Lru.others hash c.items } where
  perm := by
    have hself : Lru.others hash c.items = c.items := by
      refine List.filter_eq_self.mpr fun i hi => decide_eq_true ?_
      rintro rfl
      have hne := List.lookup_eq_none_iff.mp hl i hi
      simp at hne
    rw [LinkedList.elements_pushFront, List.map_cons, hself]
    exact h.perm.cons _
  nodup := by
    rw [LinkedList.elements_pushFront, List.map_cons, List.nodup_cons]
    exact ⟨keys_contents c ▸ h.notMem_contents hl, h.nodup⟩

theorem removed (h : Linked c) (hback : c.ll.back = some oldest) :
    Linked { c with ll := c.ll.remove oldest.1, items := Lru.others oldest.2.key c.items } where
  perm := by
    have hmem : oldest ∈ c.ll.elements := by
      rw [c.ll.elements_of_back hback]
      exact List.mem_append_right _ (List.mem_singleton_self _)
    rw [LinkedList.elements_remove, ← h.others_map hmem]
    exact h.perm.filter _
  nodup := by
    rw [LinkedList.elements_remove]
    exact h.nodup.sublist (List.filter_sublist.map _)

end Linked

theorem evict_spec (h : Linked c) :
    Linked c.evict ∧ c.evict.contents = c.contents.take c.maxEntries.toNat ∧ c.evict.maxEntries = c.maxEntries := by
  fun_induction evict c
  case case1 c hlt hback =>
    -- There is no element left although there are too many entries, which takes a negative bound.
    have hnil : c.contents = [] := by
      rw [LinkedList.back_eq, List.getLast?_eq_none_iff] at hback
      rw [contents, hback, List.map_nil]
    rw [hnil, List.take_nil]
    exact ⟨h, rfl, rfl⟩
  case case2 c hlt oldest hback hi =>
    obtain ⟨hlinked, hcontents, hmax⟩ := hi (h.removed hback)
    refine ⟨hlinked, ?_, hmax⟩
    have hsplit := c.ll.elements_of_back hback
    have hlen : c.maxEntries.toNat ≤ (c.ll.remove oldest.1).elements.length := by
      rw [h.len_eq, hsplit, List.length_append, List.length_singleton] at hlt
      omega
    rw [hcontents, contents, contents, hsplit, List.map_append, List.take_append_of_le_length]
    rwa [List.length_map]
  case case3 c hle =>
    rw [h.len_eq, ← length_contents] at hle
    exact ⟨h, (List.take_of_length_le (by omega)).symm, rfl⟩

structure Refines (c : KeyCache α) (l : Lru String α max) : Prop where
  max_eq : c.maxEntries.toNat = max
  linked : Linked c
  contents_eq : c.contents = l.items

theorem Refines.get (h : Refines c l) (hash : String) :
    (c.get hash).1 = (l.get hash).1 ∧ Refines (c.get hash).2 (l.get hash).2 := by
  unfold KeyCache.get
  split
  case h_1 hl =>
    rw [Lru.get_of_notMem (h.contents_eq ▸ h.linked.notMem_contents hl)]
    exact ⟨rfl, h⟩
  case h_2 a hl =>
    obtain ⟨e, ha⟩ := h.linked.exists_element hl
    have hmem : (hash, e) ∈ l.items := h.contents_eq ▸ mem_contents ha
    have hll := c.ll.elements_moveToFront ha
    have hvalue : (c.ll.moveToFront a).value a = some ⟨hash, e⟩ :=
      LinkedList.value_of_mem (by rw [hll]; exact List.mem_cons_self)
    dsimp only
    rw [Lru.get_of_mem hmem, hvalue]
    refine ⟨rfl, { max_eq := h.max_eq, linked := h.linked.moved ha hll, contents_eq := ?_ }⟩
    rw [h.linked.contents_moved ha hll, h.contents_eq, Lru.items_put_of_mem (List.mem_map_of_mem hmem)]

theorem Refines.put (h : Refines c l) (hash : String) (e : α) : Refines (c.put hash e) (l.put hash e) := by
  unfold KeyCache.put
  split
  case h_1 a hl =>
    obtain ⟨e₀, ha⟩ := h.linked.exists_element hl
    have hmem : (hash, e₀) ∈ l.items := h.contents_eq ▸ mem_contents ha
    have hll := c.ll.elements_moveToFront_modify ({ · with entry := e }) ha
    refine { max_eq := h.max_eq, linked := h.linked.moved ha hll, contents_eq := ?_ }
    rw [h.linked.contents_moved ha hll, h.contents_eq, Lru.items_put_of_mem (List.mem_map_of_mem hmem)]
  case h_2 hl =>
    have hnot : hash ∉ l.items.map (·.1) := h.contents_eq ▸ h.linked.notMem_contents hl
    obtain ⟨hlinked, hcontents, hmax⟩ := evict_spec (h.linked.pushed (e := e) hl)
    refine { max_eq := (congrArg Int.toNat hmax).trans h.max_eq, linked := hlinked, contents_eq := ?_ }
    rw [hcontents, Lru.items_put_of_notMem hnot, contents, LinkedList.elements_pushFront, List.map_cons, ← contents,
      h.contents_eq, h.max_eq]

theorem refines_new (maxEntries : Int) :
    Refines (newKeyCache maxEntries : KeyCache α) (.empty : Lru String α maxEntries.toNat) where
  max_eq := rfl
  linked := { perm := .nil, nodup := .nil }
  contents_eq := rfl

theorem Refines.call (h : Refines c l) (x : Lru.Call String α) : Refines (c.call x) (l.call x) := by
  cases x
  case get hash => exact (h.get hash).right
  case put hash e => exact h.put hash e

theorem refines_run (maxEntries : Int) (calls : List (Lru.Call String α)) :
    Refines (run maxEntries calls) (calls.foldl Lru.call (.empty : Lru String α maxEntries.toNat)) := by
  induction calls using List.reverseRecOn
  case nil => exact refines_new maxEntries
  case append_singleton calls x hi =>
    rw [run, List.foldl_append, List.foldl_append]
    exact hi.call x

-- A lookup finds what was put last for the keys that were used last, and nothing for the others.
-- Between calls, map and list hold the same keys, each once, and no more of them than they may.
theorem run_ideal (maxEntries : Int) (calls : List (Lru.Call String α)) :
    (∀ hash, ((run maxEntries calls).get hash).1 = Lru.ideal maxEntries.toNat calls hash) ∧
      (Assoc.keys (run maxEntries calls).items).Perm ((run maxEntries calls).ll.elements.map (·.2.key)) ∧
      (Assoc.keys (run maxEntries calls).items).Nodup ∧
      (run maxEntries calls).len ≤ maxEntries.toNat := by
  have h := refines_run maxEntries calls
  refine ⟨fun hash => ?_, h.linked.keys_perm, h.linked.keys_perm.nodup_iff.mpr h.linked.nodup, ?_⟩
  · rw [(h.get hash).left, (Lru.recent_run calls).get hash]
  · rw [h.linked.len_eq, ← length_contents, h.contents_eq]
    exact Lru.bounded _

end KeyCache
end Tenantauth
