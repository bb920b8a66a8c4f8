import OtelFleet.Opamp.Registry
import Mathlib.Data.List.Basic

-- What the operations of the registry keep.
namespace Opamp

open Store (UUID InstanceUID)

structure AgentConn.Same (st st' : AgentConn) : Prop where
  conn : st'.conn = st.conn
  instanceUID : st'.instanceUID = st.instanceUID
  agentID : st'.agentID = st.agentID
  customerID : st'.customerID = st.customerID
  capabilities : st'.capabilities = st.capabilities

theorem AgentConn.Same.refl (st : AgentConn) : st.Same st :=
  ⟨rfl, rfl, rfl, rfl, rfl⟩

theorem AgentConn.Same.trans {st₁ st₂ st₃ : AgentConn} (h : st₁.Same st₂) (h' : st₂.Same st₃) : st₁.Same st₃ :=
  ⟨h'.conn.trans h.conn, h'.instanceUID.trans h.instanceUID, h'.agentID.trans h.agentID,
    h'.customerID.trans h.customerID, h'.capabilities.trans h.capabilities⟩

theorem AgentConn.Same.accepts {st st' : AgentConn} (h : st.Same st') (capability : UInt64) :
    st'.accepts capability = st.accepts capability := by
  unfold AgentConn.accepts
  rw [h.capabilities]

namespace Registry

variable {r r' : Registry} {ref : Ref}

def Indexed (r : Registry) : Prop :=
  ∀ e ∈ r.byUID, e.2 < r.next ∧ (r.heap e.2).instanceUID = e.1

structure Touched (r r' : Registry) : Prop where
  heap : ∀ ref, (r.heap ref).Same (r'.heap ref)
  next : r'.next = r.next
  byUID : r'.byUID = r.byUID

theorem Touched.refl : r.Touched r :=
  ⟨fun _ => .refl _, rfl, rfl⟩

theorem Touched.trans {r'' : Registry} (h : r.Touched r') (h' : r'.Touched r'') : r.Touched r'' :=
  ⟨fun ref => (h.heap ref).trans (h'.heap ref), h'.next.trans h.next, h'.byUID.trans h.byUID⟩

theorem modify_touched (hf : ∀ st : AgentConn, st.Same (f st)) : r.Touched (r.modify ref f) where
  heap ref' := by
    simp only [modify, Function.update_apply]
    split_ifs with h
    · exact h ▸ hf (r.heap ref')
    · exact .refl _
  next := rfl
  byUID := rfl

theorem modifyBoth_touched (hf : ∀ st : AgentConn, st.Same (f st)) : r.Touched (r.modifyBoth ref f) := by
  have h : r.Touched (r.modify ref f) := modify_touched hf
  refine h.trans ?_
  unfold modifyBoth update
  split
  · exact modify_touched hf
  · exact .refl

theorem drainDirtySeen_touched : r.Touched r.drainDirtySeen.2 := by
  unfold drainDirtySeen
  generalize r.byUID.filter _ = dirty
  -- The states are handled one after another.
  suffices h : ∀ r' : Registry, r.Touched r' →
      r.Touched (dirty.foldl (fun r e => r.modify e.2 fun st => { st with dirtySeen := false }) r') from h r .refl
  induction dirty
  case nil => exact fun _ h => h
  case cons e rest hi =>
    exact fun r' h => hi _ (h.trans (modify_touched fun _ => ⟨rfl, rfl, rfl, rfl, rfl⟩))

theorem heap_foldl_modify (hf : ∀ st : AgentConn, f (f st) = f st) (l : List (InstanceUID × Ref)) (r : Registry)
    (ref : Ref) :
    (l.foldl (fun r e => r.modify e.2 f) r).heap ref = if ref ∈ l.map (·.2) then f (r.heap ref) else r.heap ref := by
  induction l generalizing r
  case nil => simp
  case cons e l hi =>
    rw [List.foldl_cons, hi]
    by_cases he : ref = e.2
    · subst he
      simp [modify, hf]
    · simp only [modify, Function.update_of_ne he, List.map_cons, List.mem_cons, he, false_or]

theorem heap_drainDirtySeen_eq (r : Registry) (ref : Ref) :
    r.drainDirtySeen.2.heap ref =
      if ∃ e ∈ r.byUID, e.2 = ref ∧ (r.heap ref).dirtySeen ∧ (r.heap ref).agentID ≠ Store.nilUUID then
        { r.heap ref with dirtySeen := false }
      else r.heap ref := by
  refine (@heap_foldl_modify (fun st => { st with dirtySeen := false }) (fun _ => rfl) _ r ref).trans ?_
  refine if_congr ?_ rfl rfl
  simp only [List.mem_map, List.mem_filter, decide_eq_true_eq]
  refine exists_congr fun e => ?_
  constructor
  · rintro ⟨⟨he, hdirty⟩, rfl⟩
    exact ⟨he, rfl, hdirty⟩
  · rintro ⟨he, rfl, hdirty⟩
    exact ⟨⟨he, hdirty⟩, rfl⟩

theorem Indexed.touched (hr : r.Indexed) (h : r.Touched r') : r'.Indexed := by
  intro e he
  rw [h.byUID] at he
  rw [h.next, (h.heap e.2).instanceUID]
  exact hr e he

theorem Indexed.put (hr : r.Indexed) (href : ref < r.next) : (r.put ref).Indexed := by
  intro e he
  obtain rfl | he := List.mem_cons.mp he
  · exact ⟨href, rfl⟩
  · exact hr e (List.mem_of_mem_filter he)

theorem heap_new_self (st : AgentConn) : (r.new st).2.heap r.next = st :=
  Function.update_self ..

theorem heap_new_of_lt (st : AgentConn) (h : ref < r.next) : (r.new st).2.heap ref = r.heap ref :=
  Function.update_of_ne (Nat.ne_of_lt h) ..

theorem Indexed.new (hr : r.Indexed) (st : AgentConn) : (r.new st).2.Indexed := by
  intro e he
  obtain ⟨hlt, huid⟩ := hr e he
  rw [heap_new_of_lt st hlt]
  exact ⟨hlt.trans (Nat.lt_succ_self _), huid⟩

theorem mem_of_ref? (h : r.ref? uid = some ref) : (uid, ref) ∈ r.byUID := by
  obtain ⟨l₁, l₂, hl, -⟩ := List.lookup_eq_some_iff.mp h
  simp [hl]

theorem mem_of_live? (h : r.live? uid = some st) : ∃ ref, (uid, ref) ∈ r.byUID ∧ r.heap ref = st := by
  obtain ⟨ref, href, hst⟩ := Option.map_eq_some_iff.mp h
  exact ⟨ref, mem_of_ref? href, hst⟩

theorem isSome_live? (r : Registry) (uid : InstanceUID) : (r.live? uid).isSome ↔ ∃ e ∈ r.byUID, e.1 = uid := by
  simp only [live?, ref?, Option.isSome_map, List.lookup_isSome_iff, beq_iff_eq]
  exact exists_congr fun e => and_congr_right fun _ => eq_comm

theorem removeConn_cases (r : Registry) (conn : ConnID) :
    (r.removeConn conn).1 = none ∧ (r.removeConn conn).2.byUID = r.byUID ∨
      ∃ uid st, (r.removeConn conn).1 = some st ∧ r.byConn conn = some uid ∧ r.live? uid = some st ∧ st.conn = conn ∧
        (r.removeConn conn).2.byUID = r.byUID.filter (·.1 ≠ uid) := by
  unfold removeConn
  split
  case h_1 => exact .inl ⟨rfl, rfl⟩
  case h_2 uid huid =>
    simp only
    split
    case h_1 => exact .inl ⟨rfl, rfl⟩
    case h_2 st hst =>
      split_ifs with hconn
      · exact .inr ⟨uid, st, rfl, huid, hst, hconn, rfl⟩
      · exact .inl ⟨rfl, rfl⟩

theorem removeConn_eq_some (h : (r.removeConn conn).1 = some st) : ∃ e ∈ r.byUID, r.heap e.2 = st ∧ st.conn = conn := by
  unfold removeConn at h
  split at h
  case h_1 => cases h
  case h_2 uid _ =>
    simp only at h
    split at h
    case h_1 => cases h
    case h_2 st' hst =>
      split_ifs at h with hconn
      cases h
      obtain ⟨ref, hmem, hheap⟩ := mem_of_live? hst
      exact ⟨(uid, ref), hmem, hheap, hconn⟩

theorem heap_removeConn (conn : ConnID) : (r.removeConn conn).2.heap = r.heap := by
  unfold removeConn
  split
  · rfl
  · simp only
    split
    · rfl
    · split_ifs
      all_goals rfl

theorem next_removeConn (conn : ConnID) : (r.removeConn conn).2.next = r.next := by
  unfold removeConn
  split
  · rfl
  · simp only
    split
    · rfl
    · split_ifs
      all_goals rfl

theorem byUID_removeConn_subset (conn : ConnID) : (r.removeConn conn).2.byUID ⊆ r.byUID := by
  unfold removeConn
  split
  · exact List.Subset.refl _
  · simp only
    split
    · exact List.Subset.refl _
    · split_ifs
      · exact List.filter_subset_self _
      · exact List.Subset.refl _

theorem Indexed.removeConn (hr : r.Indexed) (conn : ConnID) : (r.removeConn conn).2.Indexed := by
  intro e he
  rw [next_removeConn, heap_removeConn]
  exact hr e (byUID_removeConn_subset conn he)

end Registry
end Opamp
