import OtelFleet.Pipelines.Naming
import OtelFleet.Pipelines.Catalog

open Tenants

namespace Pipelines

theorem slash_sep (a b : String) : a ++ "/" ++ b = a ++ String.singleton '/' ++ b :=
  rfl

theorem underscores_sep (a b : String) : a ++ "__" ++ b = a ++ String.singleton '_' ++ ("_" ++ b) := by
  simp [← String.toList_inj]

theorem underscore_not_mem (h : IsSlug s) : '_' ∉ s.toList :=
  fun hm => absurd (h _ hm) (by decide)

theorem underscores_inj (h : '_' ∉ a.toList) (h' : '_' ∉ a'.toList)
    (he : a ++ "__" ++ b = a' ++ "__" ++ b') : a = a' ∧ b = b' := by
  rw [underscores_sep, underscores_sep] at he
  have ⟨ha, hb⟩ := Strconv.append_sep_inj h h' he
  exact ⟨ha, by simpa [← String.toList_inj] using hb⟩

theorem pipelineKey_inj (h : IsSlug c) (h' : IsSlug c') (he : pipelineKey c p = pipelineKey c' p') : c = c' ∧ p = p' :=
  underscores_inj (underscore_not_mem h) (underscore_not_mem h') he

theorem slash_not_mem_signal (h : sig ∈ Signals) : '/' ∉ sig.toList := by
  revert sig
  decide

theorem collectorPipelineID_inj (hs : sig ∈ Signals) (hs' : sig' ∈ Signals) (h : IsSlug c) (h' : IsSlug c')
    (he : collectorPipelineID sig c p = collectorPipelineID sig' c' p') : sig = sig' ∧ c = c' ∧ p = p' := by
  have ⟨h₁, h₂⟩ := Strconv.append_sep_inj (slash_not_mem_signal hs) (slash_not_mem_signal hs') he
  exact ⟨h₁, pipelineKey_inj h h' h₂⟩

theorem entryID_ne (hs : sig ∈ Signals) (hs' : sig' ∈ Signals) : sig ++ "/in" ≠ collectorPipelineID sig' c p := by
  intro he
  have he : sig ++ String.singleton '/' ++ "in" = sig' ++ String.singleton '/' ++ pipelineKey c p := by
    rw [← slash_sep, ← slash_sep, String.append_assoc]
    exact he
  have ⟨_, h⟩ := Strconv.append_sep_inj (slash_not_mem_signal hs) (slash_not_mem_signal hs') he
  have hm : '_' ∈ (pipelineKey c p).toList := by simp [pipelineKey]
  rw [← h] at hm
  exact absurd hm (by decide)

def Node.Named (n : Node) : Prop :=
  ∀ name, n.name = some name → name ≠ "" → validNodeName name

theorem isSlug_of_validNodeName (h : validNodeName name) : IsSlug name := by
  intro c hc
  unfold validNodeName at h
  split at h
  case _ => simp at h
  case _ d ds hd =>
    simp only [Bool.and_eq_true, List.all_eq_true] at h
    rw [hd] at hc
    obtain rfl | hc := List.mem_cons.mp hc
    · simp [isSlugChar, h.left.left]
    · exact h.right c hc

theorem isSlug_itoa (n : Nat) : IsSlug (Strconv.itoa n) := by
  intro c hc
  have hd := Strconv.isDigit_of_mem_itoa hc
  simp only [Char.isDigit, Bool.and_eq_true, decide_eq_true_eq] at hd
  simp only [isSlugChar, isAlnum, Bool.or_eq_true, Bool.and_eq_true, decide_eq_true_eq]
  exact .inl (.inr hd)

theorem isSlug_nodeSuffix (h : n.Named) (i : Nat) : IsSlug (nodeSuffix n i) := by
  unfold nodeSuffix
  split
  case _ name hn =>
    split_ifs with hne
    · exact isSlug_of_validNodeName (h name hn hne)
    · exact isSlug_itoa i
  case _ => exact isSlug_itoa i

theorem slash_not_mem_type (h : Catalog.lookup kind type = some comp) : '/' ∉ type.toList := by
  have ht : ∀ c ∈ Catalog.all, '/' ∉ c.type.toList := by decide
  have ⟨hm, _, he⟩ := Catalog.lookup_mem h
  exact he ▸ ht comp hm

theorem componentID_inj (ht : '/' ∉ n.type.toList) (ht' : '/' ∉ n'.type.toList)
    (hc : IsSlug c) (hc' : IsSlug c') (hp : IsSlug p) (hp' : IsSlug p')
    (he : componentID n i c p = componentID n' i' c' p') :
    n.type = n'.type ∧ c = c' ∧ p = p' ∧ nodeSuffix n i = nodeSuffix n' i' := by
  have hs : ∀ n : Node, ∀ i c p, componentID n i c p =
      n.type ++ String.singleton '/' ++ (c ++ "__" ++ (p ++ "__" ++ nodeSuffix n i)) := by
    intro n i c p
    simp [componentID, pipelineKey, ← String.toList_inj]
  rw [hs, hs] at he
  have ⟨h₁, he⟩ := Strconv.append_sep_inj ht ht' he
  have ⟨h₂, he⟩ := underscores_inj (underscore_not_mem hc) (underscore_not_mem hc') he
  have ⟨h₃, h₄⟩ := underscores_inj (underscore_not_mem hp) (underscore_not_mem hp') he
  exact ⟨h₁, h₂, h₃, h₄⟩

theorem slash_mem_componentID (n : Node) (i : Nat) (c p : String) : '/' ∈ (componentID n i c p).toList := by
  simp [componentID]

end Pipelines
