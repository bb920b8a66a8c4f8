import OtelFleet.Pipelines.Validate
import OtelFleet.Pipelines.Theorems.Naming

namespace Pipelines

def componentIDs (c p : String) (nodes : List Node) : List String :=
  nodes.zipIdx.map fun (n, i) => componentID n i c p

structure ValidNodes (kind : Catalog.Kind) (nodes : List Node) : Prop where
  known : ∀ n ∈ nodes, ∃ comp, Catalog.lookup kind n.type = some comp
  named : ∀ n ∈ nodes, n.Named
  ids : (componentIDs "c" "p" nodes).Nodup

structure Graph.Valid (g : Graph) : Prop where
  signals : ∀ sig ∈ g.signals, sig ∈ Signals
  distinct : g.signals.Nodup
  processors : ValidNodes .processor g.processors
  exporters : ValidNodes .exporter g.exporters

theorem nameIssues_eq_nil (h : nameIssues base n = []) : n.Named := by
  intro name hn hne
  simp only [nameIssues, hn] at h
  split_ifs at h with hc
  simpa [hne] using hc

variable [Runtime]

theorem signalIssues_eq_nil (h : signalIssues i seen sigs = []) :
    (∀ sig ∈ sigs, sig ∈ Signals) ∧ sigs.Nodup ∧ ∀ sig ∈ sigs, sig ∉ seen := by
  induction sigs generalizing i seen
  case nil => simp
  case cons sig sigs hi =>
    simp only [signalIssues, List.append_eq_nil_iff] at h
    have ⟨hs, hn, hd⟩ := hi h.right
    have ⟨hv, hm⟩ : sig ∈ Signals ∧ sig ∉ seen := by
      have h := h.left
      split_ifs at h with h₁ h₂
      exact ⟨by simpa [validSignal] using h₁, h₂⟩
    simp only [List.mem_cons, not_or] at hd
    refine ⟨?_, List.nodup_cons.mpr ⟨fun hc => (hd sig hc).left rfl, hn⟩, ?_⟩
    · rintro s (_ | ⟨_, hs'⟩)
      exacts [hv, hs s hs']
    · rintro s (_ | ⟨_, hs'⟩)
      exacts [hm, (hd s hs').right]

-- `seen` holds the component IDs of the nodes before index `i`.
theorem validateNodesFrom_eq_nil (h : validateNodesFrom field kind i seen nodes = []) :
    (∀ n ∈ nodes, ∃ comp, Catalog.lookup kind n.type = some comp) ∧ (∀ n ∈ nodes, n.Named) ∧
    ((nodes.zipIdx i).map fun (n, j) => componentID n j "c" "p").Nodup ∧
    ∀ e ∈ nodes.zipIdx i, componentID e.1 e.2 "c" "p" ∉ Assoc.keys seen := by
  induction nodes generalizing i seen
  case nil => simp
  case cons n ns hi =>
    simp only [validateNodesFrom, List.append_eq_nil_iff] at h
    have hname := nameIssues_eq_nil h.left
    have h := h.right
    split at h
    case _ => simp at h
    case _ comp hc =>
      simp only [List.append_eq_nil_iff] at h
      have ⟨hk, hnm, hd, hs⟩ := hi h.right
      have hnew : componentID n i "c" "p" ∉ Assoc.keys seen := by
        have h := h.left.left
        split at h
        case _ => simp at h
        case _ hl =>
          intro hm
          have ⟨j, hj⟩ := Assoc.mem_keys.mp hm
          have := List.lookup_eq_none_iff.mp hl _ hj
          simp at this
      simp only [Assoc.keys_cons, List.mem_cons, not_or] at hs
      refine ⟨?_, ?_, ?_, ?_⟩
      · exact List.forall_mem_cons.mpr ⟨⟨comp, hc⟩, hk⟩
      · exact List.forall_mem_cons.mpr ⟨hname, hnm⟩
      · rw [List.zipIdx_cons, List.map_cons, List.nodup_cons]
        refine ⟨fun hm => ?_, hd⟩
        have ⟨e, he, heq⟩ := List.mem_map.mp hm
        exact (hs e he).left heq
      · rw [List.zipIdx_cons]
        exact List.forall_mem_cons.mpr ⟨hnew, fun e he => (hs e he).right⟩

theorem ValidNodes.of_validateNodes (h : validateNodes field kind nodes = []) : ValidNodes kind nodes :=
  have ⟨hk, hn, hd, _⟩ := validateNodesFrom_eq_nil h
  ⟨hk, hn, hd⟩

theorem Graph.Valid.of_validateStructural (h : validateStructural g = []) : g.Valid := by
  simp only [validateStructural, List.append_eq_nil_iff] at h
  have ⟨⟨⟨⟨_, hsig⟩, _⟩, hproc⟩, hexp⟩ := h
  have ⟨hs, hd, _⟩ := signalIssues_eq_nil hsig
  exact ⟨hs, hd, .of_validateNodes hproc, .of_validateNodes hexp⟩

end Pipelines
