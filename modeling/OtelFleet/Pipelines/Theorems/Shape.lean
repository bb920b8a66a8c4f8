import OtelFleet.Lib.Paired
import OtelFleet.Pipelines.Theorems.Render

-- What the rendered config owes to the configs of the nodes, and what it does not.
namespace Pipelines

open RenderPipeline

structure SameShape (p q : RenderPipeline) : Prop where
  customerSlug : p.customerSlug = q.customerSlug
  clientID : p.clientID = q.clientID
  pipelineSlug : p.pipelineSlug = q.pipelineSlug
  signals : p.graph.signals = q.graph.signals
  processors : p.nodeIDs p.graph.processors = q.nodeIDs q.graph.processors
  exporters : p.nodeIDs p.graph.exporters = q.nodeIDs q.graph.exporters

theorem SameShape.refl (p : RenderPipeline) : SameShape p p :=
  ⟨rfl, rfl, rfl, rfl, rfl, rfl⟩

namespace SameShape

theorem key (h : SameShape p q) : p.key = q.key := by
  simp only [RenderPipeline.key, h.customerSlug, h.pipelineSlug]

theorem collectorID (h : SameShape p q) (sig : String) : p.collectorID sig = q.collectorID sig := by
  simp only [RenderPipeline.collectorID, h.customerSlug, h.pipelineSlug]

theorem hasSignal (h : SameShape p q) (sig : String) : p.graph.hasSignal sig = q.graph.hasSignal sig := by
  simp only [Graph.hasSignal, h.signals]

theorem processors_eq_nil (h : SameShape p q) : p.graph.processors = [] ↔ q.graph.processors = [] := by
  have hnil : ∀ p : RenderPipeline, ∀ ns, p.nodeIDs ns = [] ↔ ns = [] := by simp [nodeIDs]
  rw [← hnil p, h.processors, hnil]

theorem forwardingPipeline (h : SameShape p q) (sig : String) :
    Pipelines.forwardingPipeline sig p = Pipelines.forwardingPipeline sig q := by
  simp only [Pipelines.forwardingPipeline, h.processors_eq_nil, h.processors, h.exporters]

theorem edgePipeline (h : SameShape p q) : Pipelines.edgePipeline p = Pipelines.edgePipeline q := by
  simp only [Pipelines.edgePipeline, h.processors, h.exporters]

theorem customerPipelines (h : SameShape p q) (hn : ∀ sig, node sig p = node sig q) :
    Pipelines.customerPipelines node p = Pipelines.customerPipelines node q := by
  have hs : p.graph.hasSignal = q.graph.hasSignal := funext h.hasSignal
  simp only [Pipelines.customerPipelines, hs, h.collectorID, hn]

end SameShape

section Lists

theorem forall₂_sortPipelines (hR : ∀ p q, R p q → SameShape p q) (h : List.Forall₂ R ps qs) :
    List.Forall₂ R (sortPipelines ps) (sortPipelines qs) := by
  refine h.insertionSort fun p q p' q' hpq hpq' => ?_
  have hs := hR p q hpq
  have hs' := hR p' q' hpq'
  simp only [le, hs.customerSlug, hs.pipelineSlug, hs'.customerSlug, hs'.pipelineSlug]

theorem forall₂_duplicateKey (h : List.Forall₂ SameShape ps qs) (seen : List String) :
    duplicateKey seen ps = duplicateKey seen qs := by
  induction h generalizing seen
  case nil => rfl
  case cons p q ps qs hpq _ hi => simp only [duplicateKey, hpq.key, hi]

theorem forall₂_signalsWith (h : List.Forall₂ SameShape ps qs) (sig : String) :
    List.Forall₂ SameShape (signalsWith ps sig) (signalsWith qs sig) := by
  have hone : ∀ p q, SameShape p q → ∀ l : List String,
      List.Forall₂ SameShape (l.map fun _ => p) (l.map fun _ => q) := by
    intro p q hpq l
    induction l
    case nil => exact .nil
    case cons _ _ hi => exact .cons hpq hi
  induction h
  case nil => exact .nil
  case cons p q ps qs hpq _ hi =>
    simp only [signalsWith, List.flatMap_cons, hpq.signals] at hi ⊢
    exact List.rel_append (hone p q hpq _) hi

theorem forall₂_routingTable (h : List.Forall₂ SameShape ps qs) (sig : String) :
    routingTable sig ps = routingTable sig qs := by
  suffices ∀ table, ps.foldl (addRoute sig) table = qs.foldl (addRoute sig) table from this []
  induction h
  case nil => exact fun _ => rfl
  case cons p q ps qs hpq _ hi =>
    intro table
    have ha : addRoute sig table p = addRoute sig table q := by
      simp only [addRoute, hpq.clientID, hpq.collectorID]
    rw [List.foldl_cons, List.foldl_cons, ha, hi]

theorem forall₂_forwardingPipelines (h : List.Forall₂ SameShape ps qs) :
    forwardingPipelines ps = forwardingPipelines qs := by
  have hs : sink ps = sink qs := by
    funext sig
    simp only [sink, (forall₂_signalsWith h sig).eq_nil_iff]
  rw [forwardingPipelines, forwardingPipelines, hs, h.flatMap_congr fun p q hpq =>
    hpq.customerPipelines fun sig => hpq.forwardingPipeline sig]

theorem forall₂_edgePipelines (h : List.Forall₂ SameShape ps qs) : edgePipelines ps = edgePipelines qs := by
  simp only [edgePipelines, h.eq_nil_iff]
  rw [h.flatMap_congr fun p q hpq => hpq.customerPipelines fun _ => hpq.edgePipeline]

variable [Runtime]

theorem forall₂_connectors (h : List.Forall₂ SameShape ps qs) : connectors ps = connectors qs := by
  have hc : ∀ sig, routingConnector sig (signalsWith ps sig) = routingConnector sig (signalsWith qs sig) :=
    fun sig => by simp only [routingConnector, forall₂_routingTable (forall₂_signalsWith h sig)]
  simp only [connectors, hc, ne_eq, (forall₂_signalsWith h _).eq_nil_iff]

def SameConfigs (p q : RenderPipeline) : Prop :=
  p.nodeEntries p.graph.processors = q.nodeEntries q.graph.processors ∧
    p.nodeEntries p.graph.exporters = q.nodeEntries q.graph.exporters

def fullTree : Store.TargetClass → List RenderPipeline → Yaml.Node
  | .forwarding => forwardingTree
  | .edge => edgeTree

theorem renderFull_eq_ok :
    renderFull targetClass ps = .ok text ↔ duplicateKey [] (sortPipelines ps) = none ∧
      Runtime.marshalYAML (fullTree targetClass (sortPipelines ps)) = text := by
  cases targetClass <;>
    cases hd : duplicateKey [] (sortPipelines ps) <;>
    simp [renderFull, renderForwardingConfig, renderEdgeConfig, hd, fullTree]

theorem length_nodeEntries (p : RenderPipeline) (ns : List Node) :
    (p.nodeEntries ns).length = (p.nodeIDs ns).length := by
  simp [nodeEntries, nodeIDs]

theorem fullTree_eq_iff (h : List.Forall₂ SameShape ps qs) (targetClass : Store.TargetClass) :
    fullTree targetClass ps = fullTree targetClass qs ↔ List.Forall₂ SameConfigs ps qs := by
  have hproc : allProcessors ps = allProcessors qs ↔ List.Forall₂ (fun p q =>
      p.nodeEntries p.graph.processors = q.nodeEntries q.graph.processors) ps qs := by
    rw [allProcessors, allProcessors, List.append_cancel_left_eq]
    refine h.flatMap_eq_iff fun p q hpq => ?_
    rw [length_nodeEntries, length_nodeEntries, hpq.processors]
  have hexp : (ps.flatMap fun p => p.nodeEntries p.graph.exporters) =
      (qs.flatMap fun p => p.nodeEntries p.graph.exporters) ↔ List.Forall₂ (fun p q =>
      p.nodeEntries p.graph.exporters = q.nodeEntries q.graph.exporters) ps qs := by
    refine h.flatMap_eq_iff fun p q hpq => ?_
    rw [length_nodeEntries, length_nodeEntries, hpq.exporters]
  have hboth : List.Forall₂ SameConfigs ps qs ↔
      allProcessors ps = allProcessors qs ∧ (ps.flatMap fun p => p.nodeEntries p.graph.exporters) =
        (qs.flatMap fun p => p.nodeEntries p.graph.exporters) := by
    rw [hproc, hexp]
    simp only [List.forall₂_iff_get, SameConfigs]
    constructor
    · exact fun ⟨hl, hg⟩ => ⟨⟨hl, fun i h₁ h₂ => (hg i h₁ h₂).left⟩, hl, fun i h₁ h₂ => (hg i h₁ h₂).right⟩
    · exact fun ⟨⟨hl, hp⟩, _, he⟩ => ⟨hl, fun i h₁ h₂ => ⟨hp i h₁ h₂, he i h₁ h₂⟩⟩
  rw [hboth]
  cases targetClass
  case forwarding =>
    have hdebug : (Signals.any fun sig => decide (signalsWith ps sig = [])) =
        Signals.any fun sig => decide (signalsWith qs sig = []) := by
      simp only [(forall₂_signalsWith h _).eq_nil_iff]
    simp only [fullTree, forwardingTree, forall₂_connectors h, forall₂_forwardingPipelines h,
      forwardingExporters, hdebug]
    constructor
    · intro he
      split_ifs at he <;> simp_all
    · rintro ⟨h₁, h₂⟩
      rw [h₁, h₂]
  case edge =>
    simp only [fullTree, edgeTree, forall₂_edgePipelines h, edgeExporters, h.eq_nil_iff,
      Yaml.Node.map.injEq, List.cons.injEq, Prod.mk.injEq, true_and, and_true,
      List.append_cancel_left_eq]

end Lists

end Pipelines
