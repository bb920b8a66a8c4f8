import OtelFleet.Pipelines.Theorems.Alike

-- What the fragment of a pipeline shows of its secrets.
namespace Pipelines

open Json (Value)
open Walk (Guide)
open RenderPipeline

variable [Runtime]

theorem toNode_mapMarks_eq_iff {G : Guide σ} (s : σ) (path : String) (v : Value) :
    toNode (G.mapMarks f s path v) = toNode (G.mapMarks f' s path v) ↔
      ∀ e ∈ G.marks s path v, toNode (f e.1 e.2) = toNode (f' e.1 e.2) := by
  induction s, path, v using G.walk_induction
  case mark s path v h => simp [Guide.mapMarks_of_marked h, Guide.marks_of_marked h]
  case leaf s path v h hl => simp [Guide.mapMarks_leaf hl h, Guide.marks_leaf hl h]
  case arr s path items h hi =>
    simp only [Guide.mapMarks_arr h, Guide.marks_arr h, toNode, toNodeItems_eq, List.map_map,
      Yaml.Node.seq.injEq, true_and, List.map_inj_left, Function.comp_apply, List.mem_flatMap]
    constructor
    · rintro ht e ⟨d, hd, he⟩
      exact (hi d hd).mp (ht d hd) e he
    · exact fun ht d hd => (hi d hd).mpr fun e he => ht e ⟨d, hd, he⟩
  case obj s path fields h hi =>
    simp only [Guide.mapMarks_obj h, Guide.marks_obj h, toNode, toNodeFields_eq,
      Assoc.sort_mapVals, Yaml.Node.map.injEq, List.mem_flatMap]
    simp only [Assoc.mapVals, List.map_map, List.map_inj_left, Function.comp_apply, Assoc.mem_sort,
      Prod.mk.injEq, true_and]
    constructor
    · rintro ht e ⟨d, hd, he⟩
      exact (hi d hd).mp (ht d hd) e he
    · exact fun ht d hd => (hi d hd).mpr fun e he => ht e ⟨d, hd, he⟩

theorem sameConfigs_mapSecrets_iff {f f' : String → Value → Value} (p : RenderPipeline) (g : Graph) :
    SameConfigs { p with graph := g.mapSecrets f } { p with graph := g.mapSecrets f' } ↔
      ∀ e ∈ g.secrets, toNode (f e.1 e.2) = toNode (f' e.1 e.2) := by
  have hentries : ∀ field kind (nodes : List Node),
      nodeEntries { p with graph := g.mapSecrets f } (mapNodeSecrets f field kind nodes) =
        nodeEntries { p with graph := g.mapSecrets f' } (mapNodeSecrets f' field kind nodes) ↔
      ∀ e ∈ nodeSecrets field kind nodes, toNode (f e.1 e.2) = toNode (f' e.1 e.2) := by
    intro field kind nodes
    simp only [nodeEntries, mapNodeSecrets, Walk.zipIdx_map_zipIdx, List.map_map, List.map_inj_left,
      Function.comp_apply, Node.value_mapSecrets, Prod.mk.injEq, toNode_mapMarks_eq_iff, nodeSecrets,
      List.mem_flatMap]
    constructor
    · rintro h e ⟨d, hd, he⟩
      exact (h d hd).right e he
    · exact fun h d hd => ⟨rfl, fun e he => h e ⟨d, hd, he⟩⟩
  simp only [SameConfigs, Graph.secrets, List.mem_append, or_imp, forall_and]
  exact and_congr (hentries _ _ _) (hentries _ _ _)

def fragmentTreeOf : Store.TargetClass → RenderPipeline → Yaml.Node
  | .forwarding => fragmentTree forwardingPipeline
  | .edge => fragmentTree fun _ => edgePipeline

theorem renderFragmentOf_eq (targetClass : Store.TargetClass) (p : RenderPipeline) :
    renderFragmentOf targetClass p = Runtime.marshalYAML (fragmentTreeOf targetClass p) := by
  cases targetClass <;> rfl

theorem fragmentTreeOf_eq_iff (h : SameShape p q) (targetClass : Store.TargetClass) :
    fragmentTreeOf targetClass p = fragmentTreeOf targetClass q ↔ SameConfigs p q := by
  have htree : ∀ node : String → RenderPipeline → Yaml.Node, (∀ sig, node sig p = node sig q) →
      (fragmentTree node p = fragmentTree node q ↔ SameConfigs p q) := by
    intro node hnode
    have hpipes := h.customerPipelines hnode
    by_cases hp : p.graph.processors = []
    case pos =>
      have hq := h.processors_eq_nil.mp hp
      simp [fragmentTree, SameConfigs, hp, hq, hpipes, nodeEntries]
    case neg =>
      have hq := mt h.processors_eq_nil.mpr hp
      simp [fragmentTree, SameConfigs, hp, hq, hpipes]
  cases targetClass
  case forwarding => exact htree _ h.forwardingPipeline
  case edge => exact htree _ fun _ => h.edgePipeline

end Pipelines
