import OtelFleet.Otelfleetctl.Graphs
import OtelFleet.Pipelines.Theorems.Stored

open Json (Numeral Value)
open Pipelines (Node Graph)

-- What becomes of a graph on its way to the server and back.
namespace Otelfleetctl

section Nodes

theorem value_mapNumbers (f : Numeral → Numeral) (n : Node) : (mapNumbers f n).value = n.value.mapNumbers f := by
  cases hc : n.config <;> simp [mapNumbers, Node.value, hc, Value.mapNumbers, Value.mapNumbersFields_eq, Assoc.mapVals]

theorem value_encodedNode (n : Node) : (encodedNode n).value = n.value.encoded := by
  cases hc : n.config
  case none =>
    simp [encodedNode, Node.value, hc, Value.encoded, Value.mapNumbers, Value.sortKeys, Value.mapNumbersFields,
      Value.sortKeysFields, Assoc.sort]
  case some fields =>
    simp only [encodedNode, Node.value, hc, Option.map_some, Option.getD_some, Value.encoded, Value.mapNumbers,
      Value.sortKeys, Value.mapNumbersFields_eq, Value.sortKeysFields_eq]
    simp only [Assoc.mapVals, List.map_map, Function.comp_def]

theorem encodedNode_eq_iff : encodedNode n = encodedNode m ↔
    n.type = m.type ∧ n.name = m.name ∧ n.config.isSome = m.config.isSome ∧ n.value.encoded = m.value.encoded := by
  rw [← value_encodedNode, ← value_encodedNode]
  have hs (n : Node) : (encodedNode n).config.isSome = n.config.isSome := Option.isSome_map
  constructor
  · intro h
    have ht : (encodedNode n).type = (encodedNode m).type := congrArg Node.type h
    have hn : (encodedNode n).name = (encodedNode m).name := congrArg Node.name h
    refine ⟨ht, hn, ?_, congrArg Node.value h⟩
    rw [← hs n, ← hs m, h]
  · rintro ⟨ht, hn, hc, hv⟩
    exact Node.ext_value ht hn (by rw [hs, hs, hc]) hv

end Nodes

section Numbers

variable [Runtime]

-- A number that is written the same after the server has read it, stored it and given it back.
def Kept (a : Numeral) : Prop :=
  match a.encoded with
  | .float _ => True
  | .literal n => ∃ x ∈ Runtime.parseFloat n, ∃ y ∈ Runtime.parseFloat (.ofFloat x), Json.Number.printed y = n

instance : DecidablePred Kept := fun a =>
  match h : a.encoded with
  | .float _ => .isTrue (by simp only [Kept, h])
  | .literal n => decidable_of_iff
      (∃ x ∈ Runtime.parseFloat n, ∃ y ∈ Runtime.parseFloat (.ofFloat x), Json.Number.printed y = n)
      (by simp only [Kept, h])

def received (a : Numeral) : Numeral :=
  (a.encoded.decoded Runtime.parseFloat).stored

theorem kept_iff (h : a.encoded.readable Runtime.parseFloat) :
    Kept a ↔ (received a).readable Runtime.parseFloat ∧ ((received a).decoded Runtime.parseFloat).encoded = a.encoded := by
  obtain ⟨n, hn⟩ : ∃ n, a.encoded = .literal n := by cases a <;> exact ⟨_, rfl⟩
  simp only [Kept, received, hn] at h ⊢
  obtain ⟨x, hx⟩ := Option.isSome_iff_exists.mp h
  simp only [hx, Option.mem_def, Option.some.injEq, exists_eq_left', Numeral.decoded, Option.elim_some, Numeral.stored,
    Numeral.readable]
  cases hy : Runtime.parseFloat (.ofFloat x) <;> simp [Numeral.encoded]

end Numbers

section Trips

theorem mem_numerals_encoded {v : Value} : a ∈ v.encoded.numerals ↔ ∃ b ∈ v.numerals, b.encoded = a := by
  rw [Value.encoded, Value.mem_numerals_sortKeys, Value.numerals_mapNumbers, List.mem_map]

variable [Runtime]

def receivedNode (n : Node) : Node :=
  (decodedNode (encodedNode n)).stored

theorem readable_iff : readable n ↔ ∀ a ∈ n.value.numerals, a.readable Runtime.parseFloat :=
  List.all_eq_true

theorem value_receivedNode (n : Node) : (receivedNode n).value = (n.value.mapNumbers received).sortKeys := by
  rw [receivedNode, Node.stored_value, decodedNode, value_mapNumbers, value_encodedNode, Value.stored_eq, Value.encoded,
    Value.mapNumbers_mapNumbers, ← Value.sortKeys_mapNumbers, Value.sortKeys_sortKeys, Value.mapNumbers_mapNumbers]
  rfl

theorem readable_receivedNode :
    readable (receivedNode n) ↔ ∀ a ∈ n.value.numerals, (received a).readable Runtime.parseFloat := by
  simp only [readable_iff, value_receivedNode, Value.mem_numerals_sortKeys, Value.numerals_mapNumbers, List.forall_mem_map]

theorem encodedNode_received_iff (n : Node) : encodedNode (decodedNode (receivedNode n)) = encodedNode n ↔
    ∀ a ∈ n.value.numerals, ((received a).decoded Runtime.parseFloat).encoded = a.encoded := by
  have ht : (decodedNode (receivedNode n)).type = n.type := rfl
  have hn : (decodedNode (receivedNode n)).name = n.name := rfl
  have hs : (decodedNode (receivedNode n)).config.isSome = n.config.isSome := by
    cases hc : n.config <;> simp [decodedNode, receivedNode, mapNumbers, Node.stored, encodedNode, hc]
  rw [encodedNode_eq_iff, and_iff_right ht, and_iff_right hn, and_iff_right hs, decodedNode, value_mapNumbers,
    value_receivedNode, Value.encoded, Value.encoded, ← Value.sortKeys_mapNumbers, ← Value.sortKeys_mapNumbers,
    Value.sortKeys_sortKeys, Value.mapNumbers_mapNumbers, Value.mapNumbers_mapNumbers, Value.sortKeys_mapNumbers,
    Value.sortKeys_mapNumbers, Value.mapNumbers_eq_iff]
  simp only [Value.mem_numerals_sortKeys, Function.comp_apply]

end Trips

section Graphs

variable [Runtime] {g : PipelineGraph}

-- A graph that is written the same when it comes back from the server.
structure Canonical (g : PipelineGraph) : Prop where
  signals : g.signals.isSome
  processors : g.processors.isSome
  exporters : g.exporters.isSome
  numbers : ∀ n ∈ g.nodes, ∀ a ∈ n.value.numerals, Kept a

instance : DecidablePred Canonical := fun g =>
  decidable_of_iff
    (g.signals.isSome ∧ g.processors.isSome ∧ g.exporters.isSome ∧ ∀ n ∈ g.nodes, ∀ a ∈ n.value.numerals, Kept a)
    ⟨fun h => ⟨h.1, h.2.1, h.2.2.1, h.2.2.2⟩, fun h => ⟨h.signals, h.processors, h.exporters, h.numbers⟩⟩

omit [Runtime] in
theorem encoded_nodes (g : PipelineGraph) : g.encoded.nodes = g.nodes.map encodedNode := by
  cases hp : g.processors <;> cases he : g.exporters <;> simp [PipelineGraph.encoded, PipelineGraph.nodes, hp, he]

theorem fromAPIGraph_eq_some (h : fromAPIGraph g = some gr) :
    (∀ n ∈ g.nodes, ∀ a ∈ n.value.numerals, a.encoded.readable Runtime.parseFloat) ∧
    gr.stored = {
      signals := g.signals.getD []
      processors := (g.processors.getD []).map receivedNode
      exporters := (g.exporters.getD []).map receivedNode } := by
  simp only [fromAPIGraph, encoded_nodes] at h
  split_ifs at h with hr
  cases h
  constructor
  · intro n hn a ha
    have hn := List.all_eq_true.mp hr (encodedNode n) (List.mem_map_of_mem hn)
    rw [readable_iff, value_encodedNode] at hn
    exact hn a.encoded (mem_numerals_encoded.mpr ⟨a, ha, rfl⟩)
  · cases hp : g.processors <;> cases he : g.exporters <;>
      simp [Graph.stored, PipelineGraph.encoded, hp, he, Function.comp_def, receivedNode]

theorem encodedNodes_received_iff {nodes : List Node} :
    (nodes.map receivedNode).map (encodedNode ∘ decodedNode) = nodes.map encodedNode ↔
      ∀ n ∈ nodes, ∀ a ∈ n.value.numerals, ((received a).decoded Runtime.parseFloat).encoded = a.encoded := by
  rw [List.map_map, List.map_inj_left]
  exact forall₂_congr fun n _ => encodedNode_received_iff n

theorem readBack_iff (h : fromAPIGraph g = some gr) :
    (∃ g', toAPIGraph gr.stored = some g' ∧ graphEqual g' (.ok g)) ↔ Canonical g := by
  obtain ⟨hsent, hstored⟩ := fromAPIGraph_eq_some h
  have hread : ((gr.stored.processors ++ gr.stored.exporters).all readable) ↔
      ∀ n ∈ g.nodes, ∀ a ∈ n.value.numerals, (received a).readable Runtime.parseFloat := by
    rw [hstored, ← List.map_append, List.all_eq_true, List.forall_mem_map]
    exact forall₂_congr fun n _ => readable_receivedNode
  have hkept : (∀ n ∈ g.nodes, ∀ a ∈ n.value.numerals, Kept a) ↔
      (∀ n ∈ g.nodes, ∀ a ∈ n.value.numerals, (received a).readable Runtime.parseFloat) ∧
      ∀ n ∈ g.nodes, ∀ a ∈ n.value.numerals, ((received a).decoded Runtime.parseFloat).encoded = a.encoded := by
    constructor
    · intro h
      exact ⟨fun n hn a ha => ((kept_iff (hsent n hn a ha)).mp (h n hn a ha)).left,
        fun n hn a ha => ((kept_iff (hsent n hn a ha)).mp (h n hn a ha)).right⟩
    · exact fun h n hn a ha => (kept_iff (hsent n hn a ha)).mpr ⟨h.left n hn a ha, h.right n hn a ha⟩
  have hnodes : (∀ n ∈ g.nodes, ∀ a ∈ n.value.numerals, ((received a).decoded Runtime.parseFloat).encoded = a.encoded) ↔
      ((g.processors.getD []).map receivedNode).map (encodedNode ∘ decodedNode) = (g.processors.getD []).map encodedNode ∧
      ((g.exporters.getD []).map receivedNode).map (encodedNode ∘ decodedNode) = (g.exporters.getD []).map encodedNode := by
    rw [encodedNodes_received_iff, encodedNodes_received_iff, PipelineGraph.nodes, List.forall_mem_append]
  unfold toAPIGraph
  constructor
  · rintro ⟨g', hg', heq⟩
    split_ifs at hg' with hr
    cases hg'
    simp only [graphEqual, decide_eq_true_eq, PipelineGraph.encoded, PipelineGraph.mk.injEq, Option.map_some,
      List.map_map] at heq
    obtain ⟨hs, hp, he⟩ := heq
    obtain ⟨ps, hps, hp⟩ := Option.map_eq_some_iff.mp hp.symm
    obtain ⟨es, hes, he⟩ := Option.map_eq_some_iff.mp he.symm
    rw [hstored] at hp he
    refine ⟨by simp [← hs], by simp [hps], by simp [hes], hkept.mpr ⟨hread.mp hr, hnodes.mpr ?_⟩⟩
    simp only [hps, hes, Option.getD_some] at hp he ⊢
    exact ⟨hp.symm, he.symm⟩
  · rintro ⟨hs, hp, he, hnum⟩
    obtain ⟨hr, henc⟩ := hkept.mp hnum
    obtain ⟨hpe, hee⟩ := hnodes.mp henc
    obtain ⟨ss, hss⟩ := Option.isSome_iff_exists.mp hs
    obtain ⟨ps, hps⟩ := Option.isSome_iff_exists.mp hp
    obtain ⟨es, hes⟩ := Option.isSome_iff_exists.mp he
    refine ⟨_, if_pos (hread.mpr hr), ?_⟩
    simp only [hps, hes, Option.getD_some] at hpe hee
    simp only [graphEqual, decide_eq_true_eq, PipelineGraph.encoded, PipelineGraph.mk.injEq, Option.map_some, hstored, hss,
      hps, hes, Option.getD_some, Option.some.injEq, true_and, List.map_map] at hpe hee ⊢
    exact ⟨hpe, hee⟩

end Graphs

end Otelfleetctl
