import OtelFleet.Lib.Json

namespace Pipelines

def Signals : List String :=
  ["logs", "traces", "metrics"]

def validSignal (s : String) : Bool :=
  Signals.contains s

-- A processor or exporter of a pipeline graph. A missing config is told apart from an empty one.
structure Node where
  type : String
  name : Option String := none
  config : Option Json.Fields

structure Graph where
  signals : List String
  processors : List Node
  exporters : List Node

def Graph.hasSignal (g : Graph) (sig : String) : Bool :=
  g.signals.contains sig

def Node.value (n : Node) : Json.Value :=
  .obj (n.config.getD [])

structure Graph.WF (g : Graph) : Prop where
  processors : ∀ n ∈ g.processors, n.value.WF
  exporters : ∀ n ∈ g.exporters, n.value.WF

instance : DecidablePred Graph.WF := fun g =>
  decidable_of_iff ((∀ n ∈ g.processors, n.value.WF) ∧ ∀ n ∈ g.exporters, n.value.WF)
    ⟨fun h => ⟨h.left, h.right⟩, fun h => ⟨h.processors, h.exporters⟩⟩

inductive Document where
  | graph (g : Graph)
  | malformed (reason : String)

def Node.stored (n : Node) : Node :=
  { n with config := n.config.map fun fields =>
      Assoc.sort (Assoc.mapVals (fun _ v => v.stored) fields) }

def Graph.stored (g : Graph) : Graph :=
  { g with
    processors := g.processors.map Node.stored
    exporters := g.exporters.map Node.stored }

def marshalGraph (g : Graph) : Document :=
  .graph g.stored

def parseGraph : Document → Except String Graph
  | .graph g => .ok g
  | .malformed reason => .error ("parse pipeline graph: " ++ reason)

theorem Node.stored_value (n : Node) : n.stored.value = n.value.stored := by
  cases hc : n.config <;>
    simp [Node.stored, Node.value, hc, Json.Value.stored, Json.Value.storedFields_eq, Assoc.sort,
      Assoc.mapVals]

end Pipelines
