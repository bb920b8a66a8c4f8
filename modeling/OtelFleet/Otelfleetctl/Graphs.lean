import OtelFleet.Lib.JsonText
import OtelFleet.Api.Pipelines

open Json (Numeral)
open Pipelines (Node Graph)

deriving instance DecidableEq for Pipelines.Node

-- The graphs of pipelines as the command line tool handles them.
namespace Otelfleetctl

-- A graph as it is written down. A list that is left out is told apart from an empty one, and the
-- numbers of a config are integers or floats.
structure PipelineGraph where
  signals : Option (List String)
  processors : Option (List Node)
  exporters : Option (List Node)
deriving DecidableEq

section Nodes

def mapNumbers (f : Numeral → Numeral) (n : Node) : Node :=
  { n with config := n.config.map (Assoc.mapVals fun _ v => v.mapNumbers f) }

def encodedNode (n : Node) : Node :=
  { n with config := n.config.map fun fields => Assoc.sort (Assoc.mapVals (fun _ v => v.encoded) fields) }

end Nodes

namespace PipelineGraph

def nodes (g : PipelineGraph) : List Node :=
  g.processors.getD [] ++ g.exporters.getD []

def encoded (g : PipelineGraph) : PipelineGraph :=
  { g with
    processors := g.processors.map (List.map encodedNode)
    exporters := g.exporters.map (List.map encodedNode) }

end PipelineGraph

def graphEqual (a : PipelineGraph) : Except String PipelineGraph → Bool
  | .ok b => a.encoded = b.encoded
  | .error _ => false

section Transport

variable [Runtime]

def readable (n : Node) : Bool :=
  n.value.numerals.all (Numeral.readable Runtime.parseFloat)

def decodedNode (n : Node) : Node :=
  mapNumbers (Numeral.decoded Runtime.parseFloat) n

def fromAPIGraph (g : PipelineGraph) : Option Graph :=
  if g.encoded.nodes.all readable then
    some {
      signals := g.signals.getD []
      processors := (g.encoded.processors.getD []).map decodedNode
      exporters := (g.encoded.exporters.getD []).map decodedNode }
  else none

def toAPIGraph (g : Graph) : Option PipelineGraph :=
  if (g.processors ++ g.exporters).all readable then
    some {
      signals := some g.signals
      processors := some (g.processors.map decodedNode)
      exporters := some (g.exporters.map decodedNode) }
  else none

end Transport

end Otelfleetctl
