import OtelFleet.Lib.Yaml
import OtelFleet.Lib.Strconv

-- A collector config, read as the graph along which telemetry travels.
namespace Collector

open Yaml (Entries Node)
open Assoc (keys)

structure Component where
  id : String
  config : Option Node

-- The hand-over of a resource to an exporter: the service pipeline that hands it over, and the
-- processors that it has passed since it entered.
structure Delivery where
  pipeline : String
  processors : List Component
  exporter : Component

def servicePipelines (cfg : Node) : Entries :=
  (cfg.get? "service").elim [] (·.section? "pipelines")

def component (components : Entries) (id : String) : Component :=
  { id := id, config := components.lookup id }

def receives (cfg : Node) (connector pipeline : String) : Bool :=
  ((servicePipelines cfg).lookup pipeline).any fun node => (node.strings "receivers").contains connector

abbrev Attributes := List (String × String)

-- The attribute and the text that a condition `resource.attributes["..."] == "..."` compares.
def comparison? (condition : String) : Option (String × String) := do
  let rest ← condition.toList.dropPrefix? "resource.attributes[".toList
  let key ← Strconv.unquote? rest
  let rest ← key.2.dropPrefix? "] == ".toList
  let value ← Strconv.unquote? rest
  if value.2 = [] then some (key.1, value.1) else none

def meets (resource : Attributes) (condition : String) : Bool :=
  (comparison? condition).any fun c => resource.lookup c.1 = some c.2

-- The pipelines to which a routing connector hands a resource: those of the first table entry whose
-- condition the resource meets, else the default ones.
def route (resource : Attributes) (connector : Node) : List String :=
  let table := (connector.get? "table").elim [] (·.items)
  match table.find? fun e => ((e.get? "condition").bind (·.str?)).any (meets resource) with
  | some e => e.strings "pipelines"
  | none => connector.strings "default_pipelines"

-- Where a resource goes from a service pipeline on. The fuel bounds the number of service pipelines
-- on a path.
def deliveries (cfg : Node) (resource : Attributes) : Nat → List Component → String → List Delivery
  | 0, _, _ => []
  | fuel + 1, passed, id =>
    match (servicePipelines cfg).lookup id with
    | none => []
    | some node =>
      let passed := passed ++ (node.strings "processors").map (component (cfg.section? "processors"))
      (node.strings "exporters").flatMap fun out =>
        match (cfg.section? "connectors").lookup out with
        | some connector =>
          ((route resource connector).filter (receives cfg out)).flatMap
            (deliveries cfg resource fuel passed)
        | none =>
          [{ pipeline := id, processors := passed
             exporter := component (cfg.section? "exporters") out }]

def tablePipelines (connector : Node) : List String :=
  ((connector.get? "table").elim [] (·.items)).flatMap (·.strings "pipelines")

-- A config in which every name is defined once and every reference leads somewhere.
structure Closed (cfg : Node) : Prop where
  sections : ∀ key ∈ ["receivers", "processors", "exporters", "connectors"],
    (keys (cfg.section? key)).Nodup
  pipelines : (keys (servicePipelines cfg)).Nodup
  receivers : ∀ e ∈ servicePipelines cfg, ∀ id ∈ e.2.strings "receivers",
    id ∈ keys (cfg.section? "receivers") ∨ id ∈ keys (cfg.section? "connectors")
  processors : ∀ e ∈ servicePipelines cfg, ∀ id ∈ e.2.strings "processors",
    id ∈ keys (cfg.section? "processors")
  exporters : ∀ e ∈ servicePipelines cfg, ∀ id ∈ e.2.strings "exporters",
    id ∈ keys (cfg.section? "exporters") ∨ id ∈ keys (cfg.section? "connectors")
  routed : ∀ c ∈ cfg.section? "connectors", ∀ id ∈ tablePipelines c.2 ++ c.2.strings "default_pipelines",
    id ∈ keys (servicePipelines cfg) ∧ receives cfg c.1 id
  fed : ∀ id ∈ keys (cfg.section? "connectors"), ∃ e ∈ servicePipelines cfg, id ∈ e.2.strings "exporters"
  drained : ∀ id ∈ keys (cfg.section? "connectors"), ∃ e ∈ servicePipelines cfg, id ∈ e.2.strings "receivers"
  used : ∀ id ∈ keys (cfg.section? "exporters"), ∃ e ∈ servicePipelines cfg, id ∈ e.2.strings "exporters"
  ends : ∀ e ∈ servicePipelines cfg, e.2.strings "receivers" ≠ [] ∧ e.2.strings "exporters" ≠ []

theorem deliveries_succ {id : String} (resource : Attributes)
    (fuel : Nat) (h : (servicePipelines cfg).lookup id = some node) :
    deliveries cfg resource (fuel + 1) passed id =
      (node.strings "exporters").flatMap fun out =>
        match (cfg.section? "connectors").lookup out with
        | some connector =>
          ((route resource connector).filter (receives cfg out)).flatMap
            (deliveries cfg resource fuel
              (passed ++ (node.strings "processors").map (component (cfg.section? "processors"))))
        | none =>
          [{ pipeline := id
             processors :=
               passed ++ (node.strings "processors").map (component (cfg.section? "processors"))
             exporter := component (cfg.section? "exporters") out }] := by
  simp only [deliveries, h]

theorem deliveries_leaf {id : String} (resource : Attributes) (fuel : Nat)
    (h : (servicePipelines cfg).lookup id = some node)
    (hc : ∀ out ∈ node.strings "exporters", out ∉ keys (cfg.section? "connectors")) :
    deliveries cfg resource (fuel + 1) passed id =
      (node.strings "exporters").map fun out =>
        { pipeline := id
          processors :=
            passed ++ (node.strings "processors").map (component (cfg.section? "processors"))
          exporter := component (cfg.section? "exporters") out } := by
  rw [deliveries_succ resource fuel h]
  refine (List.flatMap_congr fun out ho => ?_).trans List.map_eq_flatMap.symm
  simp only [Assoc.lookup_eq_none (hc out ho)]

end Collector
