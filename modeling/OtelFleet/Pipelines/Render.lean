import OtelFleet.Runtime
import OtelFleet.Pipelines.Naming

open Json (Value Fields)
open Yaml (Entries)

namespace Pipelines

structure RenderPipeline where
  customerSlug : String
  clientID : String
  pipelineSlug : String
  graph : Graph

section ToNode

variable [Runtime]

-- A literal renders as an integer if it is one, else as the float that it denotes.
def numberNode (n : Json.Number) : Yaml.Node :=
  match n.int64? with
  | some i => .plain (Strconv.formatInt i)
  | none =>
    match Runtime.parseFloat n with
    | some x => .plain (Strconv.formatG x)
    | none => .str n.text

mutual

def toNode : Value → Yaml.Node
  | .null => .plain "null"
  | .bool b => .plain (if b then "true" else "false")
  | .float x => .plain (Strconv.formatG x)
  | .number n => numberNode n
  | .str s => .str s
  | .arr items => .seq false (toNodeItems items)
  | .obj fields => .map (Assoc.sort (toNodeFields fields))

def toNodeItems : List Value → List Yaml.Node
  | [] => []
  | v :: vs => toNode v :: toNodeItems vs

def toNodeFields : Fields → Entries
  | [] => []
  | (k, v) :: fs => (k, toNode v) :: toNodeFields fs

end

theorem toNodeItems_eq (items : List Value) : toNodeItems items = items.map toNode := by
  induction items <;> simp_all [toNodeItems]

theorem toNodeFields_eq (fields : Fields) : toNodeFields fields = Assoc.mapVals (fun _ v => toNode v) fields := by
  induction fields
  case nil => rfl
  case cons e fs hi => simp [toNodeFields, hi, Assoc.mapVals]

end ToNode

def routingConnectorID (signal : String) : String :=
  "routing/tenants_" ++ signal

namespace RenderPipeline

def key (p : RenderPipeline) : String :=
  pipelineKey p.customerSlug p.pipelineSlug

def le (p q : RenderPipeline) : Prop :=
  p.customerSlug < q.customerSlug ∨ p.customerSlug = q.customerSlug ∧ p.pipelineSlug ≤ q.pipelineSlug

instance : DecidableRel le :=
  fun _ _ => inferInstanceAs <| Decidable <| _ ∨ _ ∧ _

def nodeIDs (p : RenderPipeline) (nodes : List Node) : List String :=
  nodes.zipIdx.map fun (n, i) => componentID n i p.customerSlug p.pipelineSlug

def nodeEntries [Runtime] (p : RenderPipeline) (nodes : List Node) : Entries :=
  nodes.zipIdx.map fun (n, i) =>
    (componentID n i p.customerSlug p.pipelineSlug, toNode n.value)

def collectorID (p : RenderPipeline) (sig : String) : String :=
  collectorPipelineID sig p.customerSlug p.pipelineSlug

end RenderPipeline

open RenderPipeline

def sortPipelines (pipelines : List RenderPipeline) : List RenderPipeline :=
  pipelines.insertionSort le

def duplicateKey : List String → List RenderPipeline → Option String
  | _, [] => none
  | seen, p :: ps => if p.key ∈ seen then some p.key else duplicateKey (p.key :: seen) ps

def signalsWith (ps : List RenderPipeline) (sig : String) : List RenderPipeline :=
  ps.flatMap fun p => (p.graph.signals.filter (· == sig)).map fun _ => p

def otlpReceiver : Yaml.Node :=
  .map [("protocols", .map [
    ("grpc", .map [("endpoint", .str "0.0.0.0:4317")]),
    ("http", .map [("endpoint", .str "0.0.0.0:4318")])])]

def defaultProcessors : Entries := [
  ("memory_limiter", .map [
    ("check_interval", .str "1s"),
    ("limit_percentage", .plain "80"),
    ("spike_limit_percentage", .plain "20")]),
  ("batch", .map [
    ("send_batch_size", .plain "8192"),
    ("timeout", .str "5s")])]

def extensions : Yaml.Node :=
  .map [("health_check", .map [("endpoint", .str "0.0.0.0:13133")])]

def telemetry : Yaml.Node :=
  .map [
    ("logs", .map [("level", .str "info")]),
    ("metrics", .map [("readers", .seq false [.map [("pull", .map [("exporter", .map [("prometheus",
      .map [("host", .str "0.0.0.0"), ("port", .plain "8888")])])])]])])]

def serviceNode (pipelines : Entries) : Yaml.Node :=
  .map [
    ("extensions", .ofStrings ["health_check"]),
    ("telemetry", telemetry),
    ("pipelines", .map pipelines)]

def entryPipeline (sink : String) : Yaml.Node :=
  .map [
    ("receivers", .ofStrings ["otlp"]),
    ("processors", .ofStrings ["memory_limiter", "batch"]),
    ("exporters", .ofStrings [sink])]

def forwardingPipeline (sig : String) (p : RenderPipeline) : Yaml.Node :=
  .map <|
    [("receivers", .ofStrings [routingConnectorID sig])] ++
    (if p.graph.processors = [] then []
      else [("processors", .ofStrings (p.nodeIDs p.graph.processors))]) ++
    [("exporters", .ofStrings (p.nodeIDs p.graph.exporters))]

def edgePipeline (p : RenderPipeline) : Yaml.Node :=
  .map [
    ("receivers", .ofStrings ["otlp"]),
    ("processors", .ofStrings (["memory_limiter", "batch"] ++ p.nodeIDs p.graph.processors)),
    ("exporters", .ofStrings (p.nodeIDs p.graph.exporters))]

def customerPipelines (node : String → RenderPipeline → Yaml.Node) (p : RenderPipeline) : Entries :=
  (Signals.filter p.graph.hasSignal).map fun sig => (p.collectorID sig, node sig p)

def sink (ps : List RenderPipeline) (sig : String) : String :=
  if signalsWith ps sig = [] then "debug" else routingConnectorID sig

def forwardingPipelines (ps : List RenderPipeline) : Entries :=
  (Signals.map fun sig => (sig ++ "/in", entryPipeline (sink ps sig))) ++
    ps.flatMap (customerPipelines forwardingPipeline)

def edgePipelines (ps : List RenderPipeline) : Entries :=
  (if ps = [] then Signals.map fun sig => (sig ++ "/in", entryPipeline "debug") else []) ++
    ps.flatMap (customerPipelines fun _ => edgePipeline)

section Routing

def addRoute (sig : String) (table : List (String × List String)) (p : RenderPipeline) : List (String × List String) :=
  if p.clientID ∈ Assoc.keys table then
    table.map fun e => if e.1 = p.clientID then (e.1, e.2 ++ [p.collectorID sig]) else e
  else
    table ++ [(p.clientID, [p.collectorID sig])]

def routingTable (sig : String) (routed : List RenderPipeline) : List (String × List String) :=
  routed.foldl (addRoute sig) []

variable [Runtime]

def routingCondition (clientID : String) : String :=
  "resource.attributes[\"tenant.id\"] == " ++ Strconv.quote Runtime.isPrint clientID

def routingEntry (e : String × List String) : Yaml.Node :=
  .map [
    ("condition", .str (routingCondition e.1)),
    ("pipelines", .ofStrings e.2)]

def routingConnector (sig : String) (routed : List RenderPipeline) : Yaml.Node :=
  .map [
    ("default_pipelines", .ofStrings []),
    ("error_mode", .str "ignore"),
    ("table", .seq false ((routingTable sig routed).map routingEntry))]

def connectors (ps : List RenderPipeline) : Entries :=
  (Signals.filter fun sig => signalsWith ps sig ≠ []).map fun sig =>
    (routingConnectorID sig, routingConnector sig (signalsWith ps sig))

end Routing

variable [Runtime]

def forwardingExporters (ps : List RenderPipeline) : Entries :=
  (if Signals.any fun sig => signalsWith ps sig = [] then [("debug", .map [])] else []) ++
    ps.flatMap fun p => p.nodeEntries p.graph.exporters

def allProcessors (ps : List RenderPipeline) : Entries :=
  defaultProcessors ++ ps.flatMap fun p => p.nodeEntries p.graph.processors

def forwardingTree (ps : List RenderPipeline) : Yaml.Node :=
  .map <|
    [("receivers", .map [("otlp", otlpReceiver)]),
     ("processors", .map (allProcessors ps))] ++
    (if connectors ps = [] then [] else [("connectors", .map (connectors ps))]) ++
    [("exporters", .map (forwardingExporters ps)),
     ("extensions", extensions),
     ("service", serviceNode (forwardingPipelines ps))]

-- Renders the complete config of the forwarding tier from all active pipelines. Signals that no
-- customer pipeline carries lead to `debug`, so that the config is always valid.
def renderForwardingConfig (pipelines : List RenderPipeline) : Except String String :=
  let ps := sortPipelines pipelines
  match duplicateKey [] ps with
  | some key =>
    .error ("duplicate pipeline key " ++ Strconv.quote Runtime.isPrint key ++ " in rendered config")
  | none => .ok (Runtime.marshalYAML (forwardingTree ps))

def edgeExporters (ps : List RenderPipeline) : Entries :=
  (if ps = [] then [("debug", .map [])] else []) ++
    ps.flatMap fun p => p.nodeEntries p.graph.exporters

def edgeTree (ps : List RenderPipeline) : Yaml.Node :=
  .map [
    ("receivers", .map [("otlp", otlpReceiver)]),
    ("processors", .map (allProcessors ps)),
    ("exporters", .map (edgeExporters ps)),
    ("extensions", extensions),
    ("service", serviceNode (edgePipelines ps))]

def renderEdgeConfig (pipelines : List RenderPipeline) : Except String String :=
  let ps := sortPipelines pipelines
  match duplicateKey [] ps with
  | some key =>
    .error ("duplicate pipeline key " ++ Strconv.quote Runtime.isPrint key ++
      " in rendered edge config")
  | none => .ok (Runtime.marshalYAML (edgeTree ps))

def fragmentTree (node : String → RenderPipeline → Yaml.Node) (p : RenderPipeline) : Yaml.Node :=
  .map <|
    (if p.graph.processors = [] then []
      else [("processors", .map (p.nodeEntries p.graph.processors))]) ++
    [("exporters", .map (p.nodeEntries p.graph.exporters)),
     ("service", .map [("pipelines", .map (customerPipelines node p))])]

def renderFragment (p : RenderPipeline) : String :=
  Runtime.marshalYAML (fragmentTree forwardingPipeline p)

def renderEdgeFragment (p : RenderPipeline) : String :=
  Runtime.marshalYAML (fragmentTree (fun _ => edgePipeline) p)

end Pipelines
