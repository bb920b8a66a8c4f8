import OtelFleet.Pipelines.Theorems.Render
import OtelFleet.Collector.Tenantstamp

-- Where the telemetry of a tenant goes in the rendered config.
namespace Pipelines

open RenderPipeline Collector

section Deliveries

variable [Runtime]

theorem get?_forwardingTree {key : String} (hk : key ≠ "connectors") :
    (forwardingTree ps).get? key =
      [("receivers", .map [("otlp", otlpReceiver)]),
       ("processors", .map (allProcessors ps)),
       ("exporters", .map (forwardingExporters ps)),
       ("extensions", extensions),
       ("service", serviceNode (forwardingPipelines ps))].lookup key := by
  have hne : (key == "connectors") = false := by simpa using hk
  simp only [Yaml.Node.get?, Yaml.Node.entries, forwardingTree, List.lookup_append]
  split_ifs <;> simp [List.lookup_cons, hne] <;> grind

theorem servicePipelines_forwardingTree : servicePipelines (forwardingTree ps) = forwardingPipelines ps := by
  rw [servicePipelines, get?_forwardingTree (by decide)]
  rfl

theorem processors_forwardingTree : (forwardingTree ps).section? "processors" = allProcessors ps := by
  rw [Yaml.Node.section?, get?_forwardingTree (by decide)]
  rfl

theorem exporters_forwardingTree : (forwardingTree ps).section? "exporters" = forwardingExporters ps := by
  rw [Yaml.Node.section?, get?_forwardingTree (by decide)]
  rfl

theorem connectors_forwardingTree : (forwardingTree ps).section? "connectors" = connectors ps := by
  by_cases hc : connectors ps = [] <;>
    simp [Yaml.Node.section?, Yaml.Node.get?, Yaml.Node.entries, forwardingTree, hc, List.lookup_cons]

def ownComponents (p : RenderPipeline) (nodes : List Node) : List Component :=
  nodes.zipIdx.map fun (n, i) =>
    { id := componentID n i p.customerSlug p.pipelineSlug, config := some (toNode n.value) }

def sharedProcessors : List Component :=
  defaultProcessors.map fun (id, config) => { id := id, config := some config }

-- What a pipeline is there for: each exporter is handed the telemetry after all the processors.
def ownDeliveries (sig : String) (p : RenderPipeline) : List Delivery :=
  (ownComponents p p.graph.exporters).map fun exporter =>
    { pipeline := p.collectorID sig
      processors := sharedProcessors ++ ownComponents p p.graph.processors
      exporter := exporter }

theorem Renderable.component_nodeIDs (h : Renderable ps)
    {nodes : Graph → List Node} (hv : ∀ p ∈ ps, ValidNodes kind (nodes p.graph))
    (hs : ∀ id ∈ Assoc.keys shared, '/' ∉ id.toList) (hp : p ∈ ps) :
    (p.nodeIDs (nodes p.graph)).map
        (component (shared ++ ps.flatMap fun p => p.nodeEntries (nodes p.graph))) =
      ownComponents p (nodes p.graph) := by
  rw [nodeIDs, List.map_map, ownComponents]
  refine List.map_congr_left ?_
  rintro ⟨n, i⟩ hn
  simp only [Function.comp_apply, component, h.lookup_component hv hs hp hn]

theorem Renderable.deliveries_customer (h : Renderable ps) (hp : p ∈ ps)
    {sig : String} (hs : sig ∈ Signals) (hm : p.graph.hasSignal sig) (resource : Attributes) (fuel : Nat) :
    deliveries (forwardingTree ps) resource (fuel + 1) sharedProcessors (p.collectorID sig) =
      ownDeliveries sig p := by
  have hl : (servicePipelines (forwardingTree ps)).lookup (p.collectorID sig) =
      some (forwardingPipeline sig p) := by
    rw [servicePipelines_forwardingTree, h.lookup_forwardingPipeline hp hs hm]
  have hleaf : ∀ out ∈ (forwardingPipeline sig p).strings "exporters",
      out ∉ Assoc.keys ((forwardingTree ps).section? "connectors") := by
    intro out ho
    rw [strings_exporters] at ho
    obtain ⟨n, i, hn, rfl⟩ := mem_nodeIDs.mp ho
    have ⟨_, hc⟩ := (h.valid p hp).exporters.known n (List.fst_mem_of_mem_zipIdx hn)
    rw [connectors_forwardingTree]
    exact componentID_not_mem_connectors hc i _ _
  have hproc : (p.nodeIDs p.graph.processors).map (component (allProcessors ps)) =
      ownComponents p p.graph.processors :=
    h.component_nodeIDs (fun q hq => (h.valid q hq).processors) (by decide) hp
  have hexp : (p.nodeIDs p.graph.exporters).map (component (forwardingExporters ps)) =
      ownComponents p p.graph.exporters := by
    refine h.component_nodeIDs (fun q hq => (h.valid q hq).exporters) ?_ hp
    split_ifs <;> decide
  rw [deliveries_leaf resource fuel hl hleaf, strings_processors, strings_exporters, processors_forwardingTree,
    exporters_forwardingTree, hproc, ownDeliveries, ← hexp, List.map_map]
  rfl

theorem Renderable.receives_connector (h : Renderable ps) (hp : p ∈ ps)
    (hs : sig ∈ Signals) (hm : p.graph.hasSignal sig) :
    receives (forwardingTree ps) (routingConnectorID sig) (p.collectorID sig) := by
  rw [receives, servicePipelines_forwardingTree, h.lookup_forwardingPipeline hp hs hm]
  simp

theorem Renderable.deliveries_routed (h : Renderable ps) (hs : sig ∈ Signals)
    (hne : signalsWith ps sig ≠ []) (ht : resource.lookup "tenant.id" = some tenant) (fuel : Nat) :
    deliveries (forwardingTree ps) resource (fuel + 2) [] (sig ++ "/in") =
      ((ps.filter (·.graph.hasSignal sig)).filter (·.clientID = tenant)).flatMap
        (ownDeliveries sig) := by
  have hl : (servicePipelines (forwardingTree ps)).lookup (sig ++ "/in") =
      some (entryPipeline (routingConnectorID sig)) := by
    rw [servicePipelines_forwardingTree, lookup_entryPipeline hs, sink, if_neg hne]
  have hw := signalsWith_eq (fun p hp => (h.valid p hp).distinct) sig
  have hentry : (entryPipeline (routingConnectorID sig)).strings "exporters" =
      [routingConnectorID sig] := rfl
  rw [deliveries_succ resource (fuel + 1) hl, hentry, List.flatMap_singleton, connectors_forwardingTree,
    lookup_connectors hs hne]
  simp only [route_routingConnector _ _ ht, hw, processors_forwardingTree]
  rw [List.filter_eq_self.mpr, List.flatMap_map]
  · refine List.flatMap_congr fun p hp => ?_
    have ⟨hp, hm⟩ := List.mem_filter.mp (List.mem_of_mem_filter hp)
    exact h.deliveries_customer hp hs hm _ fuel
  · intro id hid
    have ⟨p, hp, he⟩ := List.mem_map.mp hid
    have ⟨hp, hm⟩ := List.mem_filter.mp (List.mem_of_mem_filter hp)
    exact he ▸ h.receives_connector hp hs hm

theorem deliveries_unrouted (hs : sig ∈ Signals) (hw : signalsWith ps sig = []) (resource : Attributes)
    (fuel : Nat) :
    ∃ d, d.exporter.id = "debug" ∧
      deliveries (forwardingTree ps) resource (fuel + 1) [] (sig ++ "/in") = [d] := by
  have hl : (servicePipelines (forwardingTree ps)).lookup (sig ++ "/in") =
      some (entryPipeline "debug") := by
    rw [servicePipelines_forwardingTree, lookup_entryPipeline hs, sink, if_pos hw]
  have hdebug : "debug" ∉ Assoc.keys (connectors ps) := by
    intro hc
    have ⟨sig, he⟩ := mem_keys_connectors hc
    have hslash : '/' ∈ (routingConnectorID sig).toList := by simp [routingConnectorID]
    exact absurd (he ▸ hslash) (by decide)
  have hentry : (entryPipeline "debug").strings "exporters" = ["debug"] := rfl
  rw [deliveries_leaf resource fuel hl, hentry]
  · exact ⟨_, rfl, rfl⟩
  · rw [connectors_forwardingTree, hentry]
    simpa using hdebug

theorem Renderable.of_validateStructural (hv : ∀ p ∈ ps, validateStructural p.graph = [])
    (hc : ∀ p ∈ ps, Tenants.IsSlug p.customerSlug) (hs : ∀ p ∈ ps, Tenants.IsSlug p.pipelineSlug)
    (hd : (ps.map fun p => (p.customerSlug, p.pipelineSlug)).Nodup) : Renderable ps :=
  ⟨fun p hp => .of_validateStructural (hv p hp), hc, hs, hd⟩

theorem renderForwardingConfig_eq_ok (h : Renderable ps) :
    renderForwardingConfig ps = .ok (Runtime.marshalYAML (forwardingTree (sortPipelines ps))) := by
  simp only [renderForwardingConfig, (h.perm (sortPipelines_perm ps)).duplicateKey_eq_none]

theorem renderEdgeConfig_eq_ok (h : Renderable pipelines) :
    renderEdgeConfig pipelines = .ok (Runtime.marshalYAML (edgeTree (sortPipelines pipelines))) := by
  simp only [renderEdgeConfig, (h.perm (sortPipelines_perm pipelines)).duplicateKey_eq_none]

theorem mem_ownDeliveries (h : d ∈ ownDeliveries sig p) : d.exporter.id ∈ p.nodeIDs p.graph.exporters := by
  have ⟨c, hc, he⟩ := List.mem_map.mp h
  have ⟨⟨n, i⟩, hn, hc⟩ := List.mem_map.mp hc
  refine mem_nodeIDs.mpr ⟨n, i, hn, ?_⟩
  rw [← he, ← hc]

def tenantPipelines (pipelines : List RenderPipeline) (sig tenant : String) : List RenderPipeline :=
  pipelines.filter fun p => p.clientID = tenant ∧ p.graph.hasSignal sig

-- Besides the shared `debug` exporter, the telemetry of a tenant reaches the exporters of the
-- tenant's own pipelines.
theorem Renderable.deliveries_perm (h : Renderable pipelines) (hs : sig ∈ Signals)
    (ht : resource.lookup "tenant.id" = some tenant) (fuel : Nat) :
    ∃ rest, (∀ d ∈ rest, d.exporter.id = "debug") ∧
      (deliveries (forwardingTree (sortPipelines pipelines)) resource (fuel + 2) []
        (sig ++ "/in")).Perm
      ((tenantPipelines pipelines sig tenant).flatMap (ownDeliveries sig) ++ rest) := by
  have hsort := sortPipelines_perm pipelines
  have hr := h.perm hsort
  have hw := signalsWith_eq (fun p hp => (hr.valid p hp).distinct) sig
  have hf : (((sortPipelines pipelines).filter (·.graph.hasSignal sig)).filter
      (·.clientID = tenant)).Perm (tenantPipelines pipelines sig tenant) := by
    rw [List.filter_filter, tenantPipelines]
    simpa using hsort.filter fun p => p.clientID = tenant && p.graph.hasSignal sig
  by_cases hne : signalsWith (sortPipelines pipelines) sig = []
  case pos =>
    have ⟨d, hd, he⟩ := deliveries_unrouted hs hne resource (fuel + 1)
    have hnil : tenantPipelines pipelines sig tenant = [] := by
      rw [← hw, hne] at hf
      exact hf.symm.eq_nil
    exact ⟨[d], by simpa using hd, by rw [he, hnil]; exact .refl _⟩
  case neg =>
    refine ⟨[], by simp, ?_⟩
    rw [hr.deliveries_routed hs hne ht, List.append_nil]
    exact hf.flatMap_right _

theorem renderForwardingConfig_isolates_tenants (pipelines : List RenderPipeline)
    (hv : ∀ p ∈ pipelines, validateStructural p.graph = [])
    (hc : ∀ p ∈ pipelines, Tenants.IsSlug p.customerSlug)
    (hp : ∀ p ∈ pipelines, Tenants.IsSlug p.pipelineSlug)
    (hd : (pipelines.map fun p => (p.customerSlug, p.pipelineSlug)).Nodup) :
    let cfg := forwardingTree (sortPipelines pipelines)
    renderForwardingConfig pipelines = .ok (Runtime.marshalYAML cfg) ∧
    ∀ sig ∈ Signals, ∀ tenant resource fuel, resource.lookup "tenant.id" = some tenant →
      let reached := deliveries cfg resource (fuel + 2) [] (sig ++ "/in")
      (reached.filter (·.exporter.id ≠ "debug")).Perm
        ((tenantPipelines pipelines sig tenant).flatMap (ownDeliveries sig)) ∧
      (∀ d ∈ reached, ∀ q ∈ pipelines, d.exporter.id ∈ q.nodeIDs q.graph.exporters →
        q.clientID = tenant ∧ q.graph.hasSignal sig) ∧
      (tenantPipelines pipelines sig tenant = [] → ∀ d ∈ reached, d.exporter.id = "debug") := by
  have h := Renderable.of_validateStructural hv hc hp hd
  refine ⟨renderForwardingConfig_eq_ok h, fun sig hs tenant resource fuel ht => ?_⟩
  have ⟨rest, hrest, hperm⟩ := h.deliveries_perm hs ht fuel
  refine ⟨?_, ?_, ?_⟩
  · refine (hperm.filter _).trans ?_
    rw [List.filter_append, List.filter_eq_self.mpr, List.filter_eq_nil_iff.mpr, List.append_nil]
    · exact fun d hd => by simp [hrest d hd]
    · intro d hd
      have ⟨p, _, hd⟩ := List.mem_flatMap.mp hd
      simpa using nodeIDs_ne_debug (mem_ownDeliveries hd)
  · intro d hd q hq hid
    obtain hd | hd := List.mem_append.mp (hperm.mem_iff.mp hd)
    · -- The exporter belongs to a pipeline of the tenant, and its ID tells which one.
      have ⟨p, hp, hd⟩ := List.mem_flatMap.mp hd
      have ⟨hp, ht⟩ := List.mem_filter.mp hp
      have ⟨n, i, hn, he⟩ := mem_nodeIDs.mp (mem_ownDeliveries hd)
      have ⟨m, j, hm, he'⟩ := mem_nodeIDs.mp hid
      have heq := h.componentID_inj (fun p hp => (h.valid p hp).exporters) hp hq
        (List.fst_mem_of_mem_zipIdx hn) (List.fst_mem_of_mem_zipIdx hm) (he.symm.trans he')
      rw [← heq.left]
      simpa using ht
    · exact absurd (hrest d hd) (nodeIDs_ne_debug hid)
  · intro hnone d hd
    rw [hnone, List.flatMap_nil, List.nil_append] at hperm
    exact hrest d (hperm.mem_iff.mp hd)

end Deliveries

def samplePipelines : List RenderPipeline := [
  { customerSlug := "globex", clientID := "cust_bbbb2222", pipelineSlug := "audit"
    graph := {
      signals := ["logs"]
      processors := []
      exporters := [
        { type := "otlphttp", name := some "grafana", config := some [
            ("endpoint", .str "https://otlp.example.com"),
            ("headers", .obj [("authorization", .str "Bearer secret")])] },
        { type := "debug", config := none }] } },
  { customerSlug := "acme-corp", clientID := "cust_aaaa1111", pipelineSlug := "backup"
    graph := {
      signals := ["logs", "traces"]
      processors := [
        { type := "batch", config := some [("send_batch_size", .number ⟨false, 512, 0⟩)] }]
      exporters := [
        { type := "otlp", config := some [
            ("endpoint", .str "acme-backend:4317"),
            ("tls", .obj [("insecure", .bool true)])] }] } }]

-- A resource that came in with the identity of the other customer and was stamped with its own.
def stampedResource : Attributes :=
  letI : Tenantstamp.Values String := ⟨id⟩
  Tenantstamp.stamp [("service.name", "checkout"), ("tenant.id", "cust_bbbb2222")]
    { tenantID := "cust_aaaa1111", clientID := "cust_aaaa1111", customerID := "" }

-- The pipelines of the golden tests: the metrics of both customers end at `debug`, and their logs are
-- kept apart.
theorem samplePipelines_isolated :
    letI := Runtime.sample
    let reached := fun sig => deliveries (forwardingTree (sortPipelines samplePipelines))
      stampedResource 2 [] (sig ++ "/in")
    (reached "metrics").all (·.exporter.id = "debug") ∧
      ((reached "logs").filter (·.exporter.id ≠ "debug")).Perm
        ((tenantPipelines samplePipelines "logs" "cust_aaaa1111").flatMap (ownDeliveries "logs")) ∧
      tenantPipelines samplePipelines "logs" "cust_aaaa1111" ≠ [] := by
  let _ := Runtime.sample
  have h := renderForwardingConfig_isolates_tenants samplePipelines
    (by simp only [samplePipelines, List.forall_mem_cons]; exact ⟨rfl, rfl, by simp⟩)
    (by decide) (by decide) (by decide)
  have ht : stampedResource.lookup "tenant.id" = some "cust_aaaa1111" := by decide
  refine ⟨List.all_eq_true.mpr fun d hd => ?_, ?_, nofun⟩
  · exact decide_eq_true ((h.right "metrics" (by decide) _ _ 0 ht).right.right rfl d hd)
  · exact (h.right "logs" (by decide) _ _ 0 ht).left

end Pipelines
