import OtelFleet.Lib.Confmap
import OtelFleet.Pipelines.Theorems.Routing

-- What a collector makes of the config that a customer wrote for a node.
namespace Pipelines

open Confmap
open Json (Value Fields)

mutual

-- The config as it is written: the keys are strings, and numbers count by their value. A mapping is
-- given by its entries in the order of the keys.
def written : Value → Conf
  | .null => .scalar .null
  | .bool b => .scalar (.bool b)
  | .float x => .scalar (.number x.value)
  | .number n => .scalar (.number n.value)
  | .str s => .scalar (.str s)
  | .arr items => .seq (writtenItems items)
  | .obj fields => .map ((Assoc.sort (writtenFields fields)).map fun e => (.str e.1, e.2))

def writtenItems : List Value → List Conf
  | [] => []
  | v :: vs => written v :: writtenItems vs

def writtenFields : Fields → List (String × Conf)
  | [] => []
  | (k, v) :: fs => (k, written v) :: writtenFields fs

end

theorem writtenItems_eq (items : List Value) : writtenItems items = items.map written := by
  induction items <;> simp_all [writtenItems]

theorem writtenFields_eq (fields : Fields) : writtenFields fields = Assoc.mapVals (fun _ v => written v) fields := by
  induction fields
  case nil => rfl
  case cons e fs hi => simp [writtenFields, hi, Assoc.mapVals]

theorem written_arr (items : List Value) : written (.arr items) = .seq (items.map written) := by
  rw [written, writtenItems_eq]

theorem written_obj (fields : Fields) :
    written (.obj fields) = .map ((Assoc.sort fields).map fun e => (.str e.1, written e.2)) := by
  simp only [written, writtenFields_eq, Assoc.sort_mapVals]
  simp [Assoc.mapVals, Function.comp_def]

section Reading

variable [Runtime]

def Exact (n : Json.Number) : Prop :=
  n.int64?.isSome ∨ ∃ x ∈ Runtime.parseFloat n, x.value = n.value

instance : DecidablePred Exact :=
  fun _ => inferInstanceAs <| Decidable <| _ ∨ _

-- What a collector reads as it is written, apart from what is nested in it: keys that are taken for
-- strings although they are untagged, strings without escapes and references, numbers that are not
-- rounded.
def ReadsBack (R : Resolution) : Value → Prop
  | .obj fields => ∀ k ∈ Assoc.keys fields, R.resolve k = .str k
  | .str s => Literal s.toList
  | .number n => Exact n
  | _ => True

instance (R : Resolution) : DecidablePred (ReadsBack R) := fun v =>
  match v with
  | .obj _ => inferInstanceAs <| Decidable <| ∀ k ∈ _, _
  | .str _ => inferInstanceAs <| Decidable <| Literal _
  | .number _ => inferInstanceAs <| Decidable <| Exact _
  | .null | .bool _ | .float _ | .arr _ => .isTrue trivial

section Nodes

variable {R : Resolution}

def reading (R : Resolution) (env : List Char → List Char) (n : Yaml.Node) : Conf :=
  expand env (decode R n)

theorem reading_toNode_arr (env : List Char → List Char) (items : List Value) :
    reading R env (toNode (.arr items)) = .seq (items.map fun v => reading R env (toNode v)) := by
  simp [reading, toNode, decode, expand, toNodeItems_eq, decodeItems_eq, expandItems_eq]

theorem reading_toNode_obj (env : List Char → List Char) (fields : Fields) :
    reading R env (toNode (.obj fields)) =
      .map ((Assoc.sort fields).map fun e => (R.resolve e.1, reading R env (toNode e.2))) := by
  simp only [reading, toNode, decode, expand, toNodeFields_eq, decodeEntries_eq, expandEntries_eq,
    Assoc.sort_mapVals]
  simp [Assoc.mapVals, Function.comp_def]

theorem reading_numberNode_eq_iff (env : List Char → List Char) (n : Json.Number) :
    reading R env (numberNode n) = .scalar (.number n.value) ↔ Exact n := by
  cases hi : n.int64?
  case some i =>
    simp [reading, numberNode, Exact, hi, decode, expand, R.int, Json.Number.value_of_int64? hi]
  case none =>
    cases hp : Runtime.parseFloat n
    case some x => simp [reading, numberNode, Exact, hi, hp, decode, expand, R.float]
    case none => simp [reading, numberNode, Exact, hi, hp, decode, expand]

theorem reading_toNode_eq_iff : (∀ env, reading R env (toNode v) = written v) ↔ ∀ w ∈ v.subvalues, ReadsBack R w := by
  induction v
  case null => simp [reading, toNode, decode, expand, written, R.null, Value.subvalues, ReadsBack]
  case bool b => simp [reading, toNode, decode, expand, written, R.bool, Value.subvalues, ReadsBack]
  case float x => simp [reading, toNode, decode, expand, written, R.float, Value.subvalues, ReadsBack]
  case number n =>
    simp [toNode, reading_numberNode_eq_iff, written, Value.subvalues, ReadsBack]
  case str s =>
    simp [reading, toNode, decode, expand, written, expandString_eq_iff, Value.subvalues, ReadsBack]
  case arr items hi =>
    simp only [reading_toNode_arr, written_arr, Conf.seq.injEq, List.map_inj_left, Value.subvalues,
      List.forall_mem_cons, Value.mem_subvaluesItems, ReadsBack, true_and]
    constructor
    case mp =>
      rintro h w ⟨v, hv, hw⟩
      exact (hi v hv).mp (fun env => h env v hv) w hw
    case mpr =>
      intro h env v hv
      exact (hi v hv).mpr (fun w hw => h w ⟨v, hv, hw⟩) env
  case obj fields hi =>
    simp only [reading_toNode_obj, written_obj, Conf.map.injEq, List.map_inj_left, Assoc.mem_sort,
      Prod.mk.injEq, Value.subvalues, List.forall_mem_cons, Value.mem_subvaluesFields, ReadsBack]
    constructor
    case mp =>
      intro h
      refine ⟨fun k hk => ?_, ?_⟩
      · obtain ⟨v, hv⟩ := Assoc.mem_keys.mp hk
        exact (h id (k, v) hv).left
      · rintro w ⟨k, v, hv, hw⟩
        exact (hi k v hv).mp (fun env => (h env (k, v) hv).right) w hw
    case mpr =>
      rintro ⟨hk, h⟩ env ⟨k, v⟩ hv
      exact ⟨hk k (Assoc.mem_keys_of_mem hv), (hi k v hv).mpr (fun w hw => h w ⟨k, v, hv, hw⟩) env⟩

end Nodes

section Configs

theorem Renderable.lookup_node (h : Renderable ps) (hp : p ∈ ps) (hc : cfg ∈ [forwardingTree ps, edgeTree ps])
    (hk : (key, nodes) ∈ [("processors", p.graph.processors), ("exporters", p.graph.exporters)])
    (hn : (n, i) ∈ nodes.zipIdx) :
    (cfg.section? key).lookup (componentID n i p.customerSlug p.pipelineSlug) = some (toNode n.value) := by
  have hproc := @Renderable.lookup_component ps Graph.processors _ .processor h
    (fun q hq => (h.valid q hq).processors) defaultProcessors (by decide) p hp n i
  have hdebug : ∀ b : Prop, [Decidable b] → ∀ id ∈ Assoc.keys (if b then [("debug", Yaml.Node.map [])] else []),
      '/' ∉ id.toList := by
    intro b _
    split <;> decide
  have hexp := fun shared hs => @Renderable.lookup_component ps Graph.exporters _ .exporter h
    (fun q hq => (h.valid q hq).exporters) shared hs p hp n i
  simp only [List.mem_cons, List.not_mem_nil, or_false, Prod.mk.injEq] at hc hk
  obtain rfl | rfl := hc <;> obtain ⟨rfl, rfl⟩ | ⟨rfl, rfl⟩ := hk
  · rw [processors_forwardingTree]
    exact hproc hn
  · rw [exporters_forwardingTree]
    exact hexp _ (hdebug _) hn
  · exact hproc hn
  · exact hexp _ (hdebug _) hn

-- Both configs give a node the config that the customer wrote exactly when everything in it reads
-- back.
theorem collector_reads_config_iff (R : Resolution) (pipelines : List RenderPipeline)
    (hv : ∀ p ∈ pipelines, validateStructural p.graph = [])
    (hc : ∀ p ∈ pipelines, Tenants.IsSlug p.customerSlug)
    (hp : ∀ p ∈ pipelines, Tenants.IsSlug p.pipelineSlug)
    (hd : (pipelines.map fun p => (p.customerSlug, p.pipelineSlug)).Nodup) :
    let forwarding := forwardingTree (sortPipelines pipelines)
    let edge := edgeTree (sortPipelines pipelines)
    renderForwardingConfig pipelines = .ok (Runtime.marshalYAML forwarding) ∧
    renderEdgeConfig pipelines = .ok (Runtime.marshalYAML edge) ∧
    ∀ cfg ∈ [forwarding, edge], ∀ p ∈ pipelines,
      ∀ e ∈ [("processors", p.graph.processors), ("exporters", p.graph.exporters)], ∀ a ∈ e.2.zipIdx,
        let entry := (cfg.section? e.1).lookup (componentID a.1 a.2 p.customerSlug p.pipelineSlug)
        (∀ env, entry.map (reading R env) = some (written a.1.value)) ↔
          ∀ w ∈ a.1.value.subvalues, ReadsBack R w := by
  have h := Renderable.of_validateStructural hv hc hp hd
  have hsort := sortPipelines_perm pipelines
  refine ⟨renderForwardingConfig_eq_ok h, renderEdgeConfig_eq_ok h, ?_⟩
  intro cfg hcfg p hp e he a ha entry
  have hl : entry = some (toNode a.1.value) :=
    (h.perm hsort).lookup_node (hsort.mem_iff.mpr hp) hcfg he ha
  simp only [hl, Option.map_some, Option.some.injEq]
  exact reading_toNode_eq_iff

end Configs

end Reading

def headersNode (headers : Fields) : Node where
  type := "otlphttp"
  config := some [("endpoint", .str "https://otlp.example.com"), ("headers", .obj headers)]

def headersPipeline (headers : Fields) : RenderPipeline where
  customerSlug := "acme"
  clientID := "cust_aaaa1111"
  pipelineSlug := "backup"
  graph := { signals := ["logs"], processors := [], exporters := [headersNode headers] }

def headersEntry [Runtime] (headers : Fields) : Option Yaml.Node :=
  ((forwardingTree (sortPipelines [headersPipeline headers])).section? "exporters").lookup
    (componentID (headersNode headers) 0 "acme" "backup")

theorem headersPipeline_read :
    letI := Runtime.sample
    let headers := [("authorization", .str "Bearer $ecret")]
    validateStructural (headersPipeline headers).graph = [] ∧
      ∀ env, (headersEntry headers).map (reading .core env) = some (written (headersNode headers).value) := by
  have h := @collector_reads_config_iff Runtime.sample .core
    [headersPipeline [("authorization", .str "Bearer $ecret")]]
    (List.forall_mem_singleton.mpr rfl) (by decide) (by decide) (by decide)
  have hr : ∀ w ∈ (headersNode [("authorization", .str "Bearer $ecret")]).value.subvalues,
      @ReadsBack Runtime.sample .core w := by
    decide +kernel
  exact ⟨rfl, (h.right.right _ (.head _) _ (.head _) _ (.tail _ (.head _)) _ (.head _)).mpr hr⟩

-- The name of one header arrives as a number, and the value of the other lacks a character.
theorem headersPipeline_misread :
    letI := Runtime.sample
    let headers := [("12", .str "noon"), ("X-Key", .str "pa$$word")]
    let read := Conf.map [
      (.str "endpoint", .scalar (.str "https://otlp.example.com")),
      (.str "headers", .map [
        (.number 12, .scalar (.str "noon")), (.str "X-Key", .scalar (.str "pa$word"))])]
    validateStructural (headersPipeline headers).graph = [] ∧
      renderForwardingConfig [headersPipeline headers] =
        .ok (Runtime.marshalYAML (forwardingTree (sortPipelines [headersPipeline headers]))) ∧
      (∀ env, (headersEntry headers).map (reading .core env) = some read) ∧
      read ≠ written (headersNode headers).value := by
  have hkey : Resolution.core.resolve "12" = .number 12 := by decide +kernel
  refine ⟨rfl, rfl, fun env => ?_, ?_⟩
  · show some (Conf.map [
      (.str "endpoint", .scalar (.str "https://otlp.example.com")),
      (.str "headers", .map [
        (Resolution.core.resolve "12", .scalar (.str "noon")),
        (.str "X-Key", .scalar (.str "pa$word"))])]) = _
    rw [hkey]
  · show Conf.map _ ≠ .map [
      (.str "endpoint", .scalar (.str "https://otlp.example.com")),
      (.str "headers", .map [
        (.str "12", .scalar (.str "noon")), (.str "X-Key", .scalar (.str "pa$$word"))])]
    simp

end Pipelines
