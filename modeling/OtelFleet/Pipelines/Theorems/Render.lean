import OtelFleet.Pipelines.Theorems.Validate
import OtelFleet.Collector.Graph

namespace Pipelines

open RenderPipeline Tenants Collector
open Assoc (keys lookup_eq_none lookup_of_mem mem_keys)

-- The pipelines that the renderer is called with: their graphs have passed the validation, and the
-- pairs of slugs are distinct.
structure Renderable (ps : List RenderPipeline) : Prop where
  valid : ∀ p ∈ ps, p.graph.Valid
  customerSlug : ∀ p ∈ ps, IsSlug p.customerSlug
  pipelineSlug : ∀ p ∈ ps, IsSlug p.pipelineSlug
  distinct : (ps.map fun p => (p.customerSlug, p.pipelineSlug)).Nodup

section Sections

variable {ps : List RenderPipeline}

theorem sortPipelines_perm (ps : List RenderPipeline) : (sortPipelines ps).Perm ps :=
  List.perm_insertionSort _ ps

theorem sortPipelines_sorted (ps : List RenderPipeline) : (sortPipelines ps).Pairwise le := by
  have total : Std.Total le := ⟨fun p q => by
    obtain hlt | heq | hgt := lt_trichotomy p.customerSlug q.customerSlug
    · exact .inl (.inl hlt)
    · obtain hle | hle := le_total p.pipelineSlug q.pipelineSlug
      exacts [.inl (.inr ⟨heq, hle⟩), .inr (.inr ⟨heq.symm, hle⟩)]
    · exact .inr (.inl hgt)⟩
  have trans : IsTrans RenderPipeline le := ⟨fun p q r hpq hqr => by
    obtain hpq | ⟨hc, hpq⟩ := hpq <;> obtain hqr | ⟨hc', hqr⟩ := hqr
    · exact .inl (hpq.trans hqr)
    · exact .inl (hc' ▸ hpq)
    · exact .inl (hc ▸ hqr)
    · exact .inr ⟨hc.trans hc', hpq.trans hqr⟩⟩
  exact List.pairwise_insertionSort _ _

theorem eq_of_sorted (hn : (ps.map key).Nodup) (h : qs.Perm ps)
    (hq : qs.Pairwise le) (hp : ps.Pairwise le) : qs = ps := by
  refine h.eq_of_pairwise ?_ hq hp
  intro p q hpm hqm hpq hqp
  have hslugs : p.customerSlug = q.customerSlug ∧ p.pipelineSlug = q.pipelineSlug := by
    obtain hpq | ⟨hc, hpq⟩ := hpq <;> obtain hqp | ⟨hc', hqp⟩ := hqp
    · exact absurd (hpq.trans hqp) (lt_irrefl _)
    · exact absurd (hc' ▸ hpq) (lt_irrefl _)
    · exact absurd (hc ▸ hqp) (lt_irrefl _)
    · exact ⟨hc, le_antisymm hpq hqp⟩
  exact List.inj_on_of_nodup_map hn (h.mem_iff.mp hpm) hqm (by simp only [key, hslugs])

theorem sortPipelines_eq_of_perm (hn : (ps.map key).Nodup) (h : qs.Perm ps) : sortPipelines qs = sortPipelines ps := by
  have hsort := sortPipelines_perm ps
  exact eq_of_sorted ((hsort.map key).nodup_iff.mpr hn)
    ((sortPipelines_perm qs).trans (h.trans hsort.symm)) (sortPipelines_sorted qs) (sortPipelines_sorted ps)

theorem Renderable.perm (h : Renderable ps) (hp : qs.Perm ps) : Renderable qs where
  valid p hm := h.valid p (hp.mem_iff.mp hm)
  customerSlug p hm := h.customerSlug p (hp.mem_iff.mp hm)
  pipelineSlug p hm := h.pipelineSlug p (hp.mem_iff.mp hm)
  distinct := (hp.map _).nodup_iff.mpr h.distinct

theorem Renderable.eq_of_slugs (h : Renderable ps) (hp : p ∈ ps) (hq : q ∈ ps)
    (hc : p.customerSlug = q.customerSlug) (hs : p.pipelineSlug = q.pipelineSlug) : p = q :=
  List.inj_on_of_nodup_map h.distinct hp hq (Prod.ext hc hs)

theorem Renderable.nodup (h : Renderable ps) : ps.Nodup :=
  h.distinct.of_map

theorem duplicateKey_eq_none_iff : duplicateKey seen ps = none ↔ (ps.map key).Nodup ∧ ∀ p ∈ ps, p.key ∉ seen := by
  induction ps generalizing seen
  case nil => simp [duplicateKey]
  case cons p ps hi =>
    simp only [duplicateKey]
    split_ifs with hm
    · simp [hm]
    · simp only [hi, List.map_cons, List.nodup_cons, List.mem_map, List.mem_cons, not_or]
      grind

theorem Renderable.duplicateKey_eq_none (h : Renderable ps) : duplicateKey [] ps = none := by
  refine duplicateKey_eq_none_iff.mpr ⟨?_, by simp⟩
  refine h.nodup.map_on fun p hp q hq he => ?_
  have ⟨hc, hs⟩ := pipelineKey_inj (h.customerSlug p hp) (h.customerSlug q hq) he
  exact h.eq_of_slugs hp hq hc hs

theorem signalsWith_eq (hv : ∀ p ∈ ps, p.graph.signals.Nodup) (sig : String) :
    signalsWith ps sig = ps.filter (·.graph.hasSignal sig) := by
  have hs : ∀ p ∈ ps, (p.graph.signals.filter (· == sig)).map (fun _ => p) =
      if p.graph.hasSignal sig then [p] else [] := by
    intro p hp
    rw [List.filter_beq, List.map_replicate, (hv p hp).count]
    by_cases hm : sig ∈ p.graph.signals <;> simp [Graph.hasSignal, hm]
  rw [signalsWith, List.flatMap_congr hs]
  clear hv hs
  induction ps
  case nil => rfl
  case cons p ps hi =>
    rw [List.flatMap_cons, List.filter_cons, hi]
    split_ifs <;> rfl

section Components

variable {nodes : Graph → List Node}

theorem mem_nodeIDs {p : RenderPipeline} {id : String} :
    id ∈ p.nodeIDs ns ↔
      ∃ n i, (n, i) ∈ ns.zipIdx ∧ id = componentID n i p.customerSlug p.pipelineSlug := by
  simp only [nodeIDs, List.mem_map, Prod.exists, eq_comm]

theorem nodeIDs_ne_debug {p : RenderPipeline} {id : String} (h : id ∈ p.nodeIDs ns) : id ≠ "debug" := by
  obtain ⟨n, i, _, rfl⟩ := mem_nodeIDs.mp h
  exact fun hc => absurd (hc ▸ slash_mem_componentID n i _ _) (by decide)

theorem Renderable.componentID_inj (h : Renderable ps)
    (hv : ∀ p ∈ ps, ValidNodes kind (nodes p.graph)) (hp : p ∈ ps) (hq : q ∈ ps)
    (hn : n ∈ nodes p.graph) (hm : m ∈ nodes q.graph) (he : componentID n i p.customerSlug p.pipelineSlug =
      componentID m j q.customerSlug q.pipelineSlug) : p = q ∧ n.type = m.type ∧ nodeSuffix n i = nodeSuffix m j := by
  have ⟨_, hcn⟩ := (hv p hp).known n hn
  have ⟨_, hcm⟩ := (hv q hq).known m hm
  have ⟨ht, hc, hs, hx⟩ := Pipelines.componentID_inj (slash_not_mem_type hcn) (slash_not_mem_type hcm)
    (h.customerSlug p hp) (h.customerSlug q hq) (h.pipelineSlug p hp) (h.pipelineSlug q hq) he
  exact ⟨h.eq_of_slugs hp hq hc hs, ht, hx⟩

theorem Renderable.nodup_nodeIDs (h : Renderable ps) (hv : ∀ p ∈ ps, ValidNodes kind (nodes p.graph)) :
    (ps.flatMap fun p => p.nodeIDs (nodes p.graph)).Nodup := by
  refine List.nodup_flatMap.mpr ⟨fun p hp => ?_, ?_⟩
  · -- Within one pipeline the slugs are fixed, so the validation has seen the same collisions.
    have hids := (hv p hp).ids
    refine hids.of_map.map_on fun ⟨n, i⟩ hn ⟨m, j⟩ hm he => ?_
    obtain ⟨_, ht, hs⟩ : _ ∧ n.type = m.type ∧ nodeSuffix n i = nodeSuffix m j :=
      h.componentID_inj hv hp hp (List.fst_mem_of_mem_zipIdx hn) (List.fst_mem_of_mem_zipIdx hm) he
    refine List.inj_on_of_nodup_map hids hn hm ?_
    simp only [componentID, ht, hs]
  · refine h.nodup.imp_of_mem fun {p q} hp hq hne => ?_
    intro id hid hid'
    obtain ⟨n, i, hn, rfl⟩ := mem_nodeIDs.mp hid
    obtain ⟨m, j, hm, he⟩ := mem_nodeIDs.mp hid'
    exact hne (h.componentID_inj hv hp hq (List.fst_mem_of_mem_zipIdx hn)
      (List.fst_mem_of_mem_zipIdx hm) he).left

variable [Runtime]

theorem keys_nodeEntries (p : RenderPipeline) (ns : List Node) : keys (p.nodeEntries ns) = p.nodeIDs ns := by
  simp [keys, nodeEntries, nodeIDs]

theorem Renderable.lookup_component (h : Renderable ps)
    (hv : ∀ p ∈ ps, ValidNodes kind (nodes p.graph)) {shared : Yaml.Entries}
    (hs : ∀ id ∈ keys shared, '/' ∉ id.toList) {p : RenderPipeline} (hp : p ∈ ps) {n : Node}
    {i : Nat} (hn : (n, i) ∈ (nodes p.graph).zipIdx) :
    (shared ++ ps.flatMap fun p => p.nodeEntries (nodes p.graph)).lookup
      (componentID n i p.customerSlug p.pipelineSlug) = some (toNode n.value) := by
  have hid := slash_mem_componentID n i p.customerSlug p.pipelineSlug
  rw [List.lookup_append, lookup_eq_none fun hc => hs _ hc hid, Option.none_or]
  refine lookup_of_mem ?_ (List.mem_flatMap.mpr ⟨p, hp, List.mem_map.mpr ⟨(n, i), hn, rfl⟩⟩)
  simp only [Assoc.keys_flatMap, keys_nodeEntries]
  exact h.nodup_nodeIDs hv

end Components

section ServicePipelines

theorem mem_customerPipelines :
    e ∈ customerPipelines node p ↔
      ∃ sig ∈ Signals, p.graph.hasSignal sig ∧ e = (p.collectorID sig, node sig p) := by
  simp only [customerPipelines, List.mem_map, List.mem_filter, and_assoc, eq_comm]

theorem Renderable.collectorID_inj (h : Renderable ps) (hp : p ∈ ps)
    (hq : q ∈ ps) (hs : sig ∈ Signals) (hs' : sig' ∈ Signals)
    (he : p.collectorID sig = q.collectorID sig') : p = q ∧ sig = sig' := by
  have ⟨h₁, h₂, h₃⟩ :=
    collectorPipelineID_inj hs hs' (h.customerSlug p hp) (h.customerSlug q hq) he
  exact ⟨h.eq_of_slugs hp hq h₂ h₃, h₁⟩

theorem Renderable.nodup_customerPipelines (h : Renderable ps) (node : String → RenderPipeline → Yaml.Node) :
    (keys (ps.flatMap (customerPipelines node))).Nodup := by
  have hsig : Signals.Nodup := by decide
  rw [Assoc.keys_flatMap]
  refine List.nodup_flatMap.mpr ⟨fun p hp => ?_, ?_⟩
  · simp only [keys, customerPipelines, List.map_map]
    refine (hsig.filter _).map_on fun sig hs sig' hs' he => ?_
    exact (h.collectorID_inj hp hp (List.mem_of_mem_filter hs) (List.mem_of_mem_filter hs') he).right
  · refine h.nodup.imp_of_mem fun {p q} hp hq hne => ?_
    intro id hid hid'
    obtain ⟨_, hid⟩ := mem_keys.mp hid
    obtain ⟨_, hid'⟩ := mem_keys.mp hid'
    obtain ⟨sig, hs, _, he⟩ := mem_customerPipelines.mp hid
    obtain ⟨sig', hs', _, he'⟩ := mem_customerPipelines.mp hid'
    have he : id = p.collectorID sig := congrArg Prod.fst he
    have he' : id = q.collectorID sig' := congrArg Prod.fst he'
    exact hne (h.collectorID_inj hp hq hs hs' (he ▸ he')).left

theorem keys_entryPipelines (node : String → Yaml.Node) :
    keys (Signals.map fun sig => (sig ++ "/in", node sig)) = ["logs/in", "traces/in", "metrics/in"] :=
  rfl

theorem lookup_entryPipeline (hs : sig ∈ Signals) :
    (forwardingPipelines ps).lookup (sig ++ "/in") = some (entryPipeline (sink ps sig)) := by
  have hn : (keys (Signals.map fun sig => (sig ++ "/in", entryPipeline (sink ps sig)))).Nodup := by
    rw [keys_entryPipelines]
    decide
  rw [forwardingPipelines, List.lookup_append,
    lookup_of_mem hn (List.mem_map.mpr ⟨sig, hs, rfl⟩), Option.some_or]

theorem Renderable.lookup_forwardingPipeline (h : Renderable ps) (hp : p ∈ ps)
    (hs : sig ∈ Signals) (hm : p.graph.hasSignal sig) :
    (forwardingPipelines ps).lookup (p.collectorID sig) = some (forwardingPipeline sig p) := by
  have hne : p.collectorID sig ∉
      keys (Signals.map fun sig => (sig ++ "/in", entryPipeline (sink ps sig))) := by
    intro hc
    have ⟨_, hc⟩ := mem_keys.mp hc
    have ⟨sig', hs', he⟩ := List.mem_map.mp hc
    exact entryID_ne hs' hs (congrArg Prod.fst he)
  rw [forwardingPipelines, List.lookup_append, lookup_eq_none hne, Option.none_or]
  refine lookup_of_mem (h.nodup_customerPipelines _) (List.mem_flatMap.mpr ⟨p, hp, ?_⟩)
  exact mem_customerPipelines.mpr ⟨sig, hs, hm, rfl⟩

@[simp]
theorem strings_receivers (sig : String) (p : RenderPipeline) :
    (forwardingPipeline sig p).strings "receivers" = [routingConnectorID sig] := by
  simp [Yaml.Node.strings, Yaml.Node.get?, Yaml.Node.entries, forwardingPipeline]

@[simp]
theorem strings_processors (sig : String) (p : RenderPipeline) :
    (forwardingPipeline sig p).strings "processors" = p.nodeIDs p.graph.processors := by
  by_cases hp : p.graph.processors = [] <;>
    simp [Yaml.Node.strings, Yaml.Node.get?, Yaml.Node.entries, forwardingPipeline, hp, List.lookup_cons,
      nodeIDs]

@[simp]
theorem strings_exporters (sig : String) (p : RenderPipeline) :
    (forwardingPipeline sig p).strings "exporters" = p.nodeIDs p.graph.exporters := by
  by_cases hp : p.graph.processors = [] <;>
    simp [Yaml.Node.strings, Yaml.Node.get?, Yaml.Node.entries, forwardingPipeline, hp, List.lookup_cons]

end ServicePipelines

section Routing

theorem lookup_addRoute (sig : String) (table : List (String × List String)) (p : RenderPipeline)
    (t : String) :
    (addRoute sig table p).lookup t =
      if p.clientID = t then some ((table.lookup t).getD [] ++ [p.collectorID sig])
      else table.lookup t := by
  unfold addRoute
  split_ifs with hm ht ht
  · subst ht
    induction table
    case nil => simp at hm
    case cons e es hi =>
      by_cases he : e.1 = p.clientID
      · obtain ⟨clientID, ids⟩ := e
        obtain rfl : clientID = p.clientID := he
        simp
      · have hne : (p.clientID == e.1) = false := by simpa using Ne.symm he
        have hm : p.clientID ∈ keys es := by simpa [Ne.symm he] using hm
        rw [List.map_cons, if_neg he, List.lookup_cons, hne, hi hm, List.lookup_cons, hne]
  · clear hm
    induction table
    case nil => rfl
    case cons e es hi =>
      by_cases he : e.1 = p.clientID
      · have hne : (t == e.1) = false := by
          rw [he]
          simpa using Ne.symm ht
        rw [List.map_cons, if_pos he, List.lookup_cons, hne, hi, List.lookup_cons, hne]
      · rw [List.map_cons, if_neg he, List.lookup_cons, List.lookup_cons, hi]
  · subst ht
    simp [List.lookup_append, lookup_eq_none hm]
  · have hne : (t == p.clientID) = false := by simpa using Ne.symm ht
    simp [List.lookup_append, List.lookup_cons, hne]

theorem lookup_foldl_addRoute (sig : String) (routed : List RenderPipeline)
    (table : List (String × List String)) (t : String) :
    ((routed.foldl (addRoute sig) table).lookup t).getD [] =
      (table.lookup t).getD [] ++ (routed.filter (·.clientID = t)).map (·.collectorID sig) := by
  induction routed generalizing table
  case nil => simp
  case cons p ps hi =>
    rw [List.foldl_cons, hi, lookup_addRoute, List.filter_cons]
    split_ifs with ht <;> simp_all

theorem lookup_routingTable (sig : String) (routed : List RenderPipeline) (t : String) :
    ((routingTable sig routed).lookup t).getD [] =
      (routed.filter (·.clientID = t)).map (·.collectorID sig) := by
  simp [routingTable, lookup_foldl_addRoute]

theorem lookup_eq_find? (table : List (String × List String)) (t : String) :
    table.lookup t = (table.find? (·.1 = t)).map Prod.snd := by
  induction table
  case nil => rfl
  case cons e es hi =>
    by_cases he : e.1 = t
    · obtain ⟨clientID, ids⟩ := e
      obtain rfl : clientID = t := he
      simp
    · have hne : (t == e.1) = false := by simpa using Ne.symm he
      rw [List.lookup_cons, hne, hi, List.find?_cons_of_neg (by simpa using he)]

def entryFor (condition : String) (connector : Yaml.Node) : Option Yaml.Node :=
  ((connector.get? "table").elim [] (·.items)).find? fun e =>
    (e.get? "condition").bind (·.str?) == some condition

variable [Runtime]

theorem routingCondition_injective : Function.Injective routingCondition := by
  intro s t h
  exact Strconv.quote_injective _ ((String.append_right_inj _).mp h)

theorem strings_routingEntry (e : String × List String) : (routingEntry e).strings "pipelines" = e.2 := by
  simp [routingEntry, Yaml.Node.strings, Yaml.Node.get?, Yaml.Node.entries, List.lookup_cons]

theorem find?_routingConnector (sig : String) (routed : List RenderPipeline)
    (hP : ∀ e : String × List String, P (routingEntry e) = decide (e.1 = t)) :
    (((routingConnector sig routed).get? "table").elim [] (·.items)).find? P =
      ((routingTable sig routed).find? (·.1 = t)).map routingEntry := by
  have htable : ((routingConnector sig routed).get? "table").elim [] (·.items) =
      (routingTable sig routed).map routingEntry := rfl
  rw [htable, List.find?_map]
  congr 2
  exact funext hP

theorem condition_routingEntry (e : String × List String) :
    ((routingEntry e).get? "condition").bind (·.str?) = some (routingCondition e.1) :=
  rfl

theorem entryFor_routingConnector (sig : String) (routed : List RenderPipeline) (t : String) :
    entryFor (routingCondition t) (routingConnector sig routed) =
      ((routingTable sig routed).find? (·.1 = t)).map routingEntry := by
  refine find?_routingConnector sig routed fun e => ?_
  simp only [condition_routingEntry, beq_eq_decide, Option.some.injEq, routingCondition_injective.eq_iff]

-- What a condition asks for: that the resource is stamped with the client ID.
theorem comparison?_routingCondition (clientID : String) :
    comparison? (routingCondition clientID) = some ("tenant.id", clientID) := by
  have hdrop (p cs : List Char) : (p ++ cs).dropPrefix? p = some cs := List.dropPrefix?_append_of_beq _ (beq_self_eq_true p)
  have hl : (routingCondition clientID).toList = "resource.attributes[".toList ++
      ("\"tenant.id\"] == ".toList ++ (Strconv.quote Runtime.isPrint clientID).toList) :=
    String.toList_append
  have hkey (cs : List Char) : Strconv.unquote? ("\"tenant.id\"] == ".toList ++ cs) =
      some ("tenant.id", "] == ".toList ++ cs) := rfl
  have hvalue := Strconv.unquote?_quote Runtime.isPrint clientID []
  rw [List.append_nil] at hvalue
  simp only [comparison?, hl, hdrop, hkey, hvalue, Option.bind_eq_bind, Option.bind_some, if_true]

theorem meets_routingCondition (h : resource.lookup "tenant.id" = some t) (clientID : String) :
    meets resource (routingCondition clientID) = decide (clientID = t) := by
  rw [meets, comparison?_routingCondition, Option.any_some, h]
  simp [eq_comm]

theorem route_routingConnector (sig : String) (routed : List RenderPipeline)
    (h : resource.lookup "tenant.id" = some t) :
    route resource (routingConnector sig routed) =
      (routed.filter (·.clientID = t)).map (·.collectorID sig) := by
  have hentry := find?_routingConnector sig routed
    (P := fun e => ((e.get? "condition").bind (·.str?)).any (meets resource)) (t := t) fun e => by
      rw [condition_routingEntry, Option.any_some, meets_routingCondition h]
  rw [← lookup_routingTable, lookup_eq_find?, route, hentry]
  cases (routingTable sig routed).find? (·.1 = t)
  case none => simp [routingConnector, Yaml.Node.strings, Yaml.Node.get?, Yaml.Node.entries]
  case some e => simp [strings_routingEntry]

theorem lookup_connectors (hs : sig ∈ Signals) (hne : signalsWith ps sig ≠ []) :
    (connectors ps).lookup (routingConnectorID sig) =
      some (routingConnector sig (signalsWith ps sig)) := by
  have hsig : Signals.Nodup := by decide
  refine lookup_of_mem ?_ (List.mem_map.mpr ⟨sig, List.mem_filter.mpr ⟨hs, by simpa using hne⟩, rfl⟩)
  simp only [keys, connectors, List.map_map]
  refine (hsig.filter _).map_on fun s hs s' hs' he => ?_
  simpa [routingConnectorID, ← String.toList_inj] using he

theorem mem_keys_connectors {id : String} (h : id ∈ keys (connectors ps)) :
    ∃ sig, id = routingConnectorID sig := by
  have ⟨_, h⟩ := mem_keys.mp h
  have ⟨sig, _, he⟩ := List.mem_map.mp h
  exact ⟨sig, (congrArg Prod.fst he).symm⟩

theorem componentID_not_mem_connectors (hc : Catalog.lookup .exporter n.type = some comp) (i : Nat) (c p : String) :
    componentID n i c p ∉ keys (connectors ps) := by
  intro hm
  obtain ⟨sig, he⟩ := mem_keys_connectors hm
  have he : n.type ++ String.singleton '/' ++ (pipelineKey c p ++ "__" ++ nodeSuffix n i) =
      "routing" ++ String.singleton '/' ++ ("tenants_" ++ sig) := by
    rw [← slash_sep, ← slash_sep]
    simpa [componentID, routingConnectorID, ← String.toList_inj] using congrArg String.toList he
  obtain ⟨ht, _⟩ := Strconv.append_sep_inj (slash_not_mem_type hc) (by decide) he
  have hr : ∀ c ∈ Catalog.all, c.type ≠ "routing" := by decide
  obtain ⟨hm, _, hct⟩ := Catalog.lookup_mem hc
  exact hr comp hm (hct.trans ht)

end Routing

end Sections
end Pipelines
