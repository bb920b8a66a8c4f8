import OtelFleet.Pipelines.Theorems.Routing

-- The rendered configs define what they refer to, once, and use what they define.
namespace Pipelines

open RenderPipeline Collector
open Assoc (keys keys_append mem_keys)

structure Complete (ps : List RenderPipeline) : Prop extends Renderable ps where
  signals : ∀ p ∈ ps, p.graph.signals ≠ []
  exporters : ∀ p ∈ ps, p.graph.exporters ≠ []

section Nodes

variable {p : RenderPipeline}

@[simp]
theorem strings_entryPipeline (out : String) :
    (entryPipeline out).strings "receivers" = ["otlp"] ∧
      (entryPipeline out).strings "processors" = ["memory_limiter", "batch"] ∧
      (entryPipeline out).strings "exporters" = [out] :=
  ⟨rfl, rfl, rfl⟩

@[simp]
theorem strings_edgePipeline (p : RenderPipeline) :
    (edgePipeline p).strings "receivers" = ["otlp"] ∧
      (edgePipeline p).strings "processors" = ["memory_limiter", "batch"] ++ p.nodeIDs p.graph.processors ∧
      (edgePipeline p).strings "exporters" = p.nodeIDs p.graph.exporters := by
  simp [edgePipeline, Yaml.Node.strings, Yaml.Node.get?, Yaml.Node.entries, List.lookup_cons]

theorem nodeIDs_ne_nil (h : ns ≠ []) : p.nodeIDs ns ≠ [] := by
  cases ns
  case nil => exact absurd rfl h
  case cons n ns => simp [nodeIDs]

theorem exists_signal (hv : p.graph.Valid) (h : p.graph.signals ≠ []) : ∃ sig ∈ Signals, p.graph.hasSignal sig := by
  obtain ⟨sig, hs⟩ := List.exists_mem_of_ne_nil _ h
  exact ⟨sig, hv.signals sig hs, by simpa [Graph.hasSignal] using hs⟩

end Nodes

section Sections

variable {ps : List RenderPipeline} {nodes : Graph → List Node}

theorem Complete.perm (h : Complete ps) (hp : qs.Perm ps) : Complete qs :=
  { h.toRenderable.perm hp with
    signals := fun p hm => h.signals p (hp.mem_iff.mp hm)
    exporters := fun p hm => h.exporters p (hp.mem_iff.mp hm) }

theorem Renderable.nodup_servicePipelines (h : Renderable ps)
    (node : String → RenderPipeline → Yaml.Node) (hn : (keys entry).Nodup)
    (he : ∀ id ∈ keys entry, ∃ sig ∈ Signals, id = sig ++ "/in") :
    (keys (entry ++ ps.flatMap (customerPipelines node))).Nodup := by
  rw [keys_append]
  refine hn.append (h.nodup_customerPipelines node) fun id hid hid' => ?_
  obtain ⟨sig, hs, rfl⟩ := he id hid
  obtain ⟨_, hid'⟩ := mem_keys.mp hid'
  obtain ⟨p, _, hid'⟩ := List.mem_flatMap.mp hid'
  obtain ⟨sig', hs', _, he⟩ := mem_customerPipelines.mp hid'
  exact entryID_ne hs hs' (congrArg Prod.fst he)

variable [Runtime]

theorem Renderable.nodup_components (h : Renderable ps) (hv : ∀ p ∈ ps, ValidNodes kind (nodes p.graph))
    (hs : (keys shared).Nodup) (hslash : ∀ id ∈ keys shared, '/' ∉ id.toList) :
    (keys (shared ++ ps.flatMap fun p => p.nodeEntries (nodes p.graph))).Nodup := by
  simp only [keys_append, Assoc.keys_flatMap, keys_nodeEntries]
  refine hs.append (h.nodup_nodeIDs hv) fun id hid hid' => ?_
  obtain ⟨p, _, hid'⟩ := List.mem_flatMap.mp hid'
  obtain ⟨n, i, _, rfl⟩ := mem_nodeIDs.mp hid'
  exact hslash _ hid (slash_mem_componentID n i _ _)

theorem mem_keys_components {id : String} :
    id ∈ keys (shared ++ ps.flatMap fun p => p.nodeEntries (nodes p.graph)) ↔
      id ∈ keys shared ∨ ∃ p ∈ ps, id ∈ p.nodeIDs (nodes p.graph) := by
  simp only [keys_append, Assoc.keys_flatMap, keys_nodeEntries, List.mem_append, List.mem_flatMap]

theorem Renderable.nodup_allProcessors (h : Renderable ps) : (keys (allProcessors ps)).Nodup :=
  h.nodup_components (fun p hp => (h.valid p hp).processors) (by decide) (by decide)

end Sections

section Forwarding

variable {ps : List RenderPipeline}

theorem mem_forwardingPipelines :
    e ∈ forwardingPipelines ps ↔
      (∃ sig ∈ Signals, e = (sig ++ "/in", entryPipeline (sink ps sig))) ∨
      ∃ p ∈ ps, ∃ sig ∈ Signals, p.graph.hasSignal sig ∧ e = (p.collectorID sig, forwardingPipeline sig p) := by
  simp only [forwardingPipelines, List.mem_append, List.mem_map, List.mem_flatMap, mem_customerPipelines,
    eq_comm]

theorem Renderable.signalsWith_ne_nil (h : Renderable ps) (hp : p ∈ ps)
    (hm : p.graph.hasSignal sig) : signalsWith ps sig ≠ [] := by
  rw [signalsWith_eq fun p hp => (h.valid p hp).distinct]
  exact List.ne_nil_of_mem (List.mem_filter.mpr ⟨hp, hm⟩)

theorem Renderable.exists_of_signalsWith (h : Renderable ps) (hne : signalsWith ps sig ≠ []) :
    ∃ p ∈ ps, p.graph.hasSignal sig := by
  rw [signalsWith_eq fun p hp => (h.valid p hp).distinct] at hne
  obtain ⟨p, hp⟩ := List.exists_mem_of_ne_nil _ hne
  exact ⟨p, List.mem_filter.mp hp⟩

theorem Renderable.nodup_forwardingPipelines (h : Renderable ps) : (keys (forwardingPipelines ps)).Nodup := by
  refine h.nodup_servicePipelines forwardingPipeline ?_ ?_
  · rw [keys_entryPipelines]
    decide
  · intro id hid
    obtain ⟨_, hid⟩ := mem_keys.mp hid
    obtain ⟨sig, hs, he⟩ := List.mem_map.mp hid
    exact ⟨sig, hs, (congrArg Prod.fst he).symm⟩

theorem Complete.forwarding_ends (h : Complete ps) (he : e ∈ forwardingPipelines ps) :
    e.2.strings "receivers" ≠ [] ∧ e.2.strings "exporters" ≠ [] := by
  obtain ⟨sig, _, rfl⟩ | ⟨p, hp, sig, _, _, rfl⟩ := mem_forwardingPipelines.mp he
  · simp
  · rw [strings_receivers, strings_exporters]
    exact ⟨List.cons_ne_nil _ _, nodeIDs_ne_nil (h.exporters p hp)⟩

theorem mem_addRoute {sig id : String}
    (h : id ∈ (addRoute sig table p).flatMap Prod.snd) : id ∈ table.flatMap Prod.snd ∨ id = p.collectorID sig := by
  obtain ⟨e, he, hid⟩ := List.mem_flatMap.mp h
  unfold addRoute at he
  split_ifs at he
  · obtain ⟨e', he', rfl⟩ := List.mem_map.mp he
    split_ifs at hid
    · obtain hid | hid := List.mem_append.mp hid
      · exact .inl (List.mem_flatMap.mpr ⟨e', he', hid⟩)
      · exact .inr (List.mem_singleton.mp hid)
    · exact .inl (List.mem_flatMap.mpr ⟨e', he', hid⟩)
  · obtain he | he := List.mem_append.mp he
    · exact .inl (List.mem_flatMap.mpr ⟨e, he, hid⟩)
    · rw [List.mem_singleton.mp he] at hid
      exact .inr (List.mem_singleton.mp hid)

theorem mem_foldl_addRoute {sig id : String} (routed : List RenderPipeline)
    (table : List (String × List String)) (h : id ∈ (routed.foldl (addRoute sig) table).flatMap Prod.snd) :
    id ∈ table.flatMap Prod.snd ∨ ∃ p ∈ routed, id = p.collectorID sig := by
  induction routed generalizing table
  case nil => exact .inl h
  case cons p ps hi =>
    obtain h | ⟨q, hq, he⟩ := hi _ h
    · obtain h | he := mem_addRoute h
      · exact .inl h
      · exact .inr ⟨p, List.mem_cons_self, he⟩
    · exact .inr ⟨q, List.mem_cons_of_mem _ hq, he⟩

variable [Runtime]

theorem mem_keys_connectors_iff {id : String} :
    id ∈ keys (connectors ps) ↔
      ∃ sig ∈ Signals, signalsWith ps sig ≠ [] ∧ id = routingConnectorID sig := by
  rw [connectors, keys, List.map_map, List.mem_map]
  simp only [List.mem_filter, decide_eq_true_eq, and_assoc, Function.comp_apply]
  exact exists_congr fun sig => by rw [eq_comm (a := id)]

theorem nodup_connectors : (keys (connectors ps)).Nodup := by
  have hsig : Signals.Nodup := by decide
  simp only [keys, connectors, List.map_map]
  refine (hsig.filter _).map_on fun s _ s' _ he => ?_
  simpa [routingConnectorID, ← String.toList_inj] using he

theorem debug_mem_forwardingExporters (hs : sig ∈ Signals) (hne : signalsWith ps sig = []) :
    "debug" ∈ keys (forwardingExporters ps) := by
  have hany : (Signals.any fun sig => signalsWith ps sig = []) = true :=
    List.any_eq_true.mpr ⟨sig, hs, by simpa using hne⟩
  simp [forwardingExporters, hany]

theorem mem_keys_forwardingExporters {id : String} (h : id ∈ keys (forwardingExporters ps)) :
    (id = "debug" ∧ ∃ sig ∈ Signals, signalsWith ps sig = []) ∨ ∃ p ∈ ps, id ∈ p.nodeIDs p.graph.exporters := by
  obtain h | h := mem_keys_components.mp h
  · split_ifs at h with hany
    · obtain ⟨sig, hs, hnil⟩ := List.any_eq_true.mp hany
      exact .inl ⟨by simpa using h, sig, hs, by simpa using hnil⟩
    · simp at h
  · exact .inr h

theorem sink_defined {sig : String} (hs : sig ∈ Signals) :
    sink ps sig ∈ keys (forwardingExporters ps) ∨ sink ps sig ∈ keys (connectors ps) := by
  unfold sink
  split_ifs with hne
  · exact .inl (debug_mem_forwardingExporters hs hne)
  · exact .inr (mem_keys_connectors_iff.mpr ⟨sig, hs, hne, rfl⟩)

theorem mem_tablePipelines {sig id : String} (h : id ∈ tablePipelines (routingConnector sig routed) ++
      (routingConnector sig routed).strings "default_pipelines") : ∃ p ∈ routed, id = p.collectorID sig := by
  obtain h | h := List.mem_append.mp h
  case inl =>
    obtain ⟨_, he, hid⟩ := List.mem_flatMap.mp h
    obtain ⟨e, hmem, rfl⟩ := List.mem_map.mp he
    rw [strings_routingEntry] at hid
    have htable : id ∈ (routed.foldl (addRoute sig) []).flatMap Prod.snd :=
      List.mem_flatMap.mpr ⟨e, hmem, hid⟩
    obtain h | h := mem_foldl_addRoute routed [] htable
    · simp at h
    · exact h
  case inr => simp [routingConnector, Yaml.Node.strings, Yaml.Node.get?, Yaml.Node.entries] at h

theorem receives_forwardingTree (h : Renderable ps) (hp : p ∈ ps) (hs : sig ∈ Signals) (hm : p.graph.hasSignal sig) :
    receives (forwardingTree ps) (routingConnectorID sig) (p.collectorID sig) = true := by
  rw [receives, servicePipelines_forwardingTree, h.lookup_forwardingPipeline hp hs hm]
  simp

theorem Renderable.nodup_forwardingTree (h : Renderable ps) {key : String}
    (hk : key ∈ ["receivers", "processors", "exporters", "connectors"]) :
    (keys ((forwardingTree ps).section? key)).Nodup := by
  simp only [List.mem_cons, List.not_mem_nil, or_false] at hk
  obtain rfl | rfl | rfl | rfl := hk
  · rw [Yaml.Node.section?, get?_forwardingTree (by decide)]
    exact List.nodup_singleton _
  · rw [processors_forwardingTree]
    exact h.nodup_allProcessors
  · rw [exporters_forwardingTree]
    refine h.nodup_components (fun p hp => (h.valid p hp).exporters) ?_ ?_
    all_goals split_ifs <;> decide
  · rw [connectors_forwardingTree]
    exact nodup_connectors

section References

variable (he : e ∈ forwardingPipelines ps) {id : String}
include he

theorem Renderable.forwarding_receivers (h : Renderable ps) (hid : id ∈ e.2.strings "receivers") :
    id = "otlp" ∨ id ∈ keys (connectors ps) := by
  obtain ⟨sig, _, rfl⟩ | ⟨p, hp, sig, hs, hm, rfl⟩ := mem_forwardingPipelines.mp he
  · rw [(strings_entryPipeline _).left] at hid
    exact .inl (List.mem_singleton.mp hid)
  · rw [strings_receivers, List.mem_singleton] at hid
    exact .inr (mem_keys_connectors_iff.mpr ⟨sig, hs, h.signalsWith_ne_nil hp hm, hid⟩)

theorem forwarding_processors (hid : id ∈ e.2.strings "processors") : id ∈ keys (allProcessors ps) := by
  obtain ⟨sig, _, rfl⟩ | ⟨p, hp, sig, _, _, rfl⟩ := mem_forwardingPipelines.mp he
  · rw [(strings_entryPipeline _).right.left] at hid
    exact mem_keys_components.mpr (.inl hid)
  · rw [strings_processors] at hid
    exact mem_keys_components.mpr (.inr ⟨p, hp, hid⟩)

theorem forwarding_exporters (hid : id ∈ e.2.strings "exporters") :
    id ∈ keys (forwardingExporters ps) ∨ id ∈ keys (connectors ps) := by
  obtain ⟨sig, hs, rfl⟩ | ⟨p, hp, sig, _, _, rfl⟩ := mem_forwardingPipelines.mp he
  · rw [(strings_entryPipeline _).right.right, List.mem_singleton] at hid
    exact hid ▸ sink_defined hs
  · rw [strings_exporters] at hid
    exact .inl (mem_keys_components.mpr (.inr ⟨p, hp, hid⟩))

end References

theorem Renderable.forwarding_routed (h : Renderable ps) {c : String × Yaml.Node} (hc : c ∈ connectors ps)
    {id : String} (hid : id ∈ tablePipelines c.2 ++ c.2.strings "default_pipelines") :
    id ∈ keys (forwardingPipelines ps) ∧ receives (forwardingTree ps) c.1 id := by
  obtain ⟨sig, hs, rfl⟩ := List.mem_map.mp hc
  have hs := List.mem_of_mem_filter hs
  obtain ⟨p, hp, rfl⟩ := mem_tablePipelines hid
  rw [signalsWith_eq fun p hp => (h.valid p hp).distinct] at hp
  obtain ⟨hp, hm⟩ := List.mem_filter.mp hp
  refine ⟨?_, receives_forwardingTree h hp hs hm⟩
  exact Assoc.mem_keys_of_mem (mem_forwardingPipelines.mpr (.inr ⟨p, hp, sig, hs, hm, rfl⟩))

theorem forwarding_fed {id : String} (hid : id ∈ keys (connectors ps)) :
    ∃ e ∈ forwardingPipelines ps, id ∈ e.2.strings "exporters" := by
  obtain ⟨sig, hs, hne, rfl⟩ := mem_keys_connectors_iff.mp hid
  refine ⟨_, mem_forwardingPipelines.mpr (.inl ⟨sig, hs, rfl⟩), ?_⟩
  rw [(strings_entryPipeline _).right.right, sink, if_neg hne]
  exact List.mem_singleton_self _

theorem Renderable.forwarding_drained (h : Renderable ps) {id : String} (hid : id ∈ keys (connectors ps)) :
    ∃ e ∈ forwardingPipelines ps, id ∈ e.2.strings "receivers" := by
  obtain ⟨sig, hs, hne, rfl⟩ := mem_keys_connectors_iff.mp hid
  obtain ⟨p, hp, hm⟩ := h.exists_of_signalsWith hne
  refine ⟨_, mem_forwardingPipelines.mpr (.inr ⟨p, hp, sig, hs, hm, rfl⟩), ?_⟩
  rw [strings_receivers]
  exact List.mem_singleton_self _

theorem Complete.forwarding_used (h : Complete ps) {id : String} (hid : id ∈ keys (forwardingExporters ps)) :
    ∃ e ∈ forwardingPipelines ps, id ∈ e.2.strings "exporters" := by
  obtain ⟨rfl, sig, hs, hnil⟩ | ⟨p, hp, hid⟩ := mem_keys_forwardingExporters hid
  · refine ⟨_, mem_forwardingPipelines.mpr (.inl ⟨sig, hs, rfl⟩), ?_⟩
    rw [(strings_entryPipeline _).right.right, sink, if_pos hnil]
    exact List.mem_singleton_self _
  · obtain ⟨sig, hs, hm⟩ := exists_signal (h.valid p hp) (h.signals p hp)
    refine ⟨_, mem_forwardingPipelines.mpr (.inr ⟨p, hp, sig, hs, hm, rfl⟩), ?_⟩
    rwa [strings_exporters]

theorem Complete.closed_forwardingTree (h : Complete ps) : Closed (forwardingTree ps) := by
  have hotlp : "otlp" ∈ keys ((forwardingTree ps).section? "receivers") := by
    rw [Yaml.Node.section?, get?_forwardingTree (by decide)]
    exact List.mem_singleton_self _
  refine {
    sections := fun key hk => h.nodup_forwardingTree hk
    pipelines := ?pipelines
    receivers := ?receivers
    processors := ?processors
    exporters := ?exporters
    routed := ?routed
    fed := ?fed
    drained := ?drained
    used := ?used
    ends := ?ends }
  all_goals simp only [servicePipelines_forwardingTree, processors_forwardingTree,
    exporters_forwardingTree, connectors_forwardingTree]
  case pipelines => exact h.nodup_forwardingPipelines
  case receivers =>
    intro e he id hid
    obtain rfl | hc := h.forwarding_receivers he hid
    · exact .inl hotlp
    · exact .inr hc
  case processors => exact fun e he id hid => forwarding_processors he hid
  case exporters => exact fun e he id hid => forwarding_exporters he hid
  case routed => exact fun c hc id hid => h.forwarding_routed hc hid
  case fed => exact fun id hid => forwarding_fed hid
  case drained => exact fun id hid => h.forwarding_drained hid
  case used => exact fun id hid => h.forwarding_used hid
  case ends => exact fun e he => h.forwarding_ends he

end Forwarding

section Edge

theorem mem_edgePipelines :
    e ∈ edgePipelines ps ↔
      (ps = [] ∧ ∃ sig ∈ Signals, e = (sig ++ "/in", entryPipeline "debug")) ∨
      ∃ p ∈ ps, ∃ sig ∈ Signals, p.graph.hasSignal sig ∧ e = (p.collectorID sig, edgePipeline p) := by
  rw [edgePipelines, List.mem_append, List.mem_flatMap]
  simp only [mem_customerPipelines]
  split_ifs with hnil
  · simp only [hnil, true_and, List.mem_map, eq_comm]
  · simp only [hnil, false_and, List.not_mem_nil]

theorem Renderable.nodup_edgePipelines (h : Renderable ps) : (keys (edgePipelines ps)).Nodup := by
  refine h.nodup_servicePipelines (fun _ => edgePipeline) ?_ ?_
  · split_ifs
    · rw [keys_entryPipelines]
      decide
    · exact List.nodup_nil
  · intro id hid
    split_ifs at hid
    · obtain ⟨_, hid⟩ := mem_keys.mp hid
      obtain ⟨sig, hs, he⟩ := List.mem_map.mp hid
      exact ⟨sig, hs, (congrArg Prod.fst he).symm⟩
    · simp at hid

theorem Complete.edge_ends (h : Complete ps) (he : e ∈ edgePipelines ps) :
    e.2.strings "receivers" ≠ [] ∧ e.2.strings "exporters" ≠ [] := by
  obtain ⟨_, sig, _, rfl⟩ | ⟨p, hp, sig, _, _, rfl⟩ := mem_edgePipelines.mp he
  · simp
  · rw [(strings_edgePipeline p).left, (strings_edgePipeline p).right.right]
    exact ⟨List.cons_ne_nil _ _, nodeIDs_ne_nil (h.exporters p hp)⟩

theorem edge_receivers (he : e ∈ edgePipelines ps) {id : String}
    (hid : id ∈ e.2.strings "receivers") : id = "otlp" := by
  obtain ⟨_, sig, _, rfl⟩ | ⟨p, _, sig, _, _, rfl⟩ := mem_edgePipelines.mp he
  · rw [(strings_entryPipeline _).left] at hid
    exact List.mem_singleton.mp hid
  · rw [(strings_edgePipeline p).left] at hid
    exact List.mem_singleton.mp hid

variable [Runtime]

theorem edge_processors (he : e ∈ edgePipelines ps) {id : String}
    (hid : id ∈ e.2.strings "processors") : id ∈ keys (allProcessors ps) := by
  obtain ⟨_, sig, _, rfl⟩ | ⟨p, hp, sig, _, _, rfl⟩ := mem_edgePipelines.mp he
  · rw [(strings_entryPipeline _).right.left] at hid
    exact mem_keys_components.mpr (.inl hid)
  · rw [(strings_edgePipeline p).right.left] at hid
    obtain hid | hid := List.mem_append.mp hid
    · exact mem_keys_components.mpr (.inl hid)
    · exact mem_keys_components.mpr (.inr ⟨p, hp, hid⟩)

theorem edge_exporters (he : e ∈ edgePipelines ps) {id : String}
    (hid : id ∈ e.2.strings "exporters") : id ∈ keys (edgeExporters ps) := by
  obtain ⟨hnil, sig, _, rfl⟩ | ⟨p, hp, sig, _, _, rfl⟩ := mem_edgePipelines.mp he
  · rw [(strings_entryPipeline _).right.right, List.mem_singleton] at hid
    refine mem_keys_components.mpr (.inl ?_)
    rw [if_pos hnil, hid]
    exact List.mem_singleton_self _
  · rw [(strings_edgePipeline p).right.right] at hid
    exact mem_keys_components.mpr (.inr ⟨p, hp, hid⟩)

theorem Complete.edge_used (h : Complete ps) {id : String} (hid : id ∈ keys (edgeExporters ps)) :
    ∃ e ∈ edgePipelines ps, id ∈ e.2.strings "exporters" := by
  obtain hid | ⟨p, hp, hid⟩ := mem_keys_components.mp hid
  · split_ifs at hid with hnil
    · refine ⟨_, mem_edgePipelines.mpr (.inl ⟨hnil, "logs", by decide, rfl⟩), ?_⟩
      rw [(strings_entryPipeline _).right.right]
      exact hid
    · simp at hid
  · obtain ⟨sig, hs, hm⟩ := exists_signal (h.valid p hp) (h.signals p hp)
    refine ⟨_, mem_edgePipelines.mpr (.inr ⟨p, hp, sig, hs, hm, rfl⟩), ?_⟩
    rwa [(strings_edgePipeline p).right.right]

theorem Renderable.nodup_edgeTree (h : Renderable ps) {key : String}
    (hk : key ∈ ["receivers", "processors", "exporters", "connectors"]) :
    (keys ((edgeTree ps).section? key)).Nodup := by
  simp only [List.mem_cons, List.not_mem_nil, or_false] at hk
  obtain rfl | rfl | rfl | rfl := hk
  · exact List.nodup_singleton _
  · exact h.nodup_allProcessors
  · refine h.nodup_components (fun p hp => (h.valid p hp).exporters) ?_ ?_
    all_goals split_ifs <;> decide
  · exact List.nodup_nil

theorem Complete.closed_edgeTree (h : Complete ps) : Closed (edgeTree ps) where
  sections _ hk := h.nodup_edgeTree hk
  pipelines := h.nodup_edgePipelines
  receivers _ he _ hid := .inl (edge_receivers he hid ▸ List.mem_singleton_self _)
  processors _ he _ hid := edge_processors he hid
  exporters _ he _ hid := .inl (edge_exporters he hid)
  routed := nofun
  fed := nofun
  drained := nofun
  used _ hid := h.edge_used hid
  ends _ he := h.edge_ends he

end Edge

section Rendered

variable [Runtime]

theorem Complete.of_validateStructural (hv : ∀ p ∈ pipelines, validateStructural p.graph = [])
    (hc : ∀ p ∈ pipelines, Tenants.IsSlug p.customerSlug) (hp : ∀ p ∈ pipelines, Tenants.IsSlug p.pipelineSlug)
    (hd : (pipelines.map fun p => (p.customerSlug, p.pipelineSlug)).Nodup) : Complete pipelines := by
  refine { Renderable.of_validateStructural hv hc hp hd with signals := ?_, exporters := ?_ }
  all_goals
    intro p hp hnil
    have h := hv p hp
    simp [validateStructural, hnil] at h

-- Both renderers succeed, and what they render is closed.
theorem rendered_configs_closed (pipelines : List RenderPipeline)
    (hv : ∀ p ∈ pipelines, validateStructural p.graph = [])
    (hc : ∀ p ∈ pipelines, Tenants.IsSlug p.customerSlug)
    (hp : ∀ p ∈ pipelines, Tenants.IsSlug p.pipelineSlug)
    (hd : (pipelines.map fun p => (p.customerSlug, p.pipelineSlug)).Nodup) :
    let forwarding := forwardingTree (sortPipelines pipelines)
    let edge := edgeTree (sortPipelines pipelines)
    (renderForwardingConfig pipelines = .ok (Runtime.marshalYAML forwarding) ∧ Closed forwarding) ∧
      renderEdgeConfig pipelines = .ok (Runtime.marshalYAML edge) ∧ Closed edge := by
  have h := Complete.of_validateStructural hv hc hp hd
  have hsorted := h.perm (sortPipelines_perm pipelines)
  exact ⟨⟨renderForwardingConfig_eq_ok h.toRenderable, hsorted.closed_forwardingTree⟩,
    renderEdgeConfig_eq_ok h.toRenderable, hsorted.closed_edgeTree⟩

end Rendered

theorem samplePipelines_closed :
    letI := Runtime.sample
    Closed (forwardingTree (sortPipelines samplePipelines)) ∧ Closed (edgeTree (sortPipelines samplePipelines)) := by
  let _ := Runtime.sample
  have h := rendered_configs_closed samplePipelines
    (by simp only [samplePipelines, List.forall_mem_cons]; exact ⟨rfl, rfl, by simp⟩)
    (by decide) (by decide) (by decide)
  exact ⟨h.left.right, h.right.right⟩

end Pipelines
