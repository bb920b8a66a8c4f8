import OtelFleet.Pipelines.Theorems.Routing
import Mathlib.Data.List.TakeWhile

-- A config is put together from the fragments of its pipelines, which do not depend on each other.
namespace Pipelines

open RenderPipeline Collector Tenants
open Yaml (Entries)

def afterSlash (id : String) : List Char :=
  (id.toList.dropWhile (· ≠ '/')).drop 1

def RenderPipeline.carries (p : RenderPipeline) (id : String) : Bool :=
  afterSlash id = p.key.toList ∨ (p.key ++ "__").toList <+: afterSlash id

section Carries

variable {p q : RenderPipeline}

theorem dropWhile_slash {a : String} (h : '/' ∉ a.toList) : a.toList.dropWhile (· ≠ '/') = [] := by
  rw [List.dropWhile_eq_nil_iff]
  exact fun c hc => decide_eq_true fun he => h (he ▸ hc)

theorem afterSlash_append {a b : String} (h : '/' ∉ a.toList) : afterSlash (a ++ "/" ++ b) = b.toList := by
  simp only [afterSlash, String.toList_append, List.append_assoc, List.dropWhile_append, dropWhile_slash h,
    List.isEmpty_nil, if_true]
  rfl

theorem underscore_mem_key (p : RenderPipeline) : '_' ∈ p.key.toList := by
  simp [key, pipelineKey]

theorem carries_eq_false {id : String} (h : '_' ∉ afterSlash id) : p.carries id = false := by
  have hkey := underscore_mem_key p
  refine decide_eq_false ?_
  rintro (he | hpre)
  · exact h (he ▸ hkey)
  · exact h (hpre.subset (by simp [hkey]))

theorem carries_iff {id : String} :
    p.carries id = true ↔ afterSlash id = p.key.toList ∨ ∃ rest, afterSlash id = (p.key ++ "__" ++ rest).toList := by
  rw [carries, decide_eq_true_iff]
  refine or_congr_right ⟨?_, ?_⟩
  · rintro ⟨rest, he⟩
    exact ⟨String.ofList rest, by simp [← he]⟩
  · rintro ⟨rest, he⟩
    exact ⟨rest.toList, by simp [he]⟩

theorem carries_componentID {n : Node} (ht : '/' ∉ n.type.toList) (i : Nat)
    (hpc : IsSlug p.customerSlug) (hpp : IsSlug p.pipelineSlug) (hqc : IsSlug q.customerSlug)
    (hqp : IsSlug q.pipelineSlug) :
    q.carries (componentID n i p.customerSlug p.pipelineSlug) = true ↔
      p.customerSlug = q.customerSlug ∧ p.pipelineSlug = q.pipelineSlug := by
  have hafter : afterSlash (componentID n i p.customerSlug p.pipelineSlug) =
      (p.customerSlug ++ "__" ++ (p.pipelineSlug ++ "__" ++ nodeSuffix n i)).toList := by
    rw [← afterSlash_append ht]
    simp [componentID, pipelineKey, String.append_assoc]
  rw [carries_iff, hafter]
  constructor
  · rintro (he | ⟨rest, he⟩)
    · -- The slug of `q` would hold an underscore.
      obtain ⟨_, he⟩ := underscores_inj (underscore_not_mem hpc) (underscore_not_mem hqc) (String.toList_inj.mp he)
      exact absurd (he ▸ (by simp : '_' ∈ (p.pipelineSlug ++ "__" ++ nodeSuffix n i).toList))
        (underscore_not_mem hqp)
    · have he : p.customerSlug ++ "__" ++ (p.pipelineSlug ++ "__" ++ nodeSuffix n i) =
          q.customerSlug ++ "__" ++ (q.pipelineSlug ++ "__" ++ rest) := by
        rw [String.toList_inj.mp he, key, pipelineKey]
        simp only [String.append_assoc]
      obtain ⟨hc, he⟩ := underscores_inj (underscore_not_mem hpc) (underscore_not_mem hqc) he
      exact ⟨hc, (underscores_inj (underscore_not_mem hpp) (underscore_not_mem hqp) he).left⟩
  · rintro ⟨hc, hs⟩
    refine .inr ⟨nodeSuffix n i, ?_⟩
    simp only [hc, hs, key, pipelineKey, String.append_assoc]

theorem carries_collectorID {sig : String} (hs : sig ∈ Signals) (hpc : IsSlug p.customerSlug)
    (hpp : IsSlug p.pipelineSlug) (hqc : IsSlug q.customerSlug) :
    q.carries (p.collectorID sig) = true ↔
      p.customerSlug = q.customerSlug ∧ p.pipelineSlug = q.pipelineSlug := by
  have hafter : afterSlash (p.collectorID sig) = p.key.toList := afterSlash_append (slash_not_mem_signal hs)
  rw [carries_iff, hafter]
  constructor
  · rintro (he | ⟨rest, he⟩)
    · exact pipelineKey_inj hpc hqc (String.toList_inj.mp he)
    · -- The slug of `p` would hold an underscore.
      have he : p.customerSlug ++ "__" ++ p.pipelineSlug =
          q.customerSlug ++ "__" ++ (q.pipelineSlug ++ "__" ++ rest) := by
        rw [← String.append_assoc, ← String.append_assoc]
        exact String.toList_inj.mp he
      obtain ⟨_, he⟩ := underscores_inj (underscore_not_mem hpc) (underscore_not_mem hqc) he
      exact absurd (he ▸ (by simp : '_' ∈ (q.pipelineSlug ++ "__" ++ rest).toList)) (underscore_not_mem hpp)
  · rintro ⟨hc, hs⟩
    simp only [key, hc, hs, true_or]

end Carries

def entriesOf (p : RenderPipeline) (entries : Entries) : Entries :=
  entries.filter fun e => p.carries e.1

section Entries

theorem entriesOf_shared {shared : Entries} (h : ∀ id ∈ Assoc.keys shared, '_' ∉ afterSlash id)
    (rest : Entries) : entriesOf p (shared ++ rest) = entriesOf p rest := by
  have hnil : entriesOf p shared = [] := by
    rw [entriesOf, List.filter_eq_nil_iff]
    intro e he
    rw [carries_eq_false (h e.1 (Assoc.mem_keys_of_mem he))]
    exact Bool.false_ne_true
  rw [entriesOf, List.filter_append, ← entriesOf, hnil, List.nil_append, entriesOf]

theorem Renderable.eq_iff_slugs (h : Renderable ps) (hq : q ∈ ps) (hp : p ∈ ps) :
    (q.customerSlug = p.customerSlug ∧ q.pipelineSlug = p.pipelineSlug) ↔ q = p :=
  ⟨fun he => h.eq_of_slugs hq hp he.left he.right, fun he => he ▸ ⟨rfl, rfl⟩⟩

theorem Renderable.entriesOf_customerPipelines (h : Renderable ps) (hp : p ∈ ps)
    (node : String → RenderPipeline → Yaml.Node) :
    entriesOf p (ps.flatMap (customerPipelines node)) = customerPipelines node p := by
  refine Assoc.filter_flatMap h.nodup hp fun q hq e he => ?_
  obtain ⟨sig, hs, _, rfl⟩ := mem_customerPipelines.mp he
  rw [carries_collectorID hs (h.customerSlug q hq) (h.pipelineSlug q hq) (h.customerSlug p hp)]
  exact h.eq_iff_slugs hq hp

variable [Runtime]

theorem Renderable.entriesOf_nodeEntries (h : Renderable ps) {nodes : Graph → List Node}
    (hv : ∀ p ∈ ps, ValidNodes kind (nodes p.graph)) (hp : p ∈ ps) :
    entriesOf p (ps.flatMap fun p => p.nodeEntries (nodes p.graph)) = p.nodeEntries (nodes p.graph) := by
  refine Assoc.filter_flatMap h.nodup hp fun q hq e he => ?_
  obtain ⟨⟨n, i⟩, hn, rfl⟩ := List.mem_map.mp he
  obtain ⟨_, hc⟩ := (hv q hq).known n (List.fst_mem_of_mem_zipIdx hn)
  rw [carries_componentID (slash_not_mem_type hc) i (h.customerSlug q hq) (h.pipelineSlug q hq)
    (h.customerSlug p hp) (h.pipelineSlug p hp)]
  exact h.eq_iff_slugs hq hp

end Entries

def contribution (cfg : Yaml.Node) : Entries × Entries × Entries :=
  (cfg.section? "processors", cfg.section? "exporters", servicePipelines cfg)

def contributionOf (p : RenderPipeline) (cfg : Yaml.Node) : Entries × Entries × Entries :=
  (entriesOf p (cfg.section? "processors"), entriesOf p (cfg.section? "exporters"),
    entriesOf p (servicePipelines cfg))

section Contribution

variable [Runtime]

theorem contribution_fragmentTree (node : String → RenderPipeline → Yaml.Node) (p : RenderPipeline) :
    contribution (fragmentTree node p) =
      (p.nodeEntries p.graph.processors, p.nodeEntries p.graph.exporters, customerPipelines node p) := by
  by_cases hnil : p.graph.processors = []
  · simp only [contribution, fragmentTree, hnil, if_true]
    rfl
  · simp only [contribution, fragmentTree, hnil, if_false]
    rfl

theorem Renderable.contributionOf_forwardingTree (h : Renderable ps) (hp : p ∈ ps) :
    contributionOf p (forwardingTree ps) = contribution (fragmentTree forwardingPipeline p) := by
  rw [contribution_fragmentTree, contributionOf, processors_forwardingTree, exporters_forwardingTree,
    servicePipelines_forwardingTree]
  refine Prod.ext ?_ (Prod.ext ?_ ?_)
  · exact (entriesOf_shared (by decide) _).trans
      (h.entriesOf_nodeEntries (fun p hp => (h.valid p hp).processors) hp)
  · refine (entriesOf_shared ?_ _).trans (h.entriesOf_nodeEntries (fun p hp => (h.valid p hp).exporters) hp)
    split_ifs <;> decide
  · refine (entriesOf_shared ?_ _).trans (h.entriesOf_customerPipelines hp _)
    rw [keys_entryPipelines]
    decide

theorem Renderable.contributionOf_edgeTree (h : Renderable ps) (hp : p ∈ ps) :
    contributionOf p (edgeTree ps) = contribution (fragmentTree (fun _ => edgePipeline) p) := by
  rw [contribution_fragmentTree]
  refine Prod.ext ?_ (Prod.ext ?_ ?_)
  · exact (entriesOf_shared (by decide) _).trans
      (h.entriesOf_nodeEntries (fun p hp => (h.valid p hp).processors) hp)
  · refine (entriesOf_shared ?_ _).trans (h.entriesOf_nodeEntries (fun p hp => (h.valid p hp).exporters) hp)
    split_ifs <;> decide
  · refine (entriesOf_shared ?_ _).trans (h.entriesOf_customerPipelines hp _)
    split_ifs
    · rw [keys_entryPipelines]
      decide
    · decide

end Contribution

section Tables

theorem lookup_foldl_addRoute_eq (sig : String) (routed : List RenderPipeline)
    (table : List (String × List String)) (t : String) (h : routed.filter (·.clientID = t) = []) :
    (routed.foldl (addRoute sig) table).lookup t = table.lookup t := by
  induction routed generalizing table
  case nil => rfl
  case cons p ps hi =>
    have hne : p.clientID ≠ t := by simpa using List.filter_eq_nil_iff.mp h p List.mem_cons_self
    rw [List.filter_cons_of_neg (by simpa using hne)] at h
    rw [List.foldl_cons, hi _ h, lookup_addRoute, if_neg hne]

theorem isSome_lookup_foldl_addRoute (sig : String) (routed : List RenderPipeline)
    (table : List (String × List String)) (t : String)
    (h : (table.lookup t).isSome ∨ routed.filter (·.clientID = t) ≠ []) :
    ((routed.foldl (addRoute sig) table).lookup t).isSome := by
  induction routed generalizing table
  case nil => simpa using h
  case cons p ps hi =>
    refine hi _ ?_
    rw [lookup_addRoute]
    by_cases ht : p.clientID = t
    · simp [ht]
    · rw [List.filter_cons_of_neg (by simpa using ht)] at h
      simpa [ht] using h

theorem lookup_routingTable_eq (sig : String) (h : routed.filter (·.clientID = t) = routed'.filter (·.clientID = t)) :
    (routingTable sig routed).lookup t = (routingTable sig routed').lookup t := by
  by_cases hnil : routed.filter (·.clientID = t) = []
  · rw [routingTable, routingTable, lookup_foldl_addRoute_eq sig routed [] t hnil,
      lookup_foldl_addRoute_eq sig routed' [] t (h ▸ hnil)]
  · obtain ⟨ids, hids⟩ := Option.isSome_iff_exists.mp
      (isSome_lookup_foldl_addRoute sig routed [] t (.inr hnil))
    obtain ⟨ids', hids'⟩ := Option.isSome_iff_exists.mp
      (isSome_lookup_foldl_addRoute sig routed' [] t (.inr (h ▸ hnil)))
    have he := lookup_routingTable sig routed t
    have he' := lookup_routingTable sig routed' t
    rw [routingTable, hids] at he
    rw [routingTable, hids', ← h, ← he] at he'
    rw [routingTable, routingTable, hids, hids']
    exact congrArg some he'.symm

theorem find?_of_lookup {table table' : List (String × List String)}
    (h : table.lookup t = table'.lookup t) : table.find? (·.1 = t) = table'.find? (·.1 = t) := by
  rw [lookup_eq_find?, lookup_eq_find?] at h
  cases hf : table.find? (·.1 = t)
  case none =>
    rw [hf, Option.map_none] at h
    exact (Option.map_eq_none_iff.mp h.symm).symm
  case some e =>
    rw [hf, Option.map_some] at h
    obtain ⟨e', hf', he⟩ := Option.map_eq_some_iff.mp h.symm
    rw [hf']
    have hkey : e.1 = t := by simpa using List.find?_some hf
    have hkey' : e'.1 = t := by simpa using List.find?_some hf'
    exact congrArg some (Prod.ext (hkey.trans hkey'.symm) he.symm)

theorem Renderable.filter_sortPipelines (h : Renderable ps) (hperm : ps.Perm (p :: others)) (hP : P p = false) :
    (sortPipelines ps).filter P = (sortPipelines others).filter P := by
  have hothers : (ps.filter P).Perm (others.filter P) := by
    simpa [hP] using hperm.filter P
  have hsort := (sortPipelines_perm others).filter P
  have hkeys : (ps.map key).Nodup := (duplicateKey_eq_none_iff.mp h.duplicateKey_eq_none).left
  refine eq_of_sorted ?_ ?_ ((sortPipelines_sorted ps).filter P) ((sortPipelines_sorted others).filter P)
  · refine ((hsort.trans hothers.symm).map key).nodup_iff.mpr ?_
    exact hkeys.sublist ((List.filter_sublist).map key)
  · exact ((sortPipelines_perm ps).filter P).trans (hothers.trans hsort.symm)

variable [Runtime]

def tableEntry (cfg : Yaml.Node) (sig clientID : String) : Option Yaml.Node :=
  ((cfg.section? "connectors").lookup (routingConnectorID sig)).bind (entryFor (routingCondition clientID))

theorem tableEntry_forwardingTree (hs : sig ∈ Signals) (t : String) :
    tableEntry (forwardingTree ps) sig t =
      ((routingTable sig (signalsWith ps sig)).find? (·.1 = t)).map routingEntry := by
  rw [tableEntry, connectors_forwardingTree]
  by_cases hnil : signalsWith ps sig = []
  · have hnone : (connectors ps).lookup (routingConnectorID sig) = none := by
      refine Assoc.lookup_eq_none fun hm => ?_
      obtain ⟨_, hm⟩ := Assoc.mem_keys.mp hm
      obtain ⟨sig', hs', he⟩ := List.mem_map.mp hm
      obtain rfl : sig' = sig := by
        simpa [routingConnectorID, ← String.toList_inj] using congrArg Prod.fst he
      simp [hnil] at hs'
    rw [hnone, hnil]
    rfl
  · rw [lookup_connectors hs hnil]
    exact entryFor_routingConnector sig _ t

theorem Renderable.tableEntry_eq (h : Renderable ps) {others : List RenderPipeline}
    (hperm : ps.Perm (p :: others)) (hs : sig ∈ Signals) (ht : p.clientID ≠ t) :
    tableEntry (forwardingTree (sortPipelines ps)) sig t =
      tableEntry (forwardingTree (sortPipelines others)) sig t := by
  have hvalid : ∀ q ∈ sortPipelines ps, q.graph.signals.Nodup :=
    fun q hq => (h.valid q ((sortPipelines_perm ps).mem_iff.mp hq)).distinct
  have hvalid' : ∀ q ∈ sortPipelines others, q.graph.signals.Nodup := fun q hq =>
    (h.valid q (hperm.mem_iff.mpr (List.mem_cons_of_mem _ ((sortPipelines_perm others).mem_iff.mp hq)))).distinct
  rw [tableEntry_forwardingTree hs, tableEntry_forwardingTree hs, signalsWith_eq hvalid,
    signalsWith_eq hvalid']
  refine congrArg (Option.map routingEntry) (find?_of_lookup (lookup_routingTable_eq sig ?_))
  rw [List.filter_filter, List.filter_filter]
  exact h.filter_sortPipelines hperm (by simp [ht])

end Tables

section Compositional

variable [Runtime]

-- What a pipeline contributes is its fragment, and it does not depend on the others; nor do the
-- routing tables of other customers.
theorem rendering_compositional (pipelines others : List RenderPipeline) (p : RenderPipeline)
    (hperm : pipelines.Perm (p :: others)) (hv : ∀ p ∈ pipelines, validateStructural p.graph = [])
    (hc : ∀ p ∈ pipelines, IsSlug p.customerSlug) (hp : ∀ p ∈ pipelines, IsSlug p.pipelineSlug)
    (hd : (pipelines.map fun p => (p.customerSlug, p.pipelineSlug)).Nodup)
    (hone : ∀ q ∈ pipelines, ∀ r ∈ pipelines, q.clientID = r.clientID ↔ q.customerSlug = r.customerSlug) :
    let full := forwardingTree (sortPipelines pipelines)
    let edge := edgeTree (sortPipelines pipelines)
    let fullWithout := forwardingTree (sortPipelines others)
    let edgeWithout := edgeTree (sortPipelines others)
    let fragment := fragmentTree forwardingPipeline p
    let edgeFragment := fragmentTree (fun _ => edgePipeline) p
    (renderForwardingConfig pipelines = .ok (Runtime.marshalYAML full) ∧
      renderForwardingConfig others = .ok (Runtime.marshalYAML fullWithout) ∧
      renderEdgeConfig pipelines = .ok (Runtime.marshalYAML edge) ∧
      renderEdgeConfig others = .ok (Runtime.marshalYAML edgeWithout)) ∧
    (renderFragment p = Runtime.marshalYAML fragment ∧ contributionOf p full = contribution fragment) ∧
    (renderEdgeFragment p = Runtime.marshalYAML edgeFragment ∧
      contributionOf p edge = contribution edgeFragment) ∧
    (∀ q ∈ others, contributionOf q full = contributionOf q fullWithout ∧
      contributionOf q edge = contributionOf q edgeWithout) ∧
    ∀ sig ∈ Signals, ∀ q ∈ others, q.customerSlug ≠ p.customerSlug →
      tableEntry full sig q.clientID = tableEntry fullWithout sig q.clientID := by
  have h := Renderable.of_validateStructural hv hc hp hd
  have hcons := h.perm hperm.symm
  have hothers : Renderable others := {
    valid := fun q hq => hcons.valid q (List.mem_cons_of_mem _ hq)
    customerSlug := fun q hq => hcons.customerSlug q (List.mem_cons_of_mem _ hq)
    pipelineSlug := fun q hq => hcons.pipelineSlug q (List.mem_cons_of_mem _ hq)
    distinct := (List.nodup_cons.mp hcons.distinct).right }
  have hsort := sortPipelines_perm pipelines
  have hsorted := h.perm hsort
  have hsort' := sortPipelines_perm others
  have hsorted' := hothers.perm hsort'
  have hmem : p ∈ pipelines := hperm.mem_iff.mpr List.mem_cons_self
  have hmem' : ∀ q ∈ others, q ∈ pipelines := fun q hq => hperm.mem_iff.mpr (List.mem_cons_of_mem _ hq)
  refine ⟨?_, ?_, ?_, ?_, ?_⟩
  · exact ⟨renderForwardingConfig_eq_ok h, renderForwardingConfig_eq_ok hothers, renderEdgeConfig_eq_ok h,
      renderEdgeConfig_eq_ok hothers⟩
  · exact ⟨rfl, hsorted.contributionOf_forwardingTree (hsort.mem_iff.mpr hmem)⟩
  · exact ⟨rfl, hsorted.contributionOf_edgeTree (hsort.mem_iff.mpr hmem)⟩
  · intro q hq
    have hq' := hsort.mem_iff.mpr (hmem' q hq)
    have hq := hsort'.mem_iff.mpr hq
    exact ⟨(hsorted.contributionOf_forwardingTree hq').trans (hsorted'.contributionOf_forwardingTree hq).symm,
      (hsorted.contributionOf_edgeTree hq').trans (hsorted'.contributionOf_edgeTree hq).symm⟩
  · intro sig hs q hq hne
    exact h.tableEntry_eq hperm hs fun he => hne ((hone p hmem q (hmem' q hq)).mp he).symm

end Compositional

def debugPipeline (customerSlug clientID : String) : RenderPipeline where
  customerSlug := customerSlug
  clientID := clientID
  pipelineSlug := "backup"
  graph := { signals := ["logs"], processors := [], exporters := [{ type := "debug", config := none }] }

def globexBackup : RenderPipeline :=
  debugPipeline "globex" "cust_bbbb2222"

def acmeBackup : RenderPipeline :=
  debugPipeline "acme" "cust_aaaa1111"

-- The backup of one customer is what it was before, now that another customer has one, too.
theorem second_backup_is_apart :
    letI := Runtime.sample
    contributionOf globexBackup (forwardingTree (sortPipelines [globexBackup, acmeBackup])) =
        contribution (fragmentTree forwardingPipeline globexBackup) ∧
      contributionOf acmeBackup (forwardingTree (sortPipelines [globexBackup, acmeBackup])) =
        contributionOf acmeBackup (forwardingTree (sortPipelines [acmeBackup])) ∧
      tableEntry (forwardingTree (sortPipelines [globexBackup, acmeBackup])) "logs" acmeBackup.clientID =
        tableEntry (forwardingTree (sortPipelines [acmeBackup])) "logs" acmeBackup.clientID := by
  obtain ⟨_, ⟨_, hown⟩, _, hothers, htables⟩ := @rendering_compositional Runtime.sample
    [globexBackup, acmeBackup] [acmeBackup] globexBackup (.refl _)
    (by simp only [List.forall_mem_cons]; exact ⟨rfl, rfl, by simp⟩)
    (by decide) (by decide) (by decide) (by decide)
  have hacme := List.mem_singleton_self acmeBackup
  exact ⟨hown, (hothers _ hacme).left, htables "logs" (by decide) _ hacme (by decide)⟩

end Pipelines
