import OtelFleet.Pipelines.Distributor
import OtelFleet.Pipelines.Theorems.Routing

open Json (Value)

-- What a custom resource holds after a rollout.
namespace Pipelines

theorem distribute_cases (d : K8sDistributor) (codec : Codec) (refusal : Option String) (cr : Value) (text : String) :
    (∃ e, (d.distribute codec refusal cr text).1 = .error e) ∧
        (d.distribute codec refusal cr text).2 = cr ∨
      ∃ cfg r, codec.unmarshalYAML text = .ok cfg ∧
        d.distribute codec refusal cr text = (.ok r, cr.mergePatch (specConfig cfg)) := by
  unfold K8sDistributor.distribute
  split
  case _ => exact .inl ⟨⟨_, rfl⟩, rfl⟩
  case _ cfg hc =>
    split
    case _ => exact .inl ⟨⟨_, rfl⟩, rfl⟩
    case _ =>
      split
      case _ => exact .inl ⟨⟨_, rfl⟩, rfl⟩
      case _ => exact .inr ⟨cfg, _, hc, rfl⟩

theorem configOf_mergePatch (cr : Value) (config : Object) :
    configOf (cr.mergePatch (specConfig (some config))) =
      some (((configOf cr).getD .null).mergePatch (.obj config.fields)) := by
  have hold : (configOf cr).getD .null =
      (((cr.fields.lookup "spec").getD .null).fields.lookup "config").getD .null := by
    simp only [configOf, Value.at?]
    cases cr.fields.lookup "spec"
    case none => rfl
    case some spec => cases hc : spec.fields.lookup "config" <;> simp [hc]
  rw [hold]
  simp [configOf, specConfig, Value.mergePatch, Value.mergeFields, Value.at?, Value.fields]

-- A call that succeeds replaces the config exactly when the new config names whatever the resource
-- holds, at every depth.
theorem config_replaced_iff (d : K8sDistributor) (codec : Codec) (initial : Value)
    (calls : List (String × Option String)) (text : String) (config : Object) (r : Rollout)
    (htext : codec.unmarshalYAML text = .ok (some config))
    (hok : (d.distribute codec none (d.distributeAll codec initial calls) text).1 = .ok r) :
    (∃ v, configOf (d.distributeAll codec initial (calls ++ [(text, none)])) = some v ∧
        v.SameTree (.obj config.fields)) ↔
      (Value.obj config.fields).Covers ((configOf (d.distributeAll codec initial calls)).getD .null) := by
  generalize hbefore : d.distributeAll codec initial calls = cr at hok
  have hafter : d.distributeAll codec initial (calls ++ [(text, none)]) =
      cr.mergePatch (specConfig (some config)) := by
    rw [d.distributeAll_concat, hbefore]
    obtain ⟨⟨e, he⟩, _⟩ | ⟨cfg, _, hc, hd⟩ := distribute_cases d codec none cr text
    · rw [he] at hok
      cases hok
    · rw [htext] at hc
      cases hc
      exact congrArg Prod.snd hd
  rw [hafter, configOf_mergePatch, ← Value.mergePatch_sameTree_iff config.wf]
  simp

section Sample

mutual

def decodedNode : Yaml.Node → Value
  | .plain text =>
    if text.toList.all Char.isDigit then
      .number ⟨false, text.toList.foldl (fun n c => 10 * n + (c.toNat - '0'.toNat)) 0, 0⟩
    else .bool (text = "true")
  | .str s => .str s
  | .seq _ items => .arr (decodedItems items)
  | .map entries => .obj (decodedEntries entries)

def decodedItems : List Yaml.Node → List Value
  | [] => []
  | n :: ns => decodedNode n :: decodedItems ns

def decodedEntries : Yaml.Entries → Json.Fields
  | [] => []
  | (k, n) :: es => (k, decodedNode n) :: decodedEntries es

end

def sampleTree (ps : List RenderPipeline) : Yaml.Node :=
  @forwardingTree Runtime.sample (sortPipelines ps)

def sampleText (ps : List RenderPipeline) : String :=
  Runtime.sample.marshalYAML (sampleTree ps)

def lastPipeline : List RenderPipeline :=
  [{ customerSlug := "acme", clientID := "cust_a", pipelineSlug := "logs"
     graph := { signals := ["logs"], processors := [], exporters := [{ type := "debug", config := none }] } }]

def busyConfig : Object :=
  { fields := (decodedNode (sampleTree lastPipeline)).fields, wf := by decide +kernel }

def emptyConfig : Object :=
  { fields := (decodedNode (sampleTree [])).fields, wf := by decide +kernel }

def sampleCodec : Codec where
  unmarshalYAML text :=
    if text = sampleText lastPipeline then .ok (some busyConfig)
    else if text = sampleText [] then .ok (some emptyConfig)
    else .error "yaml: unmarshal errors"
  marshalJSON _ := .ok ()

def sampleDistributor : K8sDistributor :=
  { name := "otelfleet-forwarding", nameSpace := "otelfleet" }

def newResource : Value :=
  .obj [("spec", .obj [("mode", .str "deployment")])]

theorem sampleCodec_busy : sampleCodec.unmarshalYAML (sampleText lastPipeline) = .ok (some busyConfig) := by
  simp only [sampleCodec, if_true]

theorem sampleCodec_empty : sampleCodec.unmarshalYAML (sampleText []) = .ok (some emptyConfig) := by
  have hne : sampleText [] ≠ sampleText lastPipeline := by decide +kernel
  simp only [sampleCodec, hne, if_false, if_true]

theorem sampleDistributor_ok (h : sampleCodec.unmarshalYAML text = .ok (some config)) (cr : Value) :
    ∃ r, sampleDistributor.distribute sampleCodec none cr text =
      (.ok r, cr.mergePatch (specConfig (some config))) := by
  have hm : sampleCodec.marshalJSON (specConfig (some config)) = .ok () := rfl
  simp only [K8sDistributor.distribute, h, hm, Prod.mk.injEq, and_true]
  exact ⟨_, rfl⟩

theorem distributeAll_refused (calls : List (String × Option String)) (e : String) :
    sampleDistributor.distributeAll sampleCodec newResource (calls ++ [(sampleText [], some e)]) =
      sampleDistributor.distributeAll sampleCodec newResource calls := by
  have hm : sampleCodec.marshalJSON (specConfig (some emptyConfig)) = .ok () := rfl
  simp only [K8sDistributor.distributeAll_concat, K8sDistributor.distribute, sampleCodec_empty, hm]

-- The config is rolled out again after another one has been refused.
theorem second_rollout_is_taken_over :
    ∃ v, configOf (sampleDistributor.distributeAll sampleCodec newResource
        ([(sampleText lastPipeline, none), (sampleText [], some "conflict")] ++ [(sampleText lastPipeline, none)])) = some v ∧
      v.SameTree (.obj busyConfig.fields) := by
  have hnull : ∀ w ∈ (Value.obj busyConfig.fields).subvalues, w ≠ .null := by decide +kernel
  obtain ⟨_, hfirst⟩ := sampleDistributor_ok sampleCodec_busy newResource
  obtain ⟨v, hv, hs⟩ := (config_replaced_iff sampleDistributor sampleCodec newResource [] _ busyConfig _
    sampleCodec_busy (congrArg Prod.fst hfirst)).mpr (Value.covers_of_isSome hnull fun path k hk => by
      cases path <;> cases hk)
  have hsame := distributeAll_refused [(sampleText lastPipeline, none)] "conflict"
  obtain ⟨_, hr⟩ := sampleDistributor_ok sampleCodec_busy (sampleDistributor.distributeAll sampleCodec newResource
    [(sampleText lastPipeline, none), (sampleText [], some "conflict")])
  refine (config_replaced_iff sampleDistributor sampleCodec newResource _ _ busyConfig _ sampleCodec_busy
    (congrArg Prod.fst hr)).mpr (Value.covers_of_isSome hnull fun path k hk => ?_)
  have hat := congrArg Option.isSome (hs (path ++ [k]))
  rw [List.singleton_append] at hsame
  rw [List.nil_append] at hv
  rw [hsame, hv, Option.getD_some] at hk
  rw [Option.isSome_map, Option.isSome_map, hk] at hat
  exact hat.symm

theorem renderForwardingConfig_sample (h : duplicateKey [] (sortPipelines ps) = none) :
    @renderForwardingConfig Runtime.sample ps = .ok (sampleText ps) := by
  simp only [renderForwardingConfig, h, sampleText, sampleTree]

def emptied : Value :=
  (newResource.mergePatch (specConfig (some busyConfig))).mergePatch (specConfig (some emptyConfig))

theorem distributeAll_emptied :
    sampleDistributor.distributeAll sampleCodec newResource
      [(sampleText lastPipeline, none), (sampleText [], none)] = emptied := by
  have ⟨_, hbusy⟩ := sampleDistributor_ok sampleCodec_busy newResource
  have ⟨_, hempty⟩ := sampleDistributor_ok sampleCodec_empty
    (newResource.mergePatch (specConfig (some busyConfig)))
  rw [K8sDistributor.distributeAll, List.foldl_cons, List.foldl_cons, List.foldl_nil]
  rw [congrArg Prod.snd hbusy, congrArg Prod.snd hempty, emptied]

theorem emptied_has_connectors :
    ((configOf emptied).bind (·.at? ["connectors"])).isSome ∧
      ((Value.obj emptyConfig.fields).at? ["connectors"]).isNone := by
  decide +kernel

-- After the last pipeline is gone, its connector is still there.
theorem emptied_config_is_not_replaced :
    @renderForwardingConfig Runtime.sample lastPipeline = .ok (sampleText lastPipeline) ∧
      @renderForwardingConfig Runtime.sample [] = .ok (sampleText []) ∧
      sampleCodec.unmarshalYAML (sampleText []) = .ok (some emptyConfig) ∧
      ¬∃ v, configOf (sampleDistributor.distributeAll sampleCodec newResource
          [(sampleText lastPipeline, none), (sampleText [], none)]) = some v ∧
        v.SameTree (.obj emptyConfig.fields) := by
  refine ⟨renderForwardingConfig_sample rfl, renderForwardingConfig_sample rfl, sampleCodec_empty, ?_⟩
  rintro ⟨v, hv, hs⟩
  have ⟨hkept, hlacks⟩ := emptied_has_connectors
  rw [distributeAll_emptied] at hv
  rw [hv] at hkept
  have ⟨w, hw⟩ := Option.isSome_iff_exists.mp hkept
  have hc := hs ["connectors"]
  rw [Option.isNone_iff_eq_none.mp hlacks, show v.at? ["connectors"] = some w from hw] at hc
  cases hc

end Sample

end Pipelines
