import OtelFleet.Pipelines.Theorems.Shape
import OtelFleet.Pipelines.Theorems.Stored

-- Whether the config that is served is the one that was validated.
namespace Pipelines

open Json (Value Float64)
open Walk.Guide (valueAt)
open Store (UUID TargetClass ActivePipeline NewPipelineVersion)
open RenderPipeline

section Floats

theorem float_not_mem_of_encValue (h : (encValue v).isSome) (x : Float64) : .float x ∉ v.subvalues := by
  unfold encValue at h
  split at h
  case _ => simp [Value.subvalues, Value.subvaluesFields]
  case _ => cases h

theorem float_not_mem_revealed (h : (encValue v).isSome) (x : Float64) : .float x ∉ (revealed c v).subvalues := by
  have ⟨ct, he⟩ := Option.isSome_iff_exists.mp h
  cases hd : Crypto.decrypt c ct
  case ok => simp [revealed, he, hd, Value.subvalues]
  case error =>
    simp only [revealed, he, hd]
    exact float_not_mem_of_encValue h x

theorem float_mem_revealed_iff (h : encryptField c rnd prev path v = .ok (w, [])) (x : Float64) :
    .float x ∈ (revealed c w).subvalues ↔ .float x ∈ v.subvalues := by
  by_cases hv : (encValue v).isSome
  case pos =>
    have hw : v = w := by simpa [encryptField, hv] using h
    rw [← hw]
    exact iff_of_false (float_not_mem_revealed hv x) (float_not_mem_of_encValue hv x)
  case neg =>
    cases v
    case str s =>
      obtain ⟨ct, he, _⟩ := encryptField_str h
      refine iff_of_false (float_not_mem_revealed (by simp [he]) x) ?_
      simp [Value.subvalues]
    all_goals
      have hw : w = _ := (by simpa [encryptField, hv] using h.symm : w = _)
      rw [hw, revealed_of_encValue_eq_none (by simpa using hv)]

theorem float_mem_plain {s : Service} {c : Candidate}
    (henc : encryptGraphSecrets c.graph s.cipher c.rnd c.prev = .ok stored)
    (hdec : decryptGraphSecrets stored s.cipher = .ok plain) (P : Float64 → Prop) :
    (∀ n ∈ plain.processors ++ plain.exporters, ∀ x, .float x ∈ n.value.subvalues → P x) ↔
      ∀ n ∈ c.graph.processors ++ c.graph.exporters, ∀ x, .float x ∈ n.value.subvalues → P x := by
  obtain ⟨hfields, hstored⟩ := encryptGraphSecrets_eq_ok.mp henc
  obtain ⟨_, hplain⟩ := decryptGraphSecrets_eq_ok.mp hdec
  rw [hstored, Graph.mapSecrets_mapSecrets] at hplain
  generalize hf : (fun p x => revealed s.cipher
    (valueAt (encryptField s.cipher c.rnd (secretsOf c.prev).reverse) p x)) = f at hplain
  have hsame : ∀ field kind (nodes : List Node),
      (∀ e ∈ nodeSecrets field kind nodes, e ∈ c.graph.secrets) →
      ((∀ n ∈ mapNodeSecrets f field kind nodes, ∀ x, .float x ∈ n.value.subvalues → P x) ↔
        ∀ n ∈ nodes, ∀ x, .float x ∈ n.value.subvalues → P x) := by
    intro field kind nodes hsub
    have hnode : ∀ e ∈ nodes.zipIdx, ∀ x,
        .float x ∈ (e.1.mapSecrets f kind (configPath field e.2)).value.subvalues ↔
          .float x ∈ e.1.value.subvalues := by
      intro e he x
      have hleaf : Walk.Guide.Leaf (.float x) := trivial
      rw [Node.value_mapSecrets]
      refine Walk.Guide.mem_subvalues_mapMarks hleaf fun m hm => ?_
      obtain ⟨w, hw⟩ := hfields m (hsub m (List.mem_flatMap.mpr ⟨e, he, hm⟩))
      rw [← hf]
      simpa [valueAt, hw] using float_mem_revealed_iff hw x
    constructor
    · intro h n hn x hx
      obtain ⟨i, hi⟩ := List.getElem?_of_mem hn
      have he := List.mk_mem_zipIdx_iff_getElem?.mpr hi
      exact h _ (List.mem_map.mpr ⟨(n, i), he, rfl⟩) x ((hnode _ he x).mpr hx)
    · intro h n' hn' x hx
      obtain ⟨e, he, rfl⟩ := List.mem_map.mp hn'
      exact h e.1 (List.fst_mem_of_mem_zipIdx he) x ((hnode e he x).mp hx)
  rw [hplain]
  simp only [Graph.mapSecrets, List.mem_append, or_imp, forall_and]
  exact and_congr (hsame _ _ _ fun e he => List.mem_append_left _ he)
    (hsame _ _ _ fun e he => List.mem_append_right _ he)

end Floats

section Active

variable {exclude : Option UUID} {aps bps : List ActivePipeline}

def othersOf (exclude : Option UUID) (aps : List ActivePipeline) : List ActivePipeline :=
  aps.filter fun ap => exclude ≠ some ap.pipelineID

theorem activeRenderPipelines_eq_ok :
    activeRenderPipelines s exclude aps = .ok rps ↔
      (othersOf exclude aps).map (toRender s) = rps.map .ok := by
  induction aps generalizing rps
  case nil => cases rps <;> simp [activeRenderPipelines, othersOf]
  case cons ap aps hi =>
    by_cases hx : exclude = some ap.pipelineID
    case pos =>
      have ho : othersOf exclude (ap :: aps) = othersOf exclude aps := by simp [othersOf, hx]
      rw [activeRenderPipelines, if_pos hx, hi, ho]
    case neg =>
      have ho : othersOf exclude (ap :: aps) = ap :: othersOf exclude aps := by simp [othersOf, hx]
      rw [activeRenderPipelines, if_neg hx, ho, List.map_cons]
      cases hr : toRender s ap
      case error e => cases rps <;> simp
      case ok rp =>
        cases rps
        case nil => cases activeRenderPipelines s exclude aps <;> simp
        case cons p ps =>
          rw [List.map_cons, List.cons.injEq, Except.ok.injEq, ← hi]
          cases activeRenderPipelines s exclude aps <;> simp

theorem activeRenderPipelines_perm (h : aps.Perm bps) (hr : activeRenderPipelines s none bps = .ok rps) :
    ∃ rps', activeRenderPipelines s none aps = .ok rps' ∧ rps'.Perm rps := by
  have ho : ∀ l, othersOf none l = l := fun l => List.filter_eq_self.mpr (by simp)
  rw [activeRenderPipelines_eq_ok, ho] at hr
  have hp := h.map (toRender s)
  rw [hr] at hp
  have hcomp := congrFun (congrFun (List.eq_map_comp_perm (Except.ok (ε := String)))
    (aps.map (toRender s))) rps
  have ⟨rps', he, hp'⟩ := hcomp.mpr hp
  exact ⟨rps', by rw [activeRenderPipelines_eq_ok, ho, he], hp'⟩

def activated (c : Candidate) (pipelineID : UUID) (nv : NewPipelineVersion) : ActivePipeline :=
  { pipelineID := pipelineID
    pipelineName := c.name
    customerID := c.cust.id
    customerSlug := c.cust.slug
    clientID := c.cust.clientID
    graph := nv.graph }

theorem activeRenderPipelines_activated (hdec : decryptGraphSecrets stored s.cipher = .ok plain)
    (hothers : activeRenderPipelines s c.exclude active = .ok others) (hexclude : c.exclude = some pipelineID ∨
      c.exclude = none ∧ ∀ ap ∈ active, ap.pipelineID ≠ pipelineID) (hgraph : nv.graph = marshalGraph stored) :
    activeRenderPipelines s none
        (active.filter (·.pipelineID ≠ pipelineID) ++ [activated c pipelineID nv]) =
      .ok (others ++ [c.render plain.stored]) := by
  have hnew : toRender s (activated c pipelineID nv) = .ok (c.render plain.stored) := by
    simp only [toRender, activated, hgraph, marshalGraph, parseGraph, decryptGraphSecrets_stored hdec]
    rfl
  have hold : othersOf c.exclude active = active.filter (·.pipelineID ≠ pipelineID) := by
    refine List.filter_congr fun ap hap => ?_
    obtain he | ⟨he, hne⟩ := hexclude
    · simp [he, eq_comm]
    · simp [he, hne ap hap]
  have hnone : ∀ l, othersOf none l = l := fun l => List.filter_eq_self.mpr (by simp)
  rw [activeRenderPipelines_eq_ok, hold] at hothers
  rw [activeRenderPipelines_eq_ok, hnone, List.map_append, hothers, List.map_append, List.map_singleton,
    hnew, List.map_singleton]

end Active

section Serving

theorem sameShape_stored (c : Candidate) (g : Graph) : SameShape (c.render g) (c.render g.stored) := by
  have hids : ∀ ns : List Node, (c.render g).nodeIDs ns =
      (c.render g.stored).nodeIDs (ns.map Node.stored) := by
    intro ns
    simp only [nodeIDs, List.zipIdx_map, List.map_map]
    rfl
  exact ⟨rfl, rfl, rfl, rfl, hids _, hids _⟩

def Replaced (p q : RenderPipeline) (r r' : RenderPipeline) : Prop :=
  r = r' ∧ r ≠ p ∨ r = p ∧ r' = q

theorem Replaced.sameShape (hr : Replaced p q r r') (h : SameShape p q) : SameShape r r' := by
  obtain ⟨rfl, _⟩ | ⟨rfl, rfl⟩ := hr
  exacts [.refl r, h]

theorem forall₂_replace (h : SameShape p q) (hn : p ∉ others) :
    List.Forall₂ (Replaced p q) (sortPipelines (others ++ [p])) (sortPipelines (others ++ [q])) := by
  refine forall₂_sortPipelines (fun _ _ hr => hr.sameShape h) ?_
  have hothers : List.Forall₂ (Replaced p q) others others :=
    List.forall₂_same.mpr fun r hr => .inl ⟨rfl, fun he => hn (he ▸ hr)⟩
  exact List.rel_append hothers (.cons (.inr ⟨rfl, rfl⟩) .nil)

variable [Runtime]

def renderServed (s : Service) (db : Store.DB) (targetClass : TargetClass) (customerID : UUID) : Except String String :=
  match targetClass with
  | .forwarding => renderCurrent s db
  | .edge => renderEdgeCurrent s db customerID

theorem renderServed_eq (h : activeRenderPipelines s none (db.listActivePipelines targetClass
      (customerScope cust targetClass)) = .ok rps) :
    renderServed s db targetClass cust.id = renderFull targetClass rps := by
  cases targetClass <;>
    simp only [customerScope] at h <;>
    simp only [renderServed, renderCurrent, renderEdgeCurrent, h, renderFull]

theorem sameConfigs_stored_iff (c : Candidate) (g : Graph) :
    SameConfigs (c.render g) (c.render g.stored) ↔
      ∀ n ∈ g.processors ++ g.exporters, toNode n.value.stored = toNode n.value := by
  have hentries : ∀ ns : List Node, (c.render g).nodeEntries ns =
      (c.render g.stored).nodeEntries (ns.map Node.stored) ↔
      ∀ n ∈ ns, toNode n.value.stored = toNode n.value := by
    intro ns
    simp only [nodeEntries, List.zipIdx_map, List.map_map, List.map_inj_left, Function.comp_apply,
      Prod.map, id_eq, Node.stored_value, Prod.mk.injEq]
    constructor
    · intro h n hn
      obtain ⟨i, hi⟩ := List.getElem?_of_mem hn
      exact (h (n, i) (List.mk_mem_zipIdx_iff_getElem?.mpr hi)).right.symm
    · exact fun h e he => ⟨rfl, (h e.1 (List.fst_mem_of_mem_zipIdx he)).symm⟩
  simp only [SameConfigs, List.mem_append, or_imp, forall_and]
  exact and_congr (hentries g.processors) (hentries g.exporters)

theorem renderFull_of_valid (h : (validate binPath targetClass p others).valid) :
    ∃ full, renderFull targetClass (others ++ [p]) = .ok full := by
  cases hf : renderFull targetClass (others ++ [p])
  case ok full => exact ⟨full, rfl⟩
  case error e =>
    by_cases hi : validateStructural p.graph = [] <;> simp [validate, hf, hi] at h

theorem fullTree_replace_iff (h : SameShape p q) (hn : p ∉ others) (targetClass : TargetClass) :
    fullTree targetClass (sortPipelines (others ++ [p])) =
      fullTree targetClass (sortPipelines (others ++ [q])) ↔ SameConfigs p q := by
  have hsorted := forall₂_replace h hn
  rw [fullTree_eq_iff (hsorted.imp fun _ _ hr => hr.sameShape h)]
  constructor
  · intro hc
    have hm : p ∈ sortPipelines (others ++ [p]) := (sortPipelines_perm _).mem_iff.mpr (by simp)
    have ⟨i, hi, he⟩ := List.mem_iff_getElem.mp hm
    have hi' := hsorted.length_eq ▸ hi
    have hci := hc.get hi hi'
    obtain ⟨_, hne⟩ | ⟨_, hq⟩ := hsorted.get hi hi'
    · exact absurd he hne
    · rwa [hq, List.get_eq_getElem, he] at hci
  · intro hc
    refine hsorted.imp ?_
    rintro r r' (⟨rfl, _⟩ | ⟨rfl, rfl⟩)
    exacts [⟨rfl, rfl⟩, hc]

-- The validated text and the served text agree exactly on graphs without a number that is printed
-- differently once it went through the database.
theorem served_eq_validated_iff (s : Service) (c : Candidate) (active : List ActivePipeline)
    (pipelineID : UUID) (db' : Store.DB) (nv : NewPipelineVersion) (res : Result)
    (stored plain : Graph) (others : List RenderPipeline) (h : prepare s c active = .ok (.version nv res))
    (henc : encryptGraphSecrets c.graph s.cipher c.rnd c.prev = .ok stored)
    (hdec : decryptGraphSecrets stored s.cipher = .ok plain)
    (hothers : activeRenderPipelines s c.exclude active = .ok others) (hexclude : c.exclude = some pipelineID ∨
      c.exclude = none ∧ ∀ ap ∈ active, ap.pipelineID ≠ pipelineID)
    (hserved : (db'.listActivePipelines c.targetClass (customerScope c.cust c.targetClass)).Perm
      (active.filter (·.pipelineID ≠ pipelineID) ++ [activated c pipelineID nv]))
    (hparse : ∀ n ∈ c.graph.processors ++ c.graph.exporters, ∀ x, .float x ∈ n.value.subvalues → ParsesBack x)
    (hyaml : Set.InjOn Runtime.marshalYAML
      {fullTree c.targetClass (sortPipelines (others ++ [c.render plain])),
        fullTree c.targetClass (sortPipelines (others ++ [c.render plain.stored]))}) :
    renderServed s db' c.targetClass c.cust.id =
        renderFull c.targetClass (others ++ [c.render plain]) ↔
      ∀ n ∈ c.graph.processors ++ c.graph.exporters, ∀ x, .float x ∈ n.value.subvalues →
        ¬Rewritten x := by
  have ⟨_, _, _, henc', hdec', hothers', hvalid, hgraph, _⟩ := prepare_eq_version h
  obtain rfl := Except.ok.inj (henc.symm.trans henc')
  obtain rfl := Except.ok.inj (hdec.symm.trans hdec')
  obtain rfl := Except.ok.inj (hothers.symm.trans hothers')
  have ⟨full, hfull⟩ := renderFull_of_valid hvalid
  have ⟨hkeys, htext⟩ := renderFull_eq_ok.mp hfull
  have ⟨rps, hrps, hperm⟩ := activeRenderPipelines_perm hserved
    (activeRenderPipelines_activated hdec hothers hexclude hgraph)
  have hshape := sameShape_stored c plain
  have hnodup : ((others ++ [c.render plain]).map key).Nodup :=
    ((sortPipelines_perm _).map key).nodup_iff.mp (duplicateKey_eq_none_iff.mp hkeys).left
  have hnew : c.render plain ∉ others := by
    intro hm
    rw [List.map_append, List.nodup_append] at hnodup
    exact hnodup.right.right _ (List.mem_map_of_mem hm) _ (by simp) rfl
  have hkeys' : duplicateKey [] (sortPipelines (others ++ [c.render plain.stored])) = none := by
    have hr := (forall₂_replace hshape hnew).imp fun _ _ hr => hr.sameShape hshape
    rw [← forall₂_duplicateKey hr, hkeys]
  have hsame : sortPipelines rps = sortPipelines (others ++ [c.render plain.stored]) := by
    refine sortPipelines_eq_of_perm ?_ hperm
    have hn := (duplicateKey_eq_none_iff.mp hkeys').left
    exact ((sortPipelines_perm _).map key).nodup_iff.mp hn
  calc renderServed s db' c.targetClass c.cust.id = renderFull c.targetClass (others ++ [c.render plain])
    _ ↔ Runtime.marshalYAML (fullTree c.targetClass (sortPipelines (others ++ [c.render plain.stored]))) =
          Runtime.marshalYAML (fullTree c.targetClass (sortPipelines (others ++ [c.render plain]))) := by
      rw [renderServed_eq hrps, hfull, renderFull_eq_ok, hsame, htext]
      exact and_iff_right hkeys'
    _ ↔ fullTree c.targetClass (sortPipelines (others ++ [c.render plain])) =
          fullTree c.targetClass (sortPipelines (others ++ [c.render plain.stored])) := by
      rw [eq_comm]
      exact hyaml.eq_iff (by simp) (by simp)
    _ ↔ SameConfigs (c.render plain) (c.render plain.stored) :=
      fullTree_replace_iff hshape hnew _
    _ ↔ _ := by
      rw [← float_mem_plain henc hdec] at hparse
      rw [sameConfigs_stored_iff, ← float_mem_plain henc hdec]
      exact forall₂_congr fun n hn => toNode_stored_iff n.value (hparse n hn)

end Serving

section Sample

def batchCandidate (size : Float64) : Candidate :=
  { sampleCandidate with
    prev := none
    graph := {
      signals := ["logs"]
      processors := [{ type := "batch", config := some [("send_batch_size", .float size)] }]
      exporters := [clickhouse (.str "hunter2")] } }

def sampleDB : Store.DB where
  users := []
  customers := [{
    id := 1, name := "Acme Corp", slug := "acme-corp", clientID := "cust_aaaa1111", status := .active }]
  pipelines := []
  versions := []

def samplePipeline : Store.NewPipeline :=
  { id := 10, customerID := 1, name := "Backup", targetClass := .forwarding }

theorem served_as_validated_8192 :
    letI := Runtime.sample
    let c := batchCandidate ⟨false, 8192, 0, by decide⟩
    ∃ nv res stored plain db₁ db₂,
      prepare sampleService c (sampleDB.listActivePipelines .forwarding none) = .ok (.version nv res) ∧
      encryptGraphSecrets c.graph sampleService.cipher c.rnd c.prev = .ok stored ∧
      decryptGraphSecrets stored sampleService.cipher = .ok plain ∧
      sampleDB.createPipeline samplePipeline { nv with pipelineID := 10 } = .ok db₁ ∧
      db₁.activatePipelineVersion 10 1 = .ok db₂ ∧
      renderServed sampleService db₂ .forwarding 1 = renderFull .forwarding [c.render plain] := by
  let _ := Runtime.sample
  let c := batchCandidate ⟨false, 8192, 0, by decide⟩
  obtain ⟨nv, res, stored, db₁, db₂, h, henc, hdec, h₁, h₂, hl⟩ : ∃ nv res stored db₁ db₂,
      prepare sampleService c [] = .ok (.version nv res) ∧
      encryptGraphSecrets c.graph sampleService.cipher c.rnd c.prev = .ok stored ∧
      decryptGraphSecrets stored sampleService.cipher = .ok c.graph ∧
      sampleDB.createPipeline samplePipeline { nv with pipelineID := 10 } = .ok db₁ ∧
      db₁.activatePipelineVersion 10 1 = .ok db₂ ∧
      db₂.listActivePipelines .forwarding none = [activated c 10 nv] :=
    ⟨_, _, _, _, _, rfl, rfl, rfl, rfl, rfl, rfl⟩
  have htree : fullTree c.targetClass (sortPipelines ([] ++ [c.render c.graph])) =
      fullTree c.targetClass (sortPipelines ([] ++ [c.render c.graph.stored])) := rfl
  refine ⟨nv, res, stored, c.graph, db₁, db₂, h, henc, hdec, h₁, h₂, ?_⟩
  refine (served_eq_validated_iff sampleService c [] 10 db₂ nv res stored c.graph [] h henc hdec rfl
    (.inr ⟨rfl, by simp⟩) (by rw [← hl]; rfl) ?_ ?_).mpr ?_
  · exact fun _ _ x _ hx => congrArg some (Float64.ofNumber_ofFloat hx)
  · rw [htree]
    simp
  · intro n hn x hx
    obtain rfl | rfl : n = _ ∨ n = _ := by simpa [c, batchCandidate] using hn
    · obtain rfl : x = _ := by simpa [Node.value, Value.subvalues, Value.subvaluesFields] using hx
      simp [Rewritten, Float64.IsNegZero]
    · simp [Node.value, clickhouse, Value.subvalues, Value.subvaluesFields] at hx

-- A batch size of a million is validated as `1e+06` and served as `1000000`.
theorem million_served_as_integer :
    letI := Runtime.sample
    let c := batchCandidate ⟨false, 1, 6, by decide⟩
    ∃ nv res stored plain db₁ db₂ validated served,
      prepare sampleService c (sampleDB.listActivePipelines .forwarding none) = .ok (.version nv res) ∧
      encryptGraphSecrets c.graph sampleService.cipher c.rnd c.prev = .ok stored ∧
      decryptGraphSecrets stored sampleService.cipher = .ok plain ∧
      renderFull .forwarding [c.render plain] = .ok validated ∧
      sampleDB.createPipeline samplePipeline { nv with pipelineID := 10 } = .ok db₁ ∧
      db₁.activatePipelineVersion 10 1 = .ok db₂ ∧
      renderServed sampleService db₂ .forwarding 1 = .ok served ∧ served ≠ validated := by
  let _ := Runtime.sample
  let c := batchCandidate ⟨false, 1, 6, by decide⟩
  have hne : Runtime.marshalYAML (fullTree .forwarding [c.render c.graph.stored]) ≠
      Runtime.marshalYAML (fullTree .forwarding [c.render c.graph]) :=
    Runtime.sample_marshalYAML_ne 16 rfl rfl rfl rfl (by decide)
  exact ⟨_, _, _, _, _, _, _, _, rfl, rfl, rfl, rfl, rfl, rfl, rfl, hne⟩

end Sample

end Pipelines
