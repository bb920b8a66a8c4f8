import OtelFleet.Pipelines.Theorems.Render

-- The order in which pipelines are listed does not show in what is rendered.
namespace Pipelines

open RenderPipeline

variable {ps qs : List RenderPipeline}

theorem le_antisymm_slugs (h : le p q) (h' : le q p) :
    p.customerSlug = q.customerSlug ∧ p.pipelineSlug = q.pipelineSlug := by
  obtain h | ⟨hc, h⟩ := h <;> obtain h' | ⟨hc', h'⟩ := h'
  · exact absurd (h.trans h') (lt_irrefl _)
  · exact absurd (hc' ▸ h) (lt_irrefl _)
  · exact absurd (hc ▸ h') (lt_irrefl _)
  · exact ⟨hc, le_antisymm h h'⟩

theorem map_key_eq_of_sorted (h : ps.Perm qs) (hp : ps.Pairwise le) (hq : qs.Pairwise le) :
    ps.map key = qs.map key := by
  let slugs (p : RenderPipeline) := (p.customerSlug, p.pipelineSlug)
  let slugsLe (a b : String × String) := a.1 < b.1 ∨ a.1 = b.1 ∧ a.2 ≤ b.2
  have hslugs : ps.map slugs = qs.map slugs := by
    have hp' : (ps.map slugs).Pairwise slugsLe := List.pairwise_map.mpr hp
    have hq' : (qs.map slugs).Pairwise slugsLe := List.pairwise_map.mpr hq
    refine (h.map slugs).eq_of_pairwise ?_ hp' hq'
    intro a b ha hb hab hba
    obtain ⟨p, -, rfl⟩ := List.mem_map.mp ha
    obtain ⟨q, -, rfl⟩ := List.mem_map.mp hb
    exact Prod.ext_iff.mpr (le_antisymm_slugs hab hba)
  have hkey : key = (fun s => pipelineKey s.1 s.2) ∘ slugs := rfl
  rw [hkey, ← List.map_map, hslugs, List.map_map]

theorem duplicateKey_congr (h : ps.map key = qs.map key) (seen : List String) :
    duplicateKey seen ps = duplicateKey seen qs := by
  induction ps generalizing qs seen
  case nil => rw [List.map_eq_nil_iff.mp h.symm]
  case cons p ps hi =>
    cases qs
    case nil => cases h
    case cons q qs =>
      obtain ⟨hkey, hrest⟩ := List.cons.inj h
      rw [duplicateKey, duplicateKey, hkey, hi hrest]

theorem sorted_agree (h : ps.Perm qs) (hp : ps.Pairwise le) (hq : qs.Pairwise le) :
    duplicateKey [] ps = duplicateKey [] qs ∧ (duplicateKey [] qs = none → ps = qs) := by
  refine ⟨duplicateKey_congr (map_key_eq_of_sorted h hp hq) [], fun hnone => ?_⟩
  exact eq_of_sorted (duplicateKey_eq_none_iff.mp hnone).left h hp hq

section Sorts

variable [Runtime]

def renderSorted (what : String) (tree : List RenderPipeline → Yaml.Node) (ps : List RenderPipeline) :
    Except String String :=
  match duplicateKey [] ps with
  | some key =>
    .error ("duplicate pipeline key " ++ Strconv.quote Runtime.isPrint key ++ what)
  | none => .ok (Runtime.marshalYAML (tree ps))

def forwardingOf (ps : List RenderPipeline) : Except String String :=
  renderSorted " in rendered config" forwardingTree ps

def edgeOf (ps : List RenderPipeline) : Except String String :=
  renderSorted " in rendered edge config" edgeTree ps

theorem renderSorted_eq (h : ps.Perm qs) (hp : ps.Pairwise le) (hq : qs.Pairwise le) (what : String)
    (tree : List RenderPipeline → Yaml.Node) : renderSorted what tree ps = renderSorted what tree qs := by
  obtain ⟨hkey, heq⟩ := sorted_agree h hp hq
  unfold renderSorted
  rw [hkey]
  cases hd : duplicateKey [] qs
  case none => rw [heq hd]
  case some => rfl

-- Whatever the sort makes of the pipelines, and in whatever order they are given.
theorem render_order (h : ps.Perm qs) :
    renderForwardingConfig ps = renderForwardingConfig qs ∧ renderEdgeConfig ps = renderEdgeConfig qs ∧
    ∀ rs : List RenderPipeline, rs.Perm ps → rs.Pairwise le →
      forwardingOf rs = renderForwardingConfig qs ∧ edgeOf rs = renderEdgeConfig qs := by
  have hall : ∀ rs : List RenderPipeline, rs.Perm ps → rs.Pairwise le →
      forwardingOf rs = renderForwardingConfig qs ∧ edgeOf rs = renderEdgeConfig qs := by
    intro rs hrs hs
    have hperm := hrs.trans (h.trans (sortPipelines_perm qs).symm)
    exact ⟨renderSorted_eq hperm hs (sortPipelines_sorted qs) _ _, renderSorted_eq hperm hs (sortPipelines_sorted qs) _ _⟩
  obtain ⟨hf, he⟩ := hall _ (sortPipelines_perm ps) (sortPipelines_sorted ps)
  exact ⟨hf, he, hall⟩

end Sorts

section Sample

def sampleOf (customerSlug pipelineSlug clientID : String) : RenderPipeline where
  customerSlug := customerSlug
  clientID := clientID
  pipelineSlug := pipelineSlug
  graph := { signals := ["logs"], processors := [], exporters := [] }

theorem duplicates_swapped :
    letI := Runtime.sample
    renderForwardingConfig [sampleOf "b" "x" "c1", sampleOf "b" "x" "c2", sampleOf "a" "x" "c3"] =
      renderForwardingConfig [sampleOf "b" "x" "c2", sampleOf "b" "x" "c1", sampleOf "a" "x" "c3"] :=
  (@render_order _ _ Runtime.sample (.swap _ _ _)).1

end Sample

end Pipelines
