import OtelFleet.Lib.Assoc
import OtelFleet.Web.Waterfall

-- Which spans the trace view shows.
namespace Web.Waterfall

open DepthFirst (State Grows)

variable {spans l : List Span} {st : State Span String}

section Group

theorem foldl_insert (g : Groups) (l : List Span) (id : String) :
    (l.foldl (Groups.insert spans) g).roots = g.roots ++ l.filter (shownUnder spans · = none) ∧
      ((l.foldl (Groups.insert spans) g).childrenOf.lookup id).getD [] =
        (g.childrenOf.lookup id).getD [] ++ l.filter (shownUnder spans · = some id) := by
  induction l generalizing g
  case nil => simp
  case cons span l hi =>
    rw [List.foldl_cons]
    obtain ⟨hroots, hchildren⟩ := hi (g.insert spans span)
    rw [hroots, hchildren, List.filter_cons, List.filter_cons]
    unfold Groups.insert
    cases hunder : shownUnder spans span
    case none => simp
    case some parentId =>
      dsimp only
      rw [Grouping.lookup_push]
      by_cases hid : id = parentId
      · simp [hid]
      · simp [hid, Ne.symm hid]

theorem roots_group (spans : List Span) : (group spans).roots = spans.filter (shownUnder spans · = none) :=
  (foldl_insert { childrenOf := [], roots := [] } spans "").left

theorem lookup_group (spans : List Span) (id : String) :
    ((group spans).childrenOf.lookup id).getD [] = spans.filter (shownUnder spans · = some id) :=
  (foldl_insert { childrenOf := [], roots := [] } spans id).right

variable [ArraySort]

theorem sort_nil (compare : Span → Span → Option Int) : ArraySort.sort compare ([] : List Span) = [] :=
  (ArraySort.sort_perm compare []).eq_nil

theorem children_group (spans : List Span) (span : Span) :
    (group spans).children span = ArraySort.sort byStart (spans.filter (shownUnder spans · = some span.spanId)) := by
  rw [← lookup_group]
  unfold Groups.children
  rw [Assoc.lookup_map]
  cases (group spans).childrenOf.lookup span.spanId
  case none => exact (sort_nil byStart).symm
  case some siblings => rfl

theorem mem_children : c ∈ (group spans).children span ↔ c ∈ spans ∧ shownUnder spans c = some span.spanId := by
  rw [children_group, (ArraySort.sort_perm _ _).mem_iff, List.mem_filter, decide_eq_true_eq]

theorem mem_roots : c ∈ ArraySort.sort byStart (group spans).roots ↔ c ∈ spans ∧ shownUnder spans c = none := by
  rw [(ArraySort.sort_perm _ _).mem_iff, roots_group, List.mem_filter, decide_eq_true_eq]

end Group

section Shown

theorem foldl_surface_grows (hl : l ⊆ spans) :
    Grows (·.spanId) spans st (l.foldl surface st) ∧ ∀ span ∈ l, span.spanId ∈ (l.foldl surface st).visited := by
  induction l generalizing st
  case nil => exact ⟨.refl, by simp⟩
  case cons span l hi =>
    obtain ⟨hspan, hl⟩ := List.cons_subset.mp hl
    have hstep : Grows (·.spanId) spans st (surface st span) ∧ span.spanId ∈ (surface st span).visited := by
      unfold surface
      split_ifs with hmem
      · exact ⟨.refl, hmem⟩
      · exact ⟨.visit hspan hmem 0, by simp [State.visit]⟩
    obtain ⟨hgrows, hmet⟩ := @hi (surface st span) hl
    refine ⟨hstep.left.trans hgrows, fun c hc => ?_⟩
    obtain rfl | hc := List.mem_cons.mp hc
    · exact hgrows.subset hstep.right
    · exact hmet c hc

theorem perm_iff_of_grows (hgrows : Grows (·.spanId) spans .empty st) (hmet : ∀ span ∈ spans, span.spanId ∈ st.visited) :
    (st.ordered.map (·.1)).Perm spans ↔ (spans.map (·.spanId)).Nodup := by
  obtain ⟨new, hordered, hvisited, hmem⟩ := hgrows.ordered
  have hnodup : ((new.map (·.1)).map (·.spanId)).Nodup := by
    have hvisited' := hgrows.nodup List.nodup_nil
    rw [hvisited] at hvisited'
    rwa [List.map_map]
  rw [hordered]
  constructor
  case mp => exact fun hperm => (hperm.map _).nodup hnodup
  case mpr =>
    intro hids
    refine (List.perm_ext_iff_of_nodup hnodup.of_map hids.of_map).mpr fun span => ?_
    constructor
    · intro h
      obtain ⟨n, hn, rfl⟩ := List.mem_map.mp h
      exact hmem n hn
    · intro h
      have hvisit := hmet span h
      rw [hvisited] at hvisit
      obtain ⟨n, hn, hid⟩ := List.mem_map.mp hvisit
      exact List.mem_map.mpr ⟨n, hn, List.inj_on_of_nodup_map hids (hmem n hn) h hid⟩

variable [ArraySort]

theorem buildSpanTree_grows (spans : List Span) :
    ∃ st, Grows (·.spanId) spans .empty st ∧ (∀ span ∈ spans, span.spanId ∈ st.visited) ∧
      ∀ fuel, spans.length < fuel →
        buildSpanTree fuel spans = some (st.ordered.map fun n => { span := n.1, depth := n.2 }) := by
  have hchildren (span : Span) (_ : span ∈ spans) : (group spans).children span ⊆ spans :=
    fun c hc => (mem_children.mp hc).left
  have hroots : ArraySort.sort byStart (group spans).roots ⊆ spans := fun c hc => (mem_roots.mp hc).left
  have hleft (st : State Span String) : DepthFirst.unvisited (·.spanId) spans st < spans.length + 1 :=
    Nat.lt_succ_of_le List.countP_le_length
  obtain ⟨st, hst, hgrows, -⟩ := DepthFirst.foldlM_grows
    (fun st hst span hspan => @DepthFirst.walk_grows _ _ (·.spanId) _ _ st span _ 0 _ hchildren hspan hst) hroots
    (hleft .empty)
  obtain ⟨hgrows', hmet⟩ := foldl_surface_grows (List.Subset.refl spans)
  refine ⟨spans.foldl surface st, hgrows.trans hgrows', hmet, fun fuel hfuel => ?_⟩
  have hst : (ArraySort.sort byStart (group spans).roots).foldlM (walk (group spans) fuel 0) .empty = some st :=
    DepthFirst.foldlM_of_le (fun _ _ _ h => DepthFirst.walk_of_le hfuel h) _ hst
  unfold buildSpanTree
  dsimp only
  rw [hst]
  rfl

omit [ArraySort] in
theorem map_span (l : List (Span × Nat)) : (l.map fun n => SpanNode.mk n.1 n.2).map (·.span) = l.map (·.1) := by
  rw [List.map_map]
  rfl

-- Every span is shown once exactly if no two have the same ID.
theorem buildSpanTree_perm_iff (spans : List Span) :
    ∃ nodes, (∀ fuel, spans.length < fuel → buildSpanTree fuel spans = some nodes) ∧
      ((nodes.map (·.span)).Perm spans ↔ (spans.map (·.spanId)).Nodup) := by
  obtain ⟨st, hgrows, hmet, hbuild⟩ := buildSpanTree_grows spans
  refine ⟨_, hbuild, ?_⟩
  rw [map_span]
  exact perm_iff_of_grows hgrows hmet

end Shown

section Sample

def repeatedSpans : List Span :=
  [⟨"a", none, some 1⟩, ⟨"a", none, some 2⟩]

-- The second one is not shown.
theorem repeatedSpans_dropped :
    letI := ArraySort.stable
    (∀ fuel, repeatedSpans.length < fuel → buildSpanTree fuel repeatedSpans = some [⟨⟨"a", none, some 1⟩, 0⟩]) ∧
      ¬([(⟨⟨"a", none, some 1⟩, 0⟩ : SpanNode)].map (·.span)).Perm repeatedSpans := by
  refine ⟨fun fuel hfuel => ?_, by decide⟩
  obtain ⟨st, -, -, hbuild⟩ := @buildSpanTree_grows .stable repeatedSpans
  rw [hbuild fuel hfuel, ← hbuild 3 (by decide)]
  decide

end Sample
end Web.Waterfall
