import OtelFleet.Lib.Forest
import OtelFleet.Web.Theorems.Waterfall
import Mathlib.Data.Set.Card

-- The order in which the trace view shows the spans, if they form a forest.
namespace Web.Waterfall

open DepthFirst (State)
open Relation (TransGen ReflTransGen)

structure IsParent (spans : List Span) (p span : Span) : Prop where
  parent : p ∈ spans
  child : span ∈ spans
  names : span.parentSpanId = some p.spanId

def Ancestor (spans : List Span) : Span → Span → Prop :=
  TransGen (IsParent spans)

def Earlier (spans : List Span) (a b : Span) : Prop :=
  ∃ start ∈ a.startTime, ∃ other ∈ b.startTime, start < other ∨ start = other ∧ [a, b].Sublist spans

-- Every span comes before its descendants, which follow it without gaps. The depth is the number of the ancestors.
-- Spans with the same parent, or without one, are shown from the earliest to the latest.
structure DepthFirstOrder (spans : List Span) (nodes : List SpanNode) : Prop where
  perm : (nodes.map (·.span)).Perm spans
  depth : ∀ n ∈ nodes, n.depth = {p | Ancestor spans p n.span}.ncard
  subtree : ∀ n ∈ nodes, ∃ pre below post, nodes = pre ++ n :: below ++ post ∧
    ∀ span, span ∈ below.map (·.span) ↔ Ancestor spans n.span span
  siblings : ∀ a b, [a, b].Sublist (nodes.map (·.span)) → (∀ p, IsParent spans p a ↔ IsParent spans p b) →
    Earlier spans a b

-- The spans can be told apart and are no ancestors of themselves.
structure Acyclic (spans : List Span) : Prop where
  ids : (spans.map (·.spanId)).Nodup
  acyclic : ∀ span, ¬Ancestor spans span span

variable {spans : List Span} {a p span : Span}

section Parent

theorem Acyclic.nodup (h : Acyclic spans) : spans.Nodup :=
  h.ids.of_map

theorem Acyclic.isParent_iff (h : Acyclic spans) (hp : p ∈ spans) (hspan : span ∈ spans) :
    IsParent spans p span ↔ shownUnder spans span = some p.spanId := by
  constructor
  · intro hparent
    have hne : p.spanId ≠ span.spanId := by
      intro heq
      obtain rfl : p = span := List.inj_on_of_nodup_map h.ids hp hspan heq
      exact h.acyclic p (.single hparent)
    have hany : spans.any (·.spanId = p.spanId) := by
      rw [List.any_eq_true]
      exact ⟨p, hp, by simp⟩
    unfold shownUnder
    rw [hparent.names]
    exact if_pos ⟨hne, hany⟩
  · intro hunder
    refine ⟨hp, hspan, ?_⟩
    unfold shownUnder at hunder
    split at hunder
    case h_1 parentId hparent =>
      split_ifs at hunder
      rw [hparent, hunder]
    case h_2 => cases hunder

theorem exists_of_shownUnder {id : String} (h : shownUnder spans span = some id) : ∃ p ∈ spans, p.spanId = id := by
  unfold shownUnder at h
  split at h
  case h_1 parentId hparent =>
    split_ifs at h with hany
    cases h
    simpa using hany.right
  case h_2 => cases h

def parent? (spans : List Span) (span : Span) : Option Span :=
  if span ∈ spans then spans.find? (shownUnder spans span = some ·.spanId) else none

theorem Acyclic.parent?_eq_some (h : Acyclic spans) : parent? spans span = some p ↔ IsParent spans p span := by
  unfold parent?
  constructor
  · intro hp
    split_ifs at hp with hspan
    have hmem := List.mem_of_find?_eq_some hp
    exact (h.isParent_iff hmem hspan).mpr (by simpa using List.find?_some hp)
  · intro hparent
    rw [if_pos hparent.child]
    have hunder := (h.isParent_iff hparent.parent hparent.child).mp hparent
    refine Assoc.find?_unique (fun q hq hq' => ?_) hparent.parent (by simpa using hunder)
    rw [hunder] at hq'
    exact List.inj_on_of_nodup_map h.ids hq hparent.parent (by simpa using Eq.symm (by simpa using hq'))

theorem parent?_eq_none (hspan : span ∈ spans) : parent? spans span = none ↔ shownUnder spans span = none := by
  unfold parent?
  rw [if_pos hspan, List.find?_eq_none]
  constructor
  · intro hnone
    rw [Option.eq_none_iff_forall_ne_some]
    intro id hid
    obtain ⟨p, hp, rfl⟩ := exists_of_shownUnder hid
    exact hnone p hp (by simpa using hid)
  · intro hnone p _
    simp [hnone]

end Parent

section Level

theorem Ancestor.mem (h : Ancestor spans p span) : p ∈ spans := by
  obtain ⟨c, hc, -⟩ := TransGen.head'_iff.mp h
  exact hc.parent

theorem ancestors_subset (spans : List Span) (span : Span) : {p | Ancestor spans p span} ⊆ {p | p ∈ spans} :=
  fun _ h => Ancestor.mem h

theorem finite_ancestors (spans : List Span) (span : Span) : {p | Ancestor spans p span}.Finite :=
  spans.finite_toSet.subset (ancestors_subset spans span)

theorem ncard_ancestors_le (spans : List Span) (span : Span) : {p | Ancestor spans p span}.ncard ≤ spans.length := by
  have hle := Set.ncard_le_ncard (ancestors_subset spans span) spans.finite_toSet
  have hcard : {p | p ∈ spans}.ncard = spans.toFinset.card := by
    rw [← Set.ncard_coe_finset, List.coe_toFinset]
  rw [hcard] at hle
  exact hle.trans spans.toFinset_card_le

theorem Acyclic.ancestors_eq (h : Acyclic spans) (hp : IsParent spans p span) :
    {q | Ancestor spans q span} = insert p {q | Ancestor spans q p} := by
  ext q
  rw [Set.mem_insert_iff]
  constructor
  · intro hq
    obtain ⟨p', hq, hp'⟩ := TransGen.tail'_iff.mp hq
    obtain rfl : p' = p := List.inj_on_of_nodup_map h.ids hp'.parent hp.parent
      (Option.some.inj (hp'.names.symm.trans hp.names))
    exact (Relation.reflTransGen_iff_eq_or_transGen.mp hq).imp_left Eq.symm
  · rintro (rfl | hq)
    · exact .single hp
    · exact .tail hq hp

end Level

section Forest

variable [ArraySort]

noncomputable def forest (h : Acyclic spans) : Forest Span where
  children a := if a ∈ spans then (group spans).children a else []
  parent := parent? spans
  level a := {p | Ancestor spans p a}.ncard
  height := spans.length
  mem_children {a c} := by
    rw [h.parent?_eq_some]
    split_ifs with ha
    · rw [mem_children]
      constructor
      · exact fun hc => (h.isParent_iff ha hc.left).mpr hc.right
      · exact fun hc => ⟨hc.child, (h.isParent_iff ha hc.child).mp hc⟩
    · exact iff_of_false List.not_mem_nil fun hc => ha hc.parent
  nodup_children a := by
    split_ifs
    · rw [children_group, (ArraySort.sort_perm _ _).nodup_iff]
      exact h.nodup.filter _
    · exact List.nodup_nil
  level_of_none {a} ha := by
    rw [Set.ncard_eq_zero (finite_ancestors spans a), Set.eq_empty_iff_forall_notMem]
    intro p hp
    obtain ⟨q, -, hq⟩ := TransGen.tail'_iff.mp hp
    rw [h.parent?_eq_some.mpr hq] at ha
    cases ha
  level_of_some {a c} hc := by
    have hparent := h.parent?_eq_some.mp hc
    have hnot : a ∉ {q | Ancestor spans q a} := h.acyclic a
    rw [h.ancestors_eq hparent, Set.ncard_insert_of_notMem hnot (finite_ancestors spans a)]
  level_le a := ncard_ancestors_le spans a

variable (h : Acyclic spans)

theorem forest_isParent : (forest h).IsParent = IsParent spans := by
  funext p span
  exact propext h.parent?_eq_some

def roots (spans : List Span) : List Span :=
  ArraySort.sort byStart (group spans).roots

include h in
theorem nodup_roots : (roots spans).Nodup := by
  unfold roots
  rw [(ArraySort.sort_perm _ _).nodup_iff, roots_group]
  exact h.nodup.filter _

theorem mem_roots_iff : span ∈ roots spans ↔ span ∈ spans ∧ (forest h).parent span = none := by
  unfold roots
  rw [mem_roots]
  exact and_congr_right fun hspan => (parent?_eq_none hspan).symm

theorem children_subset (a : Span) (_ : a ∈ spans) : (forest h).children a ⊆ spans := by
  intro c hc
  have hparent := h.parent?_eq_some.mp ((forest h).mem_children.mp hc)
  exact hparent.child

theorem exists_root (hspan : span ∈ spans) : ∃ r ∈ roots spans, (forest h).Below r span := by
  generalize hn : (forest h).level span = n
  induction n generalizing span
  all_goals
    cases hp : (forest h).parent span
    case none => exact ⟨span, (mem_roots_iff h).mpr ⟨hspan, hp⟩, .refl⟩
  case zero.some p =>
    rw [(forest h).level_of_some hp] at hn
    cases hn
  case succ.some n hi p =>
    rw [(forest h).level_of_some hp] at hn
    obtain ⟨r, hr, hbelow⟩ := hi (h.parent?_eq_some.mp hp).parent (Nat.succ.inj hn)
    exact ⟨r, hr, hbelow.tail hp⟩

end Forest

section Order

theorem foldl_surface_of_mem {l : List Span} (hl : ∀ span ∈ l, span.spanId ∈ st.visited) : l.foldl surface st = st := by
  induction l
  case nil => rfl
  case cons span l hi =>
    rw [List.foldl_cons, surface, if_pos (hl span List.mem_cons_self)]
    exact hi fun c hc => hl c (List.mem_cons_of_mem _ hc)

variable [ArraySort] (h : Acyclic spans)

noncomputable def rows : List (Span × Nat) :=
  (roots spans).flatMap ((forest h).preorder · 0)

theorem walk_root (hr : r ∈ roots spans) (hfresh : (forest h).Fresh (·.spanId) st [r]) (hfuel : spans.length < fuel) :
    walk (group spans) fuel 0 st r = some (Forest.add (·.spanId) st ((forest h).preorder r 0)) := by
  have hmem : r ∈ spans := ((mem_roots_iff h).mp hr).left
  have hchildren (a : Span) (ha : a ∈ spans) : (forest h).children a = (group spans).children a := if_pos ha
  unfold walk
  rw [← DepthFirst.walk_congr (children_subset h) hchildren hmem]
  refine Forest.walk_eq_preorder (children_subset h) ?_ hmem hfresh (Nat.lt_of_le_of_lt (Nat.sub_le _ _) hfuel)
  exact fun x hx y hy => List.inj_on_of_nodup_map h.ids hx hy

theorem foldlM_roots (hfuel : spans.length < fuel) :
    (roots spans).foldlM (walk (group spans) fuel 0) .empty = some (Forest.add (·.spanId) .empty (rows h)) := by
  refine Forest.foldlM_preorder (fun r hr st hfresh => walk_root h hr hfresh hfuel) ?_ ?_
  · refine (nodup_roots h).imp_of_mem ?_
    intro r r' hr hr' hne x hx y hy heq
    obtain ⟨hmem, hparent⟩ := (mem_roots_iff h).mp hr
    obtain ⟨hmem', hparent'⟩ := (mem_roots_iff h).mp hr'
    have hxy : x = y :=
      List.inj_on_of_nodup_map h.ids (hx.mem (children_subset h) hmem) (hy.mem (children_subset h) hmem') heq
    subst hxy
    exact hne (Forest.eq_of_below_of_parent_eq (hparent.trans hparent'.symm) hx hy)
  · exact fun _ _ _ _ hmem => List.not_mem_nil hmem

theorem mem_rows : span ∈ (rows h).map (·.1) ↔ span ∈ spans := by
  unfold rows
  simp only [List.map_flatMap, List.mem_flatMap, Forest.mem_preorder]
  constructor
  · rintro ⟨r, hr, hbelow⟩
    exact hbelow.mem (children_subset h) ((mem_roots_iff h).mp hr).left
  · exact exists_root h

theorem buildSpanTree_eq {fuel : Nat} (hfuel : spans.length < fuel) :
    buildSpanTree fuel spans = some ((rows h).map fun n => { span := n.1, depth := n.2 }) := by
  have hroots := foldlM_roots h hfuel
  have hsurface : spans.foldl surface (Forest.add (·.spanId) .empty (rows h)) = Forest.add (·.spanId) .empty (rows h) := by
    refine foldl_surface_of_mem fun span hspan => ?_
    obtain ⟨n, hn, rfl⟩ := List.mem_map.mp ((mem_rows h).mpr hspan)
    exact List.mem_append_right _ (List.mem_map.mpr ⟨n, hn, rfl⟩)
  unfold buildSpanTree
  unfold roots at hroots
  dsimp only
  rw [hroots]
  simp only [Option.bind_eq_bind, Option.bind_some]
  rw [hsurface]
  rfl

theorem perm_rows : ((rows h).map (·.1)).Perm spans := by
  obtain ⟨st, hgrows, hmet, hbuild⟩ := buildSpanTree_grows spans
  have hnodes := (hbuild _ (Nat.lt_succ_self _)).symm.trans (buildSpanTree_eq h (Nat.lt_succ_self _))
  have hspans := congrArg (List.map (·.span)) (Option.some.inj hnodes)
  rw [map_span, map_span] at hspans
  rw [← hspans]
  exact (perm_iff_of_grows hgrows hmet).mpr h.ids

theorem depth_of_mem_rows (hmem : (span, k) ∈ rows h) : k = {p | Ancestor spans p span}.ncard := by
  obtain ⟨r, hr, hmem⟩ := List.mem_flatMap.mp hmem
  have hlevel := Forest.level_of_mem_preorder hmem
  rw [(forest h).level_of_none ((mem_roots_iff h).mp hr).right, Nat.zero_add] at hlevel
  exact hlevel

theorem exists_subtree (hmem : (span, k) ∈ rows h) :
    ∃ pre below post, rows h = pre ++ (span, k) :: below ++ post ∧
      ∀ c, c ∈ below.map (·.1) ↔ Ancestor spans span c := by
  obtain ⟨r, hr, hmem'⟩ := List.mem_flatMap.mp hmem
  obtain ⟨l₁, l₂, hl⟩ := List.append_of_mem hr
  obtain ⟨pre, post, k', hsplit⟩ := @Forest.exists_split _ (forest h) _ _ 0
    (Forest.mem_preorder.mp (List.mem_map_of_mem hmem'))
  have hrows : rows h = l₁.flatMap ((forest h).preorder · 0) ++ pre ++ (forest h).preorder span k' ++
      (post ++ l₂.flatMap ((forest h).preorder · 0)) := by
    unfold rows
    rw [hl, List.flatMap_append, List.flatMap_cons, hsplit]
    simp
  have hk : k' = k := by
    have hmem'' : (span, k') ∈ rows h := by
      rw [hrows, Forest.preorder_eq]
      simp
    rw [depth_of_mem_rows h hmem, depth_of_mem_rows h hmem'']
  rw [hk, Forest.preorder_eq] at hrows
  refine ⟨_, _, _, hrows, fun c => ?_⟩
  have hbelow : Ancestor spans span c ↔ ∃ c' ∈ (forest h).children span, (forest h).Below c' c := by
    unfold Ancestor Forest.Below
    rw [← forest_isParent h, TransGen.head'_iff]
    exact exists_congr fun c' => and_congr_left fun _ => (forest h).mem_children.symm
  rw [hbelow]
  simp only [List.map_flatMap, List.mem_flatMap, Forest.mem_preorder]

theorem siblings_rows (q : Option Span) (hq : ∀ p ∈ q, p ∈ spans) :
    (forest h).siblings q (rows h) =
      ArraySort.sort byStart (spans.filter (shownUnder spans · = q.map (·.spanId))) := by
  unfold rows
  rw [Forest.siblings_flatMap]
  cases q
  case none =>
    have hsingle (r : Span) (hr : r ∈ roots spans) : (forest h).siblings none ((forest h).preorder r 0) = [r] :=
      Forest.siblings_none ((mem_roots_iff h).mp hr).right
    rw [List.flatMap_congr hsingle, List.flatMap_singleton', roots, roots_group]
    rfl
  case some p =>
    have hp : p ∈ spans := hq p rfl
    obtain ⟨r, hr, hbelow⟩ := exists_root h hp
    rw [Forest.flatMap_eq_of_unique (nodup_roots h) hr, Forest.siblings_of_below hbelow]
    · exact (if_pos hp).trans (children_group spans p)
    · intro r' hr' hne
      have hparent' := ((mem_roots_iff h).mp hr').right
      have hparents := hparent'.trans ((mem_roots_iff h).mp hr).right.symm
      rw [Forest.siblings_of_not_below fun hbelow' => hne (Forest.eq_of_below_of_parent_eq hparents hbelow' hbelow)]
      rw [if_neg]
      rw [hparent']
      simp

theorem sort_eq_sortBy (htimes : ∀ span ∈ l, span.startTime.isSome) :
    ArraySort.sort byStart l = Sorting.sortBy (·.startTime.getD 0) l := by
  refine ArraySort.sort_eq fun a ha b hb => ?_
  obtain ⟨start, hstart⟩ := Option.isSome_iff_exists.mp (htimes a ha)
  obtain ⟨other, hother⟩ := Option.isSome_iff_exists.mp (htimes b hb)
  simp [byStart, hstart, hother]

theorem earlier_of_sublist (htimes : ∀ span ∈ spans, span.startTime.isSome)
    (hsub : [a, b].Sublist ((rows h).map (·.1))) (hparents : (forest h).parent a = (forest h).parent b) :
    Earlier spans a b := by
  have hmem : ∀ p ∈ (forest h).parent b, p ∈ spans := fun p hp => (h.parent?_eq_some.mp hp).parent
  have hsiblings : [a, b].Sublist ((forest h).siblings ((forest h).parent b) (rows h)) := by
    have hfilter := hsub.filter ((forest h).parent · = (forest h).parent b)
    unfold Forest.siblings
    simpa [hparents] using hfilter
  rw [siblings_rows h _ hmem, sort_eq_sortBy fun span hspan => htimes span (List.mem_of_mem_filter hspan)] at hsiblings
  have hmem (c : Span) (hc : c ∈ [a, b]) : c.startTime.isSome :=
    htimes c (List.mem_of_mem_filter (Sorting.mem_sortBy.mp (hsiblings.subset hc)))
  obtain ⟨start, hstart⟩ := Option.isSome_iff_exists.mp (hmem a (by simp))
  obtain ⟨other, hother⟩ := Option.isSome_iff_exists.mp (hmem b (by simp))
  refine ⟨start, hstart, other, hother, ?_⟩
  have horder := Sorting.pair_sublist_sortBy (h.nodup.filter _) hsiblings
  simp only [hstart, hother, Option.getD_some] at horder
  exact horder.imp_right fun heq => ⟨heq.left, heq.right.trans List.filter_sublist⟩

theorem buildSpanTree_depthFirst (spans : List Span) (hids : (spans.map (·.spanId)).Nodup)
    (htimes : ∀ span ∈ spans, span.startTime.isSome) (hacyclic : ∀ span, ¬Ancestor spans span span) :
    ∃ nodes, (∀ fuel, spans.length < fuel → buildSpanTree fuel spans = some nodes) ∧ DepthFirstOrder spans nodes := by
  have h : Acyclic spans := ⟨hids, hacyclic⟩
  refine ⟨_, fun fuel hfuel => buildSpanTree_eq h hfuel, ?_⟩
  constructor
  case perm =>
    rw [map_span]
    exact perm_rows h
  case depth =>
    intro n hn
    obtain ⟨r, hr, rfl⟩ := List.mem_map.mp hn
    exact depth_of_mem_rows h hr
  case subtree =>
    intro n hn
    obtain ⟨r, hr, rfl⟩ := List.mem_map.mp hn
    obtain ⟨pre, below, post, hrows, hbelow⟩ := exists_subtree h hr
    refine ⟨pre.map fun n => ⟨n.1, n.2⟩, below.map fun n => ⟨n.1, n.2⟩, post.map fun n => ⟨n.1, n.2⟩, ?_, ?_⟩
    · rw [hrows]
      simp
    · rw [map_span]
      exact hbelow
  case siblings =>
    intro a b hsub hparents
    rw [map_span] at hsub
    refine earlier_of_sublist h htimes hsub (Option.ext fun p => ?_)
    exact h.parent?_eq_some.trans ((hparents p).trans h.parent?_eq_some.symm)

end Order

section Sample

def sampleSpans : List Span :=
  [⟨"c", some "b", some 5⟩, ⟨"b", some "a", some 2⟩, ⟨"a", some "z", some 1⟩, ⟨"d", some "a", some 2⟩]

def sampleLevel (span : Span) : Nat :=
  if span.spanId = "a" then 0 else if span.spanId = "c" then 2 else 1

theorem sampleLevel_lt (h : Ancestor sampleSpans p span) : sampleLevel p < sampleLevel span := by
  have hlevels : ∀ p ∈ sampleSpans, ∀ span ∈ sampleSpans, span.parentSpanId = some p.spanId →
      sampleLevel p < sampleLevel span := by decide
  have hparent {p span : Span} (h : IsParent sampleSpans p span) : sampleLevel p < sampleLevel span :=
    hlevels p h.parent span h.child h.names
  induction h
  case single h => exact hparent h
  case tail h hi => exact hi.trans (hparent h)

theorem sampleSpans_depthFirst :
    letI := ArraySort.stable
    buildSpanTree 5 sampleSpans =
        some [⟨⟨"a", some "z", some 1⟩, 0⟩, ⟨⟨"b", some "a", some 2⟩, 1⟩, ⟨⟨"c", some "b", some 5⟩, 2⟩,
          ⟨⟨"d", some "a", some 2⟩, 1⟩] ∧
      ∃ nodes, (∀ fuel, sampleSpans.length < fuel → buildSpanTree fuel sampleSpans = some nodes) ∧
        DepthFirstOrder sampleSpans nodes :=
  ⟨by decide, @buildSpanTree_depthFirst .stable sampleSpans (by decide) (by decide)
    fun _ h => absurd (sampleLevel_lt h) (Nat.lt_irrefl _)⟩

end Sample
end Web.Waterfall
