import OtelFleet.Lib.DepthFirst
import Mathlib.Data.List.Nodup
import Mathlib.Logic.Relation
import Mathlib.Tactic.Common

-- Forests, in which the children of every node have an order.
structure Forest (α : Type) where
  children : α → List α
  parent : α → Option α
  level : α → Nat
  height : Nat
  mem_children : ∀ {a c}, c ∈ children a ↔ parent c = some a
  nodup_children : ∀ a, (children a).Nodup
  level_of_none : ∀ {a}, parent a = none → level a = 0
  level_of_some : ∀ {a c}, parent c = some a → level c = level a + 1
  level_le : ∀ a, level a ≤ height

namespace Forest

open Relation (ReflTransGen TransGen)

variable {α : Type} (F : Forest α)

def IsParent (a c : α) : Prop :=
  F.parent c = some a

def Below (a x : α) : Prop :=
  ReflTransGen F.IsParent a x

def preorder (a : α) (depth : Nat) : List (α × Nat) :=
  (a, depth) :: (F.children a).attach.flatMap fun c => preorder c.1 (depth + 1)
termination_by F.height - F.level a
decreasing_by
  have hlevel := F.level_of_some (F.mem_children.mp c.2)
  have hle := F.level_le c.1
  omega

theorem preorder_eq (a : α) (depth : Nat) :
    F.preorder a depth = (a, depth) :: (F.children a).flatMap (F.preorder · (depth + 1)) := by
  rw [preorder]
  conv_rhs => rw [← List.attach_map_subtype_val (F.children a), List.flatMap_map]

variable {F} {a b c x p : α}

theorem induction {P : α → Prop} (h : ∀ a, (∀ c ∈ F.children a, P c) → P a) (a : α) : P a := by
  generalize hn : F.height - F.level a = n
  induction n using Nat.strongRecOn generalizing a
  case ind n hi =>
    refine h a fun c hc => hi (F.height - F.level c) ?_ c rfl
    have hlevel := F.level_of_some (F.mem_children.mp hc)
    have hle := F.level_le c
    omega

theorem level_lt_of_transGen (h : TransGen F.IsParent a x) : F.level a < F.level x := by
  induction h
  case single h => rw [F.level_of_some h]; exact Nat.lt_succ_self _
  case tail h hi => rw [F.level_of_some h]; exact Nat.lt_succ_of_lt hi

theorem not_below_of_isParent (h : F.parent c = some a) : ¬F.Below c a := by
  intro hbelow
  exact absurd (level_lt_of_transGen (TransGen.head' h hbelow)) (Nat.lt_irrefl _)

theorem below_iff : F.Below a x ↔ x = a ∨ ∃ c ∈ F.children a, F.Below c x := by
  unfold Below
  rw [ReflTransGen.cases_head_iff]
  refine or_congr eq_comm (exists_congr fun c => and_congr_left fun _ => ?_)
  exact F.mem_children.symm

theorem Below.total (ha : F.Below a x) (hb : F.Below b x) : F.Below a b ∨ F.Below b a := by
  have hunique : Relator.RightUnique (Function.swap F.IsParent) := by
    intro c p q hp hq
    exact Option.some.inj (hp.symm.trans hq)
  have htotal := ReflTransGen.total_of_right_unique hunique (Relation.reflTransGen_swap.mpr ha)
    (Relation.reflTransGen_swap.mpr hb)
  refine htotal.symm.imp ?_ ?_
  all_goals exact fun h => Relation.reflTransGen_swap.mp h

theorem eq_of_below_of_parent_eq (hparent : F.parent a = F.parent b) (ha : F.Below a x) (hb : F.Below b x) : a = b := by
  have hlevel : F.level a = F.level b := by
    cases hp : F.parent a
    case none => rw [F.level_of_none hp, F.level_of_none (hparent.symm.trans hp)]
    case some p => rw [F.level_of_some hp, F.level_of_some (hparent.symm.trans hp)]
  have heq {a b : α} (hlevel : F.level a = F.level b) (h : F.Below a b) : a = b := by
    obtain rfl | h := Relation.reflTransGen_iff_eq_or_transGen.mp h
    · rfl
    · exact absurd (level_lt_of_transGen h) (by omega)
  obtain h | h := ha.total hb
  · exact heq hlevel h
  · exact (heq hlevel.symm h).symm

theorem mem_preorder {depth : Nat} : x ∈ (F.preorder a depth).map (·.1) ↔ F.Below a x := by
  induction a using F.induction generalizing depth
  case h a hi =>
    rw [preorder_eq, below_iff]
    simp only [List.map_cons, List.mem_cons, List.map_flatMap, List.mem_flatMap]
    refine or_congr_right (exists_congr fun c => and_congr_right fun hc => hi c hc)

theorem level_of_mem_preorder {depth k : Nat} (h : (x, k) ∈ F.preorder a depth) : k + F.level a = depth + F.level x := by
  induction a using F.induction generalizing depth
  case h a hi =>
    rw [preorder_eq] at h
    obtain h | h := List.mem_cons.mp h
    · cases h
      rfl
    · obtain ⟨c, hc, h⟩ := List.mem_flatMap.mp h
      have hlevel := F.level_of_some (F.mem_children.mp hc)
      have hk := hi c hc h
      omega

theorem exists_split {depth : Nat} (h : F.Below a x) :
    ∃ pre post k, F.preorder a depth = pre ++ F.preorder x k ++ post := by
  induction a using F.induction generalizing depth
  case h a hi =>
    obtain rfl | ⟨c, hc, hx⟩ := below_iff.mp h
    · exact ⟨[], [], depth, by simp⟩
    · obtain ⟨pre, post, k, hsplit⟩ := @hi c hc (depth + 1) hx
      obtain ⟨l₁, l₂, hl⟩ := List.append_of_mem hc
      refine ⟨(a, depth) :: l₁.flatMap (F.preorder · (depth + 1)) ++ pre,
        post ++ l₂.flatMap (F.preorder · (depth + 1)), k, ?_⟩
      rw [preorder_eq, hl, List.flatMap_append, List.flatMap_cons, hsplit]
      simp

section Siblings

theorem flatMap_eq_of_unique {l : List α} (hn : l.Nodup) (ha : a ∈ l)
    (h : ∀ c ∈ l, c ≠ a → f c = []) : l.flatMap f = f a := by
  obtain ⟨l₁, l₂, rfl⟩ := List.append_of_mem ha
  have hne (c : α) (hc : c ∈ l₁ ++ l₂) : c ≠ a := by
    rintro rfl
    exact (List.nodup_cons.mp (List.nodup_middle.mp hn)).left hc
  have hmem {c : α} (hc : c ∈ l₁ ++ l₂) : c ∈ l₁ ++ a :: l₂ := by
    obtain hc | hc := List.mem_append.mp hc
    · exact List.mem_append_left _ hc
    · exact List.mem_append_right _ (List.mem_cons_of_mem _ hc)
  have h₁ : l₁.flatMap f = [] :=
    List.flatMap_eq_nil_iff.mpr fun c hc => h c (hmem (List.mem_append_left _ hc)) (hne c (List.mem_append_left _ hc))
  have h₂ : l₂.flatMap f = [] :=
    List.flatMap_eq_nil_iff.mpr fun c hc => h c (hmem (List.mem_append_right _ hc)) (hne c (List.mem_append_right _ hc))
  rw [List.flatMap_append, List.flatMap_cons, h₁, h₂, List.append_nil, List.nil_append]

variable [DecidableEq α]

def siblings (F : Forest α) (q : Option α) (l : List (α × Nat)) : List α :=
  (l.map (·.1)).filter (F.parent · = q)

theorem siblings_flatMap (q : Option α) (f : α → List (α × Nat)) (l : List α) :
    F.siblings q (l.flatMap f) = l.flatMap fun a => F.siblings q (f a) := by
  unfold siblings
  rw [List.map_flatMap, List.filter_flatMap]

theorem siblings_preorder (q : Option α) :
    F.siblings q (F.preorder a depth) =
      (if F.parent a = q then [a] else []) ++
        (F.children a).flatMap fun c => F.siblings q (F.preorder c (depth + 1)) := by
  rw [preorder_eq, ← siblings_flatMap]
  unfold siblings
  rw [List.map_cons, List.filter_cons]
  split_ifs
  all_goals simp_all

theorem siblings_none (h : F.parent a = none) : F.siblings none (F.preorder a depth) = [a] := by
  have hsome {c : α} {depth : Nat} (hc : F.parent c ≠ none) : F.siblings none (F.preorder c depth) = [] := by
    induction c using F.induction generalizing depth
    case h c hi =>
      rw [siblings_preorder, if_neg hc, List.nil_append, List.flatMap_eq_nil_iff]
      intro c' hc'
      refine hi c' hc' ?_
      rw [F.mem_children.mp hc']
      simp
  rw [siblings_preorder, if_pos h, List.flatMap_eq_nil_iff.mpr, List.append_nil]
  intro c hc
  refine hsome ?_
  rw [F.mem_children.mp hc]
  simp

theorem siblings_of_not_below (h : ¬F.Below a p) :
    F.siblings (some p) (F.preorder a depth) = if F.parent a = some p then [a] else [] := by
  induction a using F.induction generalizing depth
  case h a hi =>
    have hp : a ≠ p := by
      rintro rfl
      exact h .refl
    rw [siblings_preorder, List.flatMap_eq_nil_iff.mpr, List.append_nil]
    intro c hc
    have hc' := F.mem_children.mp hc
    rw [hi c hc fun hbelow => h (below_iff.mpr (.inr ⟨c, hc, hbelow⟩)), if_neg]
    rw [hc', Option.some.injEq]
    exact hp

theorem siblings_of_below (h : F.Below a p) : F.siblings (some p) (F.preorder a depth) = F.children p := by
  induction a using F.induction generalizing depth
  case h a hi =>
    have hparent : F.parent a ≠ some p := fun hp => not_below_of_isParent hp h
    rw [siblings_preorder, if_neg hparent, List.nil_append]
    obtain rfl | ⟨c, hc, hbelow⟩ := below_iff.mp h
    · have hsingle (c : α) (hc : c ∈ F.children p) : F.siblings (some p) (F.preorder c (depth + 1)) = [c] := by
        have hc' := F.mem_children.mp hc
        rw [siblings_of_not_below (not_below_of_isParent hc'), if_pos hc']
      rw [List.flatMap_congr hsingle, List.flatMap_singleton']
    · rw [flatMap_eq_of_unique (F.nodup_children a) hc, hi c hc hbelow]
      intro c' hc' hne
      have hparents : F.parent c' = F.parent c := by rw [F.mem_children.mp hc', F.mem_children.mp hc]
      rw [siblings_of_not_below fun hbelow' => hne (eq_of_below_of_parent_eq hparents hbelow' hbelow), if_neg]
      rw [F.mem_children.mp hc', Option.some.injEq]
      rintro rfl
      exact not_below_of_isParent (F.mem_children.mp hc) hbelow

end Siblings

section Walk

open DepthFirst (State walk walk_of_not_mem)

variable {κ : Type} {key : α → κ} {st : State α κ} {depth : Nat}

def add (key : α → κ) (st : State α κ) (l : List (α × Nat)) : State α κ where
  visited := st.visited ++ l.map (key ·.1)
  ordered := st.ordered ++ l

theorem add_add (l l' : List (α × Nat)) : add key (add key st l) l' = add key st (l ++ l') := by
  simp [add]

theorem Below.mem (hS : ∀ a ∈ S, F.children a ⊆ S) (h : F.Below a x) (ha : a ∈ S) : x ∈ S := by
  induction h
  case refl => exact ha
  case tail hx hi => exact hS _ hi (F.mem_children.mpr hx)

def Fresh (F : Forest α) (key : α → κ) (st : State α κ) (l : List α) : Prop :=
  ∀ a ∈ l, ∀ x, F.Below a x → key x ∉ st.visited

theorem foldlM_preorder {f : State α κ → α → Option (State α κ)} {l : List α}
    (hf : ∀ a ∈ l, ∀ st, F.Fresh key st [a] → f st a = some (add key st (F.preorder a depth)))
    (hdisjoint : l.Pairwise fun a b => ∀ x, F.Below a x → ∀ y, F.Below b y → key x ≠ key y) (hfresh : F.Fresh key st l) :
    l.foldlM f st = some (add key st (l.flatMap (F.preorder · depth))) := by
  induction l generalizing st
  case nil => simp [add]
  case cons a l hi =>
    obtain ⟨ha, hl⟩ := List.pairwise_cons.mp hdisjoint
    have hstep : f st a = some (add key st (F.preorder a depth)) :=
      hf a List.mem_cons_self st fun b hb => hfresh b (List.mem_singleton.mp hb ▸ List.mem_cons_self)
    have hrest : F.Fresh key (add key st (F.preorder a depth)) l := by
      intro b hb y hy hmem
      obtain hmem | hmem := List.mem_append.mp hmem
      · exact hfresh b (List.mem_cons_of_mem _ hb) y hy hmem
      · obtain ⟨n, hn, heq⟩ := List.mem_map.mp hmem
        have hbelow : F.Below a n.1 := mem_preorder.mp (List.mem_map_of_mem hn)
        exact ha b hb n.1 hbelow y hy heq
    rw [List.foldlM_cons, hstep]
    have := hi (fun b hb => hf b (List.mem_cons_of_mem _ hb)) hl hrest
    rw [add_add] at this
    exact this

variable [DecidableEq κ]

-- In a forest, a depth-first walk meets everything below a node.
theorem walk_eq_preorder (hS : ∀ a ∈ S, F.children a ⊆ S) (hkey : ∀ x ∈ S, ∀ y ∈ S, key x = key y → x = y) (ha : a ∈ S)
    (hfresh : F.Fresh key st [a]) (hfuel : F.height - F.level a < fuel) :
    walk key F.children fuel depth st a = some (add key st (F.preorder a depth)) := by
  induction fuel generalizing a depth st
  case zero => cases hfuel
  case succ fuel hi =>
    have hnew : key a ∉ st.visited := hfresh a (List.mem_singleton_self a) a .refl
    have hvisit : st.visit (key a) a depth = add key st [(a, depth)] := rfl
    rw [walk_of_not_mem hnew, preorder_eq, hvisit]
    refine (@foldlM_preorder _ F _ key _ (depth + 1) _ _ ?_ ?_ ?_).trans (by rw [add_add]; rfl)
    · intro c hc st hst
      refine hi (hS a ha hc) hst ?_
      have hlevel := F.level_of_some (F.mem_children.mp hc)
      have hle := F.level_le c
      omega
    · refine (F.nodup_children a).imp_of_mem ?_
      intro c c' hc hc' hne x hx y hy heq
      have hparents : F.parent c = F.parent c' := by rw [F.mem_children.mp hc, F.mem_children.mp hc']
      have hxy : x = y := hkey x (hx.mem hS (hS a ha hc)) y (hy.mem hS (hS a ha hc')) heq
      subst hxy
      exact hne (eq_of_below_of_parent_eq hparents hx hy)
    · intro c hc x hx hmem
      have hbelow : F.Below a x := below_iff.mpr (.inr ⟨c, hc, hx⟩)
      obtain hmem | hmem := List.mem_append.mp hmem
      · exact hfresh a (List.mem_singleton_self a) x hbelow hmem
      · have hxa : x = a := hkey x (hbelow.mem hS ha) a ha (List.mem_singleton.mp hmem)
        subst hxa
        exact not_below_of_isParent (F.mem_children.mp hc) hx

end Walk
end Forest
