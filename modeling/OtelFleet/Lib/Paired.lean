import Mathlib.Data.List.Forall2
import Mathlib.Data.List.Sort

-- Lists whose elements are related in pairs, and functions that do not tell the pairs apart.
namespace List.Forall₂

theorem eq_nil_iff (h : Forall₂ R l m) : l = [] ↔ m = [] := by
  cases h <;> simp

theorem exists_of_mem_left (h : Forall₂ R l m) (ha : a ∈ l) : ∃ b ∈ m, R a b := by
  induction h
  case nil => cases ha
  case cons a' b l m hab _ hi =>
    obtain rfl | ha := List.mem_cons.mp ha
    · exact ⟨b, List.mem_cons_self, hab⟩
    · obtain ⟨b', hb', hab'⟩ := hi ha
      exact ⟨b', List.mem_cons_of_mem _ hb', hab'⟩

theorem exists_of_mem_right (h : Forall₂ R l m) (hb : b ∈ m) : ∃ a ∈ l, R a b :=
  h.flip.exists_of_mem_left hb

theorem map_eq (h : Forall₂ R l m) (hf : ∀ a b, R a b → f a = g b) : l.map f = m.map g := by
  induction h
  case nil => rfl
  case cons a b l m hab _ hi => rw [List.map_cons, List.map_cons, hf a b hab, hi]

theorem flatMap_congr (h : Forall₂ R l m) (hf : ∀ a b, R a b → f a = g b) : l.flatMap f = m.flatMap g := by
  rw [List.flatMap_def, List.flatMap_def, h.map_eq hf]

theorem flatMap_eq_iff {g : β → List γ} (h : Forall₂ R l m) (hl : ∀ a b, R a b → (f a).length = (g b).length) :
    l.flatMap f = m.flatMap g ↔ Forall₂ (fun a b => f a = g b) l m := by
  induction h
  case nil => simp
  case cons a b l m hab _ hi =>
    rw [List.flatMap_cons, List.flatMap_cons, forall₂_cons, ← hi]
    constructor
    · exact fun he => List.append_inj he (hl a b hab)
    · exact fun ⟨h₁, h₂⟩ => by rw [h₁, h₂]

theorem find_rel (h : Forall₂ R l m) (hpq : ∀ a b, R a b → p a = q b) :
    (l.find? p = none ∧ m.find? q = none) ∨ ∃ a b, l.find? p = some a ∧ m.find? q = some b ∧ R a b := by
  induction h
  case nil => exact .inl ⟨rfl, rfl⟩
  case cons a b l m hab _ hi =>
    rw [List.find?_cons, List.find?_cons, hpq a b hab]
    cases q b
    case true => exact .inr ⟨a, b, rfl, rfl, hab⟩
    case false => exact hi

theorem insertionSort_iff [DecidableRel r] [DecidableRel t]
    (h : Forall₂ R l m) (hrt : ∀ a b a' b', R a b → R a' b' → (r a a' ↔ t b b')) :
    Forall₂ S (l.insertionSort r) (m.insertionSort t) ↔ Forall₂ S l m := by
  obtain ⟨hlen, hR⟩ := forall₂_iff_zip.mp h
  have hl : (l.zip m).map Prod.fst = l := List.map_fst_zip hlen.le
  have hm : (l.zip m).map Prod.snd = m := List.map_snd_zip hlen.ge
  generalize l.zip m = z at hl hm hR
  subst hl hm
  -- Both lists are sorted by sorting the pairs by their first components.
  rw [← List.map_insertionSort (r := fun e e' => r e.1 e'.1) (s := r) Prod.fst z fun _ _ _ _ => Iff.rfl,
    ← List.map_insertionSort (r := fun e e' => r e.1 e'.1) (s := t) Prod.snd z fun e he e' he' => hrt _ _ _ _ (hR he) (hR he')]
  simp only [forall₂_map_left_iff, forall₂_map_right_iff, forall₂_same, List.mem_insertionSort]

theorem insertionSort [DecidableRel r] [DecidableRel t]
    (h : Forall₂ R l m) (hrt : ∀ a b a' b', R a b → R a' b' → (r a a' ↔ t b b')) :
    Forall₂ R (l.insertionSort r) (m.insertionSort t) :=
  (h.insertionSort_iff hrt).mpr h

end List.Forall₂
