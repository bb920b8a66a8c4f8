import OtelFleet.Lib.Json

-- The JSON merge patch of RFC 7386.
namespace Json.Value

def fields : Value → Fields
  | obj fs => fs
  | _ => []

instance : (v : Value) → Decidable (v = null)
  | null => isTrue rfl
  | bool _ | float _ | number _ | str _ | arr _ | obj _ => isFalse nofun

mutual

def mergePatch (target : Value) : Value → Value
  | obj patch => obj (mergeFields target.fields patch)
  | v => v

-- A field that is null removes the field of the target, any other one is merged into it.
def mergeFields (target : Fields) : Fields → Fields
  | [] => target
  | (k, null) :: patch => mergeFields (target.filter (·.1 ≠ k)) patch
  | (k, v) :: patch =>
    mergeFields ((k, mergePatch ((target.lookup k).getD null) v) :: target.filter (·.1 ≠ k)) patch

end

section Lookup

variable {k k' : String} {v : Value}

def patched (old : Option Value) : Option Value → Option Value
  | none => old
  | some null => none
  | some v => some (mergePatch (old.getD null) v)

def setField (target : Fields) (k : String) (v : Value) : Fields :=
  ((patched (target.lookup k) (some v)).map (k, ·)).toList ++ target.filter (·.1 ≠ k)

theorem mergeFields_cons (target patch : Fields) (k : String) (v : Value) :
    mergeFields target ((k, v) :: patch) = mergeFields (setField target k v) patch := by
  cases v <;> rfl

theorem lookup_setField (target : Fields) (k k' : String) (v : Value) :
    (setField target k v).lookup k' =
      if k' = k then patched (target.lookup k) (some v) else target.lookup k' := by
  have hf := Assoc.lookup_filter_ne target k k'
  by_cases hk : k' = k
  case pos =>
    rw [if_pos hk] at hf ⊢
    subst hk
    cases hp : patched (target.lookup k') (some v)
    case none => simpa [setField, hp] using hf
    case some w => simp [setField, hp]
  case neg =>
    rw [if_neg hk] at hf ⊢
    have hb : (k' == k) = false := beq_eq_false_iff_ne.mpr hk
    cases hp : patched (target.lookup k) (some v)
    case none => simpa [setField, hp] using hf
    case some w => simpa [setField, hp, List.lookup_cons, hb] using hf

theorem lookup_mergeFields (hn : (Assoc.keys patch).Nodup) (target : Fields) (k : String) :
    (mergeFields target patch).lookup k = patched (target.lookup k) (patch.lookup k) := by
  induction patch generalizing target
  case nil => rfl
  case cons e patch hi =>
    obtain ⟨l, v⟩ := e
    have ⟨hl, hn'⟩ := List.nodup_cons.mp hn
    rw [mergeFields_cons, hi hn', lookup_setField]
    by_cases hk : k = l
    case pos =>
      -- The rest of the patch does not mention the key any more.
      subst hk
      have hrest : patch.lookup k = none := Assoc.lookup_eq_none hl
      simp [hrest, patched]
    case neg =>
      have hb : (k == l) = false := beq_eq_false_iff_ne.mpr hk
      simp [List.lookup_cons, hb, hk]

end Lookup

section Trees

def at? (v : Value) : List String → Option Value
  | [] => some v
  | k :: ks => (v.fields.lookup k).bind fun w => w.at? ks

def atom? : Value → Option Value
  | obj _ => none
  | v => some v

def SameTree (v w : Value) : Prop :=
  ∀ path, (v.at? path).map atom? = (w.at? path).map atom?

-- The patch names everything that the target holds below the objects of the patch, and removes
-- nothing.
structure Covers (patch target : Value) : Prop where
  noNull : ∀ path k, patch.at? (path ++ [k]) ≠ some null
  named : ∀ path k, (∃ fs, patch.at? path = some (obj fs)) → (target.at? (path ++ [k])).isSome →
    (patch.at? (path ++ [k])).isSome

variable {v w patch target : Value}

theorem SameTree.refl (v : Value) : SameTree v v :=
  fun _ => rfl

theorem at?_cons_of_lookup (h : v.fields.lookup k = some w) (path : List String) : v.at? (k :: path) = w.at? path := by
  simp [at?, h]

theorem at?_cons_of_none (h : v.fields.lookup k = none) (path : List String) : v.at? (k :: path) = none := by
  simp [at?, h]

theorem sameTree_obj_iff : SameTree (obj fs) (obj gs) ↔
    ∀ k, (fs.lookup k = none ∧ gs.lookup k = none) ∨
      ∃ v w, fs.lookup k = some v ∧ gs.lookup k = some w ∧ SameTree v w := by
  constructor
  · intro h k
    have hk := fun path => h (k :: path)
    simp only [at?, fields] at hk
    cases hf : fs.lookup k <;> cases hg : gs.lookup k <;> simp only [hf, hg] at hk
    case none.none => exact .inl ⟨rfl, rfl⟩
    case some.some v w => exact .inr ⟨v, w, rfl, rfl, hk⟩
    all_goals exact absurd (hk []) (by simp [at?])
  · intro h path
    cases path
    case nil => rfl
    case cons k path =>
      obtain ⟨hf, hg⟩ | ⟨v, w, hf, hg, hs⟩ := h k
      · rw [at?_cons_of_none hf, at?_cons_of_none hg]
      · rw [at?_cons_of_lookup hf, at?_cons_of_lookup hg, hs path]

theorem covers_obj_iff : Covers (obj fs) target ↔
    ∀ k, (fs.lookup k = none ∧ target.fields.lookup k = none) ∨
      ∃ v, fs.lookup k = some v ∧ v ≠ null ∧ Covers v ((target.fields.lookup k).getD null) := by
  constructor
  · intro h k
    cases hf : fs.lookup k
    case none =>
      refine .inl ⟨rfl, ?_⟩
      by_contra ht
      obtain ⟨w, hw⟩ := Option.ne_none_iff_exists'.mp ht
      have hn := h.named [] k ⟨fs, rfl⟩ (by rw [List.nil_append, at?_cons_of_lookup hw]; rfl)
      rw [List.nil_append, at?_cons_of_none (v := obj fs) hf] at hn
      cases hn
    case some v =>
      have hat := at?_cons_of_lookup (v := obj fs) hf
      refine .inr ⟨v, rfl, fun hv => h.noNull [] k (by rw [List.nil_append, hat, hv]; rfl), ?_⟩
      constructor
      case noNull => exact fun path l => hat _ ▸ h.noNull (k :: path) l
      case named =>
        intro path l ho ht
        cases hw : target.fields.lookup k
        case none =>
          simp only [hw, Option.getD_none] at ht
          cases path <;> simp [at?, fields] at ht
        case some w =>
          simp only [hw, Option.getD_some] at ht
          rw [← hat] at ho
          rw [← hat]
          exact h.named (k :: path) l ho (by rwa [List.cons_append, at?_cons_of_lookup hw])
  · intro h
    constructor
    case noNull =>
      intro path k
      cases path
      case nil =>
        obtain ⟨hf, _⟩ | ⟨v, hf, hv, _⟩ := h k
        · rw [List.nil_append, at?_cons_of_none (v := obj fs) hf]
          simp
        · rw [List.nil_append, at?_cons_of_lookup (v := obj fs) hf]
          exact fun hn => hv (Option.some.inj hn)
      case cons l path =>
        obtain ⟨hf, _⟩ | ⟨v, hf, _, hc⟩ := h l
        · rw [List.cons_append, at?_cons_of_none (v := obj fs) hf]
          simp
        · rw [List.cons_append, at?_cons_of_lookup (v := obj fs) hf]
          exact hc.noNull path k
    case named =>
      intro path k ho ht
      cases path
      case nil =>
        obtain ⟨_, hn⟩ | ⟨v, hf, _⟩ := h k
        · rw [List.nil_append, at?_cons_of_none hn] at ht
          cases ht
        · rw [List.nil_append, at?_cons_of_lookup (v := obj fs) hf]
          rfl
      case cons l path =>
        obtain ⟨hf, _⟩ | ⟨v, hf, _, hc⟩ := h l
        · rw [at?_cons_of_none (v := obj fs) hf] at ho
          obtain ⟨_, ⟨⟩⟩ := ho
        · rw [at?_cons_of_lookup (v := obj fs) hf] at ho
          rw [List.cons_append, at?_cons_of_lookup (v := obj fs) hf]
          refine hc.named path k ho ?_
          cases hw : target.fields.lookup l
          case none =>
            rw [List.cons_append, at?_cons_of_none hw] at ht
            cases ht
          case some w => rwa [List.cons_append, at?_cons_of_lookup hw] at ht

theorem covers_atom (h : ∀ fs, patch ≠ obj fs) (target : Value) : Covers patch target := by
  have hf : patch.fields = [] := by cases patch <;> first | rfl | exact absurd rfl (h _)
  constructor
  case noNull =>
    intro path k
    cases path <;> simp [at?, hf]
  case named =>
    rintro path k ⟨fs, ho⟩ _
    cases path
    case nil => exact absurd (Option.some.inj ho) (h fs)
    case cons => simp [at?, hf] at ho

theorem at?_mem_subvalues (h : v.at? path = some w) : w ∈ v.subvalues := by
  induction path generalizing v
  case nil => exact Option.some.inj h ▸ self_mem_subvalues v
  case cons k path hi =>
    cases hl : v.fields.lookup k
    case none => simp [at?, hl] at h
    case some u =>
      have hm := Assoc.mem_of_lookup hl
      rw [at?_cons_of_lookup hl] at h
      cases v
      case obj fs =>
        simp only [subvalues, List.mem_cons, mem_subvaluesFields]
        exact .inr ⟨k, u, hm, hi h⟩
      all_goals cases hm

theorem covers_of_isSome (hn : ∀ w ∈ patch.subvalues, w ≠ null)
    (h : ∀ path k, (target.at? (path ++ [k])).isSome → (patch.at? (path ++ [k])).isSome) : Covers patch target where
  noNull _ _ he := hn _ (at?_mem_subvalues he) rfl
  named path k _ := h path k

-- A patch replaces the target exactly when it covers it.
theorem mergePatch_sameTree_iff (h : patch.WF) (target : Value) :
    SameTree (target.mergePatch patch) patch ↔ Covers patch target := by
  induction patch generalizing target
  case obj fs hi =>
    rw [mergePatch, sameTree_obj_iff, covers_obj_iff]
    refine forall_congr' fun k => ?_
    rw [lookup_mergeFields h.keys]
    cases hf : fs.lookup k
    case none => simp [patched]
    case some v =>
      have hm := Assoc.mem_of_lookup hf
      have hv := hi k v hm (h.field hm) ((target.fields.lookup k).getD null)
      cases v
      case null => simp [patched]
      all_goals simpa [patched] using hv
  all_goals exact iff_of_true (.refl _) (covers_atom (by simp) target)

end Trees

end Json.Value
