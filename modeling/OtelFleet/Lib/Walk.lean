import OtelFleet.Lib.Strconv

-- Walking a JSON value alongside a guide that marks some of the places in it.
namespace Walk

open Json (Value Fields)
open Assoc (mapVals mem_mapVals sort)

section Traverse

variable {ε α β ω : Type}

-- The outcome of a computation that fails, or else yields a result and some notes.
def settle (err : Option ε) (b : β) (notes : List ω) : Except ε (β × List ω) :=
  match err with
  | some e => .error e
  | none => .ok (b, notes)

def traverse (f : α → Except ε (β × List ω)) : List α → Except ε (List β × List ω)
  | [] => .ok ([], [])
  | a :: as =>
    match f a with
    | .error e => .error e
    | .ok (b, notes) =>
      match traverse f as with
      | .error e => .error e
      | .ok (bs, rest) => .ok (b :: bs, notes ++ rest)

theorem traverse_settle (h : ∀ a ∈ l, f a = settle (err a) (val a) (notes a)) :
    traverse f l = settle (l.findSome? err) (l.map val) (l.flatMap notes) := by
  induction l
  case nil => rfl
  case cons a as hi =>
    have hi := hi fun a ha => h a (List.mem_cons_of_mem _ ha)
    rw [traverse, h a List.mem_cons_self, hi, List.findSome?_cons]
    cases err a
    case some => rfl
    case none => cases as.findSome? err <;> rfl

theorem findSome?_flatMap {l : List α} : (l.flatMap f).findSome? g = l.findSome? fun a => (f a).findSome? g := by
  induction l
  case nil => rfl
  case cons a as hi =>
    rw [List.flatMap_cons, List.findSome?_append, hi, List.findSome?_cons]
    cases (f a).findSome? g <;> rfl

theorem zipIdx_map_zipIdx (f : α × Nat → β) (l : List α) (i : Nat) :
    ((l.zipIdx i).map f).zipIdx i = (l.zipIdx i).map fun e => (f e, e.2) := by
  induction l generalizing i
  case nil => rfl
  case cons a as hi => simp [List.zipIdx_cons, hi]

end Traverse

-- Where a walk stands, and what it finds below. The guide says which places are marked; the walk
-- does not go below a marked place.
structure Guide (σ : Type) where
  marked : σ → Bool
  field : σ → String → σ
  item : σ → σ

def fieldPath (path key : String) : String :=
  path ++ "." ++ key

def itemPath (path : String) (i : Nat) : String :=
  path ++ "[" ++ Strconv.itoa i ++ "]"

namespace Guide

variable {σ ω : Type} (G : Guide σ)

section Definitions

mutual

-- Replaces what stands at the marked places.
def walk (fn : String → Value → Except String (Value × List ω)) (s : σ) (path : String) :
    Value → Except String (Value × List ω)
  | .obj fields =>
    if G.marked s then fn path (.obj fields)
    else
      match walkFields fn s path fields with
      | .error e => .error e
      | .ok (fields, notes) => .ok (.obj fields, notes)
  | .arr items =>
    if G.marked s then fn path (.arr items)
    else
      match walkItems fn (G.item s) path 0 items with
      | .error e => .error e
      | .ok (items, notes) => .ok (.arr items, notes)
  | v => if G.marked s then fn path v else .ok (v, [])

def walkFields (fn : String → Value → Except String (Value × List ω)) (s : σ) (path : String) :
    Fields → Except String (Fields × List ω)
  | [] => .ok ([], [])
  | (k, v) :: fs =>
    match walk fn (G.field s k) (fieldPath path k) v with
    | .error e => .error e
    | .ok (v, notes) =>
      match walkFields fn s path fs with
      | .error e => .error e
      | .ok (fs, rest) => .ok ((k, v) :: fs, notes ++ rest)

def walkItems (fn : String → Value → Except String (Value × List ω)) (s : σ) (path : String) :
    Nat → List Value → Except String (List Value × List ω)
  | _, [] => .ok ([], [])
  | i, v :: vs =>
    match walk fn s (itemPath path i) v with
    | .error e => .error e
    | .ok (v, notes) =>
      match walkItems fn s path (i + 1) vs with
      | .error e => .error e
      | .ok (vs, rest) => .ok (v :: vs, notes ++ rest)

end

mutual

def mapMarks (f : String → Value → Value) (s : σ) (path : String) : Value → Value
  | .obj fields =>
    if G.marked s then f path (.obj fields) else .obj (mapMarksFields f s path fields)
  | .arr items =>
    if G.marked s then f path (.arr items) else .arr (mapMarksItems f (G.item s) path 0 items)
  | v => if G.marked s then f path v else v

def mapMarksFields (f : String → Value → Value) (s : σ) (path : String) : Fields → Fields
  | [] => []
  | (k, v) :: fs => (k, mapMarks f (G.field s k) (fieldPath path k) v) :: mapMarksFields f s path fs

def mapMarksItems (f : String → Value → Value) (s : σ) (path : String) :
    Nat → List Value → List Value
  | _, [] => []
  | i, v :: vs => mapMarks f s (itemPath path i) v :: mapMarksItems f s path (i + 1) vs

end

mutual

def marks (s : σ) (path : String) : Value → List (String × Value)
  | .obj fields => if G.marked s then [(path, .obj fields)] else marksFields s path fields
  | .arr items => if G.marked s then [(path, .arr items)] else marksItems (G.item s) path 0 items
  | v => if G.marked s then [(path, v)] else []

def marksFields (s : σ) (path : String) : Fields → List (String × Value)
  | [] => []
  | (k, v) :: fs => marks (G.field s k) (fieldPath path k) v ++ marksFields s path fs

def marksItems (s : σ) (path : String) : Nat → List Value → List (String × Value)
  | _, [] => []
  | i, v :: vs => marks s (itemPath path i) v ++ marksItems s path (i + 1) vs

end

end Definitions

variable {G} {fn : String → Value → Except String (Value × List ω)} {path : String}

theorem walk_of_marked (h : G.marked s) (v : Value) : G.walk fn s path v = fn path v := by
  cases v <;> simp [walk, h]

theorem mapMarks_of_marked (h : G.marked s) (v : Value) : G.mapMarks f s path v = f path v := by
  cases v <;> simp [mapMarks, h]

theorem marks_of_marked (h : G.marked s) (v : Value) : G.marks s path v = [(path, v)] := by
  cases v <;> simp [marks, h]

theorem mapMarksFields_eq (fields : Fields) :
    G.mapMarksFields f s path fields =
      mapVals (fun k v => G.mapMarks f (G.field s k) (fieldPath path k) v) fields := by
  induction fields
  case nil => rfl
  case cons e fs hi => simp [mapMarksFields, hi, mapVals]

theorem mapMarksItems_eq (i : Nat) (items : List Value) :
    G.mapMarksItems f s path i items =
      (items.zipIdx i).map fun e => G.mapMarks f s (itemPath path e.2) e.1 := by
  induction items generalizing i
  case nil => rfl
  case cons v vs hi => simp [mapMarksItems, hi, List.zipIdx_cons]

theorem marksFields_eq (fields : Fields) :
    G.marksFields s path fields =
      fields.flatMap fun e => G.marks (G.field s e.1) (fieldPath path e.1) e.2 := by
  induction fields
  case nil => rfl
  case cons e fs hi => simp [marksFields, hi]

theorem marksItems_eq (i : Nat) (items : List Value) :
    G.marksItems s path i items =
      (items.zipIdx i).flatMap fun e => G.marks s (itemPath path e.2) e.1 := by
  induction items generalizing i
  case nil => rfl
  case cons v vs hi => simp [marksItems, hi, List.zipIdx_cons]

theorem mapMarks_obj (h : ¬G.marked s) (fields : Fields) :
    G.mapMarks f s path (.obj fields) =
      .obj (mapVals (fun k v => G.mapMarks f (G.field s k) (fieldPath path k) v) fields) := by
  simp [mapMarks, h, mapMarksFields_eq]

theorem mapMarks_arr (h : ¬G.marked s) (items : List Value) :
    G.mapMarks f s path (.arr items) =
      .arr (items.zipIdx.map fun e => G.mapMarks f (G.item s) (itemPath path e.2) e.1) := by
  simp [mapMarks, h, mapMarksItems_eq]

theorem marks_obj (h : ¬G.marked s) (fields : Fields) :
    G.marks s path (.obj fields) =
      fields.flatMap fun e => G.marks (G.field s e.1) (fieldPath path e.1) e.2 := by
  simp [marks, h, marksFields_eq]

theorem marks_arr (h : ¬G.marked s) (items : List Value) :
    G.marks s path (.arr items) =
      items.zipIdx.flatMap fun e => G.marks (G.item s) (itemPath path e.2) e.1 := by
  simp [marks, h, marksItems_eq]

def Leaf : Value → Prop
  | .arr _ | .obj _ => False
  | _ => True

theorem mapMarks_leaf (hl : Leaf v) (h : ¬G.marked s) : G.mapMarks f s path v = v := by
  cases v <;> simp_all [mapMarks, Leaf]

theorem marks_leaf (hl : Leaf v) (h : ¬G.marked s) : G.marks s path v = [] := by
  cases v <;> simp_all [marks, Leaf]

-- Induction along a walk: it ends at a mark or at a leaf, or goes on below.
@[elab_as_elim]
theorem walk_induction {P : σ → String → Value → Prop} (mark : ∀ s path v, G.marked s → P s path v)
    (leaf : ∀ s path v, ¬G.marked s → Leaf v → P s path v) (arr : ∀ s path items, ¬G.marked s →
      (∀ e ∈ items.zipIdx, P (G.item s) (itemPath path e.2) e.1) → P s path (.arr items))
    (obj : ∀ s path fields, ¬G.marked s →
      (∀ e ∈ fields, P (G.field s e.1) (fieldPath path e.1) e.2) → P s path (.obj fields))
    (s : σ) (path : String) (v : Value) : P s path v := by
  induction v generalizing s path
  case arr items hi =>
    by_cases h : G.marked s
    · exact mark s path _ h
    · exact arr s path items h fun e he => hi e.1 (List.fst_mem_of_mem_zipIdx he) _ _
  case obj fields hi =>
    by_cases h : G.marked s
    · exact mark s path _ h
    · exact obj s path fields h fun e he => hi e.1 e.2 he _ _
  all_goals
    by_cases h : G.marked s
    · exact mark s path _ h
    · exact leaf s path _ h trivial

section Outcome

def errorAt (fn : String → Value → Except String (Value × List ω)) (e : String × Value) : Option String :=
  match fn e.1 e.2 with
  | .error m => some m
  | .ok _ => none

def valueAt (fn : String → Value → Except String (Value × List ω)) (path : String) (v : Value) : Value :=
  match fn path v with
  | .error _ => v
  | .ok r => r.1

def notesAt (fn : String → Value → Except String (Value × List ω)) (e : String × Value) : List ω :=
  match fn e.1 e.2 with
  | .error _ => []
  | .ok r => r.2

theorem walkFields_eq (fields : Fields) :
    G.walkFields fn s path fields =
      traverse (fun e => (G.walk fn (G.field s e.1) (fieldPath path e.1) e.2).map
        fun r => ((e.1, r.1), r.2)) fields := by
  induction fields
  case nil => rfl
  case cons e fs hi =>
    simp only [walkFields, traverse, hi]
    obtain _ | ⟨v, notes⟩ := G.walk fn (G.field s e.1) (fieldPath path e.1) e.2
    · rfl
    · obtain _ | ⟨fs, rest⟩ := traverse _ fs
      all_goals rfl

theorem walkItems_eq (i : Nat) (items : List Value) :
    G.walkItems fn s path i items =
      traverse (fun e => G.walk fn s (itemPath path e.2) e.1) (items.zipIdx i) := by
  induction items generalizing i
  case nil => rfl
  case cons v vs hi =>
    simp only [walkItems, List.zipIdx_cons, traverse, hi]
    obtain _ | ⟨v, notes⟩ := G.walk fn s (itemPath path i) v
    · rfl
    · obtain _ | ⟨vs, rest⟩ := traverse _ (vs.zipIdx (i + 1))
      all_goals rfl

theorem walk_eq (fn : String → Value → Except String (Value × List ω)) (s : σ) (path : String) (v : Value) :
    G.walk fn s path v =
      settle ((G.marks s path v).findSome? (errorAt fn)) (G.mapMarks (valueAt fn) s path v)
        ((G.marks s path v).flatMap (notesAt fn)) := by
  induction s, path, v using G.walk_induction
  case mark s path v h =>
    rw [walk_of_marked h, mapMarks_of_marked h, marks_of_marked h]
    cases hf : fn path v <;> simp [errorAt, valueAt, notesAt, hf, settle]
  case leaf s path v h hl =>
    rw [mapMarks_leaf hl h, marks_leaf hl h]
    cases v <;> simp_all [walk, Leaf, settle]
  case arr s path items h hi =>
    rw [mapMarks_arr h, marks_arr h, walk, if_neg h, walkItems_eq, traverse_settle hi,
      findSome?_flatMap, List.flatMap_assoc]
    cases items.zipIdx.findSome? _ <;> rfl
  case obj s path fields h hi =>
    have hi : ∀ e ∈ fields,
        (G.walk fn (G.field s e.1) (fieldPath path e.1) e.2).map (fun r => ((e.1, r.1), r.2)) =
        settle ((G.marks (G.field s e.1) (fieldPath path e.1) e.2).findSome? (errorAt fn))
          (e.1, G.mapMarks (valueAt fn) (G.field s e.1) (fieldPath path e.1) e.2)
          ((G.marks (G.field s e.1) (fieldPath path e.1) e.2).flatMap (notesAt fn)) := by
      intro e he
      rw [hi e he]
      cases (G.marks (G.field s e.1) (fieldPath path e.1) e.2).findSome? (errorAt fn) <;> rfl
    rw [mapMarks_obj h, marks_obj h, walk, if_neg h, walkFields_eq, traverse_settle hi,
      findSome?_flatMap, List.flatMap_assoc]
    cases fields.findSome? _ <;> rfl

end Outcome

section Laws

theorem marks_mapMarks (f : String → Value → Value) (s : σ) (path : String) (v : Value) :
    G.marks s path (G.mapMarks f s path v) =
      (G.marks s path v).map fun e => (e.1, f e.1 e.2) := by
  induction s, path, v using G.walk_induction
  case mark s path v h => simp [mapMarks_of_marked h, marks_of_marked h]
  case leaf s path v h hl => simp [mapMarks_leaf hl h, marks_leaf hl h]
  case arr s path items h hi =>
    simp only [mapMarks_arr h, marks_arr h, List.map_flatMap, zipIdx_map_zipIdx, List.flatMap_map]
    exact List.flatMap_congr hi
  case obj s path fields h hi =>
    simp only [mapMarks_obj h, marks_obj h, List.map_flatMap, mapVals, List.flatMap_map]
    exact List.flatMap_congr hi

theorem mapMarks_mapMarks (f g : String → Value → Value) (s : σ) (path : String) (v : Value) :
    G.mapMarks g s path (G.mapMarks f s path v) =
      G.mapMarks (fun p x => g p (f p x)) s path v := by
  induction s, path, v using G.walk_induction
  case mark s path v h => simp [mapMarks_of_marked h]
  case leaf s path v h hl => simp [mapMarks_leaf hl h]
  case arr s path items h hi =>
    simp only [mapMarks_arr h, zipIdx_map_zipIdx, List.map_map, Value.arr.injEq]
    exact List.map_congr_left hi
  case obj s path fields h hi =>
    simp only [mapMarks_obj h, mapVals, List.map_map, Value.obj.injEq]
    exact List.map_congr_left fun e he => Prod.ext rfl (hi e he)

theorem mapMarks_congr {v : Value} (h : ∀ e ∈ G.marks s path v, f e.1 e.2 = g e.1 e.2) :
    G.mapMarks f s path v = G.mapMarks g s path v := by
  induction s, path, v using G.walk_induction
  case mark s path v hm => simpa [mapMarks_of_marked hm, marks_of_marked hm] using h
  case leaf s path v hm hl => simp [mapMarks_leaf hl hm]
  case arr s path items hm hi =>
    rw [marks_arr hm] at h
    rw [mapMarks_arr hm, mapMarks_arr hm]
    refine congrArg _ (List.map_congr_left fun e he => hi e he fun m hm => ?_)
    exact h m (List.mem_flatMap.mpr ⟨e, he, hm⟩)
  case obj s path fields hm hi =>
    rw [marks_obj hm] at h
    rw [mapMarks_obj hm, mapMarks_obj hm]
    refine congrArg _ (List.map_congr_left fun e he => Prod.ext rfl (hi e he fun m hm => ?_))
    exact h m (List.mem_flatMap.mpr ⟨e, he, hm⟩)

theorem mapMarks_id {v : Value} (h : ∀ e ∈ G.marks s path v, f e.1 e.2 = e.2) : G.mapMarks f s path v = v := by
  induction s, path, v using G.walk_induction
  case mark s path v hm => simpa [mapMarks_of_marked hm, marks_of_marked hm] using h
  case leaf s path v hm hl => simp [mapMarks_leaf hl hm]
  case arr s path items hm hi =>
    rw [marks_arr hm] at h
    rw [mapMarks_arr hm]
    have hv : ∀ e ∈ items.zipIdx, G.mapMarks f (G.item s) (itemPath path e.2) e.1 = e.1 :=
      fun e he => hi e he fun m hm => h m (List.mem_flatMap.mpr ⟨e, he, hm⟩)
    rw [List.map_congr_left hv, List.zipIdx_map_fst]
  case obj s path fields hm hi =>
    rw [marks_obj hm] at h
    rw [mapMarks_obj hm]
    have hv : ∀ e ∈ fields,
        (e.1, G.mapMarks f (G.field s e.1) (fieldPath path e.1) e.2) = e := fun e he =>
      Prod.ext rfl (hi e he fun m hm => h m (List.mem_flatMap.mpr ⟨e, he, hm⟩))
    rw [mapVals, List.map_congr_left hv, List.map_id']

theorem marks_append (base : String) (s : σ) (path : String) (v : Value) :
    G.marks s (base ++ path) v = (G.marks s path v).map fun e => (base ++ e.1, e.2) := by
  have hf : ∀ path k, fieldPath (base ++ path) k = base ++ fieldPath path k := by
    simp [fieldPath, String.append_assoc]
  have hit : ∀ path i, itemPath (base ++ path) i = base ++ itemPath path i := by
    simp [itemPath, String.append_assoc]
  induction s, path, v using G.walk_induction
  case mark s path v h => simp [marks_of_marked h]
  case leaf s path v h hl => simp [marks_leaf hl h]
  case arr s path items h hi =>
    simp only [marks_arr h, hit, List.map_flatMap]
    exact List.flatMap_congr hi
  case obj s path fields h hi =>
    simp only [marks_obj h, hf, List.map_flatMap]
    exact List.flatMap_congr hi

theorem mem_subvalues_mapMarks (hw : Leaf w)
    (h : ∀ e ∈ G.marks s path v, w ∈ (f e.1 e.2).subvalues ↔ w ∈ e.2.subvalues) :
    w ∈ (G.mapMarks f s path v).subvalues ↔ w ∈ v.subvalues := by
  have harr : ∀ items, w ≠ .arr items := by
    rintro items rfl
    exact hw
  have hobj : ∀ fields, w ≠ .obj fields := by
    rintro fields rfl
    exact hw
  induction s, path, v using G.walk_induction
  case mark s path v hm => simpa [mapMarks_of_marked hm, marks_of_marked hm] using h
  case leaf s path v hm hl => rw [mapMarks_leaf hl hm]
  case arr s path items hm hi =>
    rw [marks_arr hm] at h
    simp only [mapMarks_arr hm, Value.subvalues, List.mem_cons, harr, false_or,
      Value.mem_subvaluesItems, List.mem_map, exists_exists_and_eq_and]
    have hi := fun e he => hi e he fun m hm => h m (List.mem_flatMap.mpr ⟨e, he, hm⟩)
    constructor
    · rintro ⟨e, he, hx⟩
      exact ⟨e.1, List.fst_mem_of_mem_zipIdx he, (hi e he).mp hx⟩
    · rintro ⟨v, hv, hx⟩
      obtain ⟨i, hi'⟩ := List.getElem?_of_mem hv
      have he := List.mk_mem_zipIdx_iff_getElem?.mpr hi'
      exact ⟨(v, i), he, (hi _ he).mpr hx⟩
  case obj s path fields hm hi =>
    rw [marks_obj hm] at h
    simp only [mapMarks_obj hm, Value.subvalues, List.mem_cons, hobj, false_or,
      Value.mem_subvaluesFields]
    have hi := fun e he => hi e he fun m hm => h m (List.mem_flatMap.mpr ⟨e, he, hm⟩)
    constructor
    · rintro ⟨k, v, hv, hx⟩
      obtain ⟨u, hu, rfl⟩ := mem_mapVals.mp hv
      exact ⟨k, u, hu, (hi (k, u) hu).mp hx⟩
    · rintro ⟨k, v, hv, hx⟩
      exact ⟨k, _, mem_mapVals.mpr ⟨v, hv, rfl⟩, (hi (k, v) hv).mpr hx⟩

section Stored

theorem mapMarks_stored {f' : String → Value → Value} (hf : ∀ p x, f p x.stored = (f' p x).stored)
    (s : σ) (path : String) (v : Value) : G.mapMarks f s path v.stored = (G.mapMarks f' s path v).stored := by
  induction s, path, v using G.walk_induction
  case mark s path v h => rw [mapMarks_of_marked h, mapMarks_of_marked h, hf]
  case leaf s path v h hl =>
    have hl' : Leaf v.stored := by cases v <;> simp_all [Leaf, Value.stored]
    rw [mapMarks_leaf hl' h, mapMarks_leaf hl h]
  case arr s path items h hi =>
    simp only [Value.stored, Value.storedItems_eq, mapMarks_arr h, List.zipIdx_map, List.map_map]
    exact congrArg _ (List.map_congr_left hi)
  case obj s path fields h hi =>
    simp only [Value.stored, Value.storedFields_eq, mapMarks_obj h, ← Assoc.sort_mapVals]
    simp only [mapVals, List.map_map]
    exact congrArg (fun l => Value.obj (sort l))
      (List.map_congr_left fun e he => Prod.ext rfl (hi e he))

theorem mem_marks_stored : e ∈ G.marks s path v.stored ↔ ∃ x, (e.1, x) ∈ G.marks s path v ∧ e.2 = x.stored := by
  induction s, path, v using G.walk_induction
  case mark s path v h =>
    rw [marks_of_marked h, marks_of_marked h, List.mem_singleton]
    constructor
    · rintro rfl
      exact ⟨v, List.mem_singleton.mpr rfl, rfl⟩
    · rintro ⟨x, hx, he⟩
      obtain ⟨hp, hv⟩ := Prod.mk.inj (List.mem_singleton.mp hx)
      exact Prod.ext hp (he.trans (hv ▸ rfl))
  case leaf s path v h hl =>
    have hl' : Leaf v.stored := by cases v <;> simp_all [Leaf, Value.stored]
    simp [marks_leaf hl' h, marks_leaf hl h]
  case arr s path items h hi =>
    simp only [Value.stored, Value.storedItems_eq, marks_arr h, List.zipIdx_map, List.flatMap_map,
      List.mem_flatMap]
    constructor
    · rintro ⟨d, hd, he⟩
      obtain ⟨x, hx, hv⟩ := (hi d hd).mp he
      exact ⟨x, ⟨d, hd, hx⟩, hv⟩
    · rintro ⟨x, ⟨d, hd, hx⟩, hv⟩
      exact ⟨d, hd, (hi d hd).mpr ⟨x, hx, hv⟩⟩
  case obj s path fields h hi =>
    simp only [Value.stored, Value.storedFields_eq, marks_obj h, List.mem_flatMap, Assoc.mem_sort]
    constructor
    · rintro ⟨⟨k, w⟩, hd, he⟩
      obtain ⟨v, hm, rfl⟩ := mem_mapVals.mp hd
      obtain ⟨x, hx, hv⟩ := (hi (k, v) hm).mp he
      exact ⟨x, ⟨(k, v), hm, hx⟩, hv⟩
    · rintro ⟨x, ⟨d, hd, hx⟩, hv⟩
      exact ⟨(d.1, d.2.stored), mem_mapVals.mpr ⟨d.2, hd, rfl⟩, (hi d hd).mpr ⟨x, hx, hv⟩⟩

end Stored

end Laws

end Guide
end Walk
