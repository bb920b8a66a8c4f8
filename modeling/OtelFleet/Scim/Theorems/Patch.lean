import OtelFleet.Scim.Server

open Store (UUID Accounts UserError UserWithIdentities)
open Json (Value Fields)
open Strings (Casing)

-- What lists of patch operations come to.
namespace Scim

namespace Patch

def override (p q : Patch) : Patch where
  active := q.active <|> p.active
  display := q.display <|> p.display

@[simp]
theorem override_empty (p : Patch) : p.override {} = p := by
  simp [override]

theorem override_assoc (p q r : Patch) : (p.override q).override r = p.override (q.override r) := by
  ext1 <;> simp [override, Option.or_assoc]

theorem apply_eq [Casing] (p : Patch) (op : PatchOp) : p.apply op = p.override (apply {} op) := by
  simp only [apply]
  split_ifs
  · cases parseBool op.value <;> simp [override]
  · cases unmarshalString op.value <;> simp [override]
  · cases unmarshalUser op.value <;> simp [override]
  all_goals simp

end Patch

section Lists

variable [Casing]

theorem foldl_apply (p : Patch) (ops : List PatchOp) : ops.foldl Patch.apply p = p.override (patchOf ops) := by
  induction ops generalizing p
  case nil => simp [patchOf]
  case cons op ops hi =>
    rw [patchOf, List.foldl_cons, List.foldl_cons, hi, hi (Patch.apply {} op), p.apply_eq, p.override_assoc]

theorem patchOf_append (ops ops' : List PatchOp) : patchOf (ops ++ ops') = (patchOf ops).override (patchOf ops') := by
  rw [patchOf, List.foldl_append, foldl_apply]
  rfl

theorem patchOf_cons (op : PatchOp) (ops : List PatchOp) : patchOf (op :: ops) = (patchOf [op]).override (patchOf ops) :=
  patchOf_append [op] ops

theorem patchOf_last (ops : List PatchOp) :
    (patchOf ops).active = (ops.filterMap fun op => (patchOf [op]).active).getLast? ∧
    (patchOf ops).display = (ops.filterMap fun op => (patchOf [op]).display).getLast? := by
  induction ops
  case nil => exact ⟨rfl, rfl⟩
  case cons op ops hi =>
    rw [patchOf_cons, List.filterMap_cons, List.filterMap_cons]
    simp only [Patch.override]
    rw [hi.left, hi.right]
    constructor
    · cases (patchOf [op]).active <;> simp [List.getLast?_cons, Option.or_some]
    · cases (patchOf [op]).display <;> simp [List.getLast?_cons, Option.or_some]

-- Lists of operations that no request tells apart.
def Same (ops ops' : List PatchOp) : Prop :=
  ∀ now id before after b,
    patchUser now id (some (before ++ ops ++ after)) b = patchUser now id (some (before ++ ops' ++ after)) b

def probeUser (enabled : Bool) : Store.User where
  id := 2
  email := "bob@example.com"
  role := .viewer
  disabledAt := if enabled then none else some 0

def probe (enabled : Bool) : Faults.Backend Accounts UserError where
  state := {
    customers := []
    users := [{ id := 1, email := "ada@example.com", role := .admin }, probeUser enabled] }

theorem patchUser_probe (enabled : Bool) (ops : List PatchOp) :
    ((patchUser 0 (some 2) (some ops) (probe enabled)).2.state.user? 2).map
        (fun u => (u.displayName, u.disabledAt.isNone)) =
      some ((patchOf ops).display, (patchOf ops).active.getD enabled) := by
  have hload : patchUser 0 (some 2) (some ops) (probe enabled) =
      applyPatch 0 ((probe enabled).state.withIdentities (probeUser enabled)) (patchOf ops)
        ((probe enabled).after (probe enabled).state) := rfl
  rw [hload]
  obtain ⟨active, display⟩ := patchOf ops
  cases display <;> rcases active with - | - | - <;> cases enabled <;> rfl

theorem same_iff : Same ops ops' ↔ patchOf ops = patchOf ops' := by
  constructor
  case mp =>
    intro h
    have hprobe (enabled : Bool) :
        ((patchOf ops).display, (patchOf ops).active.getD enabled) =
          ((patchOf ops').display, (patchOf ops').active.getD enabled) := by
      have hsame := h 0 (some 2) [] [] (probe enabled)
      rw [List.nil_append, List.append_nil, List.nil_append, List.append_nil] at hsame
      have hread := patchUser_probe enabled ops
      rw [hsame, patchUser_probe] at hread
      exact (Option.some.inj hread).symm
    have htrue := hprobe true
    have hfalse := hprobe false
    simp only [Prod.mk.injEq] at htrue hfalse
    refine Patch.ext ?_ htrue.left
    -- What was not set shows in a user who is enabled, or else in one who is not.
    generalize (patchOf ops).active = x at htrue hfalse ⊢
    generalize (patchOf ops').active = y at htrue hfalse ⊢
    rcases x with - | - | - <;> rcases y with - | - | - <;> simp_all
  case mpr =>
    intro h now id before after b
    have heq : patchOf (before ++ ops ++ after) = patchOf (before ++ ops' ++ after) := by
      rw [patchOf_append, patchOf_append before, h, ← patchOf_append before, ← patchOf_append]
    simp only [patchUser, heq]

end Lists

section Values

def boolOf : Value → Option Bool
  | .bool b => some b
  | _ => none

def textOf : Value → Option String
  | .str s => some s
  | _ => none

theorem boolOf_eq_some (h : boolOf v = some b) : v = .bool b := by
  cases v <;> simp_all [boolOf]

theorem textOf_eq_some (h : textOf v = some s) : v = .str s := by
  cases v <;> simp_all [textOf]

theorem boolOf_eq_none (h : parseBool (some v) = none) : boolOf v = none ∧ unmarshalPointer unmarshalBool v = none := by
  cases v <;> simp_all [boolOf, parseBool, unmarshalBool, unmarshalPointer]

theorem textOf_eq_none (h : unmarshalString (some v) = none) :
    textOf v = none ∧ unmarshalPointer unmarshalString v = none := by
  cases v <;> simp_all [textOf, unmarshalString, unmarshalPointer]

theorem unmarshalPointer_bool (v : Value) : (unmarshalPointer unmarshalBool v).getD none = boolOf v := by
  cases v <;> rfl

theorem unmarshalPointer_text (v : Value) : (unmarshalPointer unmarshalString v).getD none = textOf v := by
  cases v <;> rfl

end Values

section Addresses

def atPath (op path : String) (v : Value) : PatchOp where
  op := op
  path := path
  value := some v

def pathless (op : String) (fields : Fields) : PatchOp where
  op := op
  value := some (.obj fields)

variable [Casing] {op path : String}

theorem patchOf_active (hop : isWrite op) (hpath : pathOf path = "active") (v : Value) :
    patchOf [atPath op path v] = { active := parseBool (some v) } := by
  simp only [patchOf, List.foldl_cons, List.foldl_nil, Patch.apply, atPath, hop, hpath]
  cases parseBool (some v) <;> rfl

theorem patchOf_display (hop : isWrite op) (hpath : pathOf path = "displayname") (v : Value) :
    patchOf [atPath op path v] = { display := unmarshalString (some v) } := by
  have hne : "displayname" ≠ "active" := by decide
  simp only [patchOf, List.foldl_cons, List.foldl_nil, Patch.apply, atPath, hop, hpath, hne]
  cases unmarshalString (some v) <;> rfl

theorem pathOf_empty : pathOf "" = "" :=
  rfl

theorem patchOf_pathless (hop : isWrite op) (fields : Fields) :
    patchOf [pathless op fields] = (fields.foldlM Patch.takeField {}).getD {} := by
  have hactive : "" ≠ "active" := by decide
  have hdisplay : "" ≠ "displayname" := by decide
  simp only [patchOf, List.foldl_cons, List.foldl_nil, Patch.apply, pathless, hop, pathOf_empty, hactive, hdisplay,
    unmarshalUser]
  cases fields.foldlM Patch.takeField {} <;> simp

theorem displayName_ne_active : ¬Strings.equalFold "displayName" "active" := by
  intro h
  have hlen := congrArg String.length (of_decide_eq_true h)
  rw [Strings.length_toLower, Strings.length_toLower] at hlen
  revert hlen
  decide

theorem takeField_active (p : Patch) (v : Value) :
    p.takeField ("active", v) = (unmarshalPointer unmarshalBool v).map fun b => { p with active := b } := by
  rw [Patch.takeField, if_pos (Strings.equalFold_self _)]

theorem takeField_display (p : Patch) (v : Value) :
    p.takeField ("displayName", v) = (unmarshalPointer unmarshalString v).map fun s => { p with display := s } := by
  rw [Patch.takeField, if_neg displayName_ne_active, if_pos (Strings.equalFold_self _)]

theorem patchOf_pathless_active (hop : isWrite op) (v : Value) :
    patchOf [pathless op [("active", v)]] = { active := boolOf v } := by
  rw [patchOf_pathless hop, ← unmarshalPointer_bool]
  simp only [List.foldlM_cons, List.foldlM_nil, takeField_active]
  cases unmarshalPointer unmarshalBool v <;> rfl

theorem patchOf_pathless_display (hop : isWrite op) (v : Value) :
    patchOf [pathless op [("displayName", v)]] = { display := textOf v } := by
  rw [patchOf_pathless hop, ← unmarshalPointer_text]
  simp only [List.foldlM_cons, List.foldlM_nil, takeField_display]
  cases unmarshalPointer unmarshalString v <;> rfl

theorem patchOf_pathless_both (hop : isWrite op) (va vd : Value) :
    patchOf [pathless op [("active", va), ("displayName", vd)]] =
      match unmarshalPointer unmarshalBool va, unmarshalPointer unmarshalString vd with
      | some b, some s => { active := b, display := s }
      | _, _ => {} := by
  rw [patchOf_pathless hop]
  simp only [List.foldlM_cons, List.foldlM_nil, takeField_active, takeField_display]
  cases unmarshalPointer unmarshalBool va <;> cases unmarshalPointer unmarshalString vd <;> rfl

-- Both ways to address an attribute mean the same, the last operation wins, and a value that is null
-- or of another type is as good as missing.
structure Uniform (va vd : Value) : Prop where
  active : ∀ op path, isWrite op → pathOf path = "active" →
    Same [atPath op path va] [pathless op [("active", va)]]
  display : ∀ op path, isWrite op → pathOf path = "displayname" →
    Same [atPath op path vd] [pathless op [("displayName", vd)]]
  last : ∀ ops, (patchOf ops).active = (ops.filterMap fun op => (patchOf [op]).active).getLast? ∧
    (patchOf ops).display = (ops.filterMap fun op => (patchOf [op]).display).getLast?
  noBool : (∀ b, va ≠ .bool b) → ∀ op path, isWrite op → pathOf path = "active" →
    Same [atPath op path va] [] ∧
    Same [pathless op [("active", va), ("displayName", vd)]] [pathless op [("displayName", vd)]]
  noText : (∀ s, vd ≠ .str s) → ∀ op path, isWrite op → pathOf path = "displayname" →
    Same [atPath op path vd] [] ∧
    Same [pathless op [("active", va), ("displayName", vd)]] [pathless op [("active", va)]]

-- Both values are of their types, or neither is taken for one: no null, and no text for a boolean.
def Plain (va vd : Value) : Prop :=
  (∃ b s, va = .bool b ∧ vd = .str s) ∨ parseBool (some va) = none ∧ unmarshalString (some vd) = none

theorem Plain.uniform (h : Plain va vd) : Uniform va vd := by
  obtain ⟨b, s, rfl, rfl⟩ | ⟨hva, hvd⟩ := h
  case inl =>
    refine ⟨fun op path hop hpath => ?_, fun op path hop hpath => ?_, patchOf_last, fun hno => ?_, fun hno => ?_⟩
    · rw [same_iff, patchOf_active hop hpath, patchOf_pathless_active hop]
      rfl
    · rw [same_iff, patchOf_display hop hpath, patchOf_pathless_display hop]
      rfl
    · exact absurd rfl (hno b)
    · exact absurd rfl (hno s)
  case inr =>
    have ⟨hbool, hactive⟩ := boolOf_eq_none hva
    have ⟨htext, hdisplay⟩ := textOf_eq_none hvd
    refine ⟨fun op path hop hpath => ?_, fun op path hop hpath => ?_, patchOf_last,
      fun _ op path hop hpath => ⟨?_, ?_⟩, fun _ op path hop hpath => ⟨?_, ?_⟩⟩
    · rw [same_iff, patchOf_active hop hpath, patchOf_pathless_active hop, hva, hbool]
    · rw [same_iff, patchOf_display hop hpath, patchOf_pathless_display hop, hvd, htext]
    · rw [same_iff, patchOf_active hop hpath, hva]
      rfl
    · rw [same_iff, patchOf_pathless_both hop, patchOf_pathless_display hop, hactive, htext]
    · rw [same_iff, patchOf_display hop hpath, hvd]
      rfl
    · rw [same_iff, patchOf_pathless_both hop, patchOf_pathless_active hop, hactive, hbool]

end Addresses

section Standard

variable [casing : Casing]

theorem pathOf_active (h : casing.Standard) : pathOf "active" = "active" := by
  have htrim : Strings.trimPrefix "active" "urn:ietf:params:scim:schemas:core:2.0:User:" = "active" := by decide
  rw [pathOf, htrim, Strings.toLower_of_standard h (by simp)]
  decide

theorem pathOf_displayName (h : casing.Standard) : pathOf "displayName" = "displayname" := by
  have htrim : Strings.trimPrefix "displayName" "urn:ietf:params:scim:schemas:core:2.0:User:" = "displayName" := by decide
  rw [pathOf, htrim, Strings.toLower_of_standard h (by simp)]
  decide

theorem isWrite_replace : isWrite "replace" :=
  Bool.or_eq_true_iff.mpr (.inl (Strings.equalFold_self _))

theorem Uniform.plain (h : casing.Standard) (hu : Uniform va vd) : Plain va vd := by
  have hactive : parseBool (some va) = boolOf va := by
    have hsame := same_iff.mp (hu.active "replace" "active" isWrite_replace (pathOf_active h))
    rw [patchOf_active isWrite_replace (pathOf_active h), patchOf_pathless_active isWrite_replace] at hsame
    exact congrArg Patch.active hsame
  have hdisplay : unmarshalString (some vd) = textOf vd := by
    have hsame := same_iff.mp (hu.display "replace" "displayName" isWrite_replace (pathOf_displayName h))
    rw [patchOf_display isWrite_replace (pathOf_displayName h), patchOf_pathless_display isWrite_replace] at hsame
    exact congrArg Patch.display hsame
  cases hb : boolOf va <;> cases hs : textOf vd
  case none.none => exact .inr ⟨hactive.trans hb, hdisplay.trans hs⟩
  case some.some b s => exact .inl ⟨b, s, boolOf_eq_some hb, textOf_eq_some hs⟩
  case none.some s =>
    -- The value that is no boolean has taken the name with it.
    have hno := (hu.noBool (fun b hva => by simp [hva, boolOf] at hb) "replace" "active" isWrite_replace
      (pathOf_active h)).right
    rw [same_iff, patchOf_pathless_both isWrite_replace, patchOf_pathless_display isWrite_replace,
      (boolOf_eq_none (hactive.trans hb)).right, hs] at hno
    simp at hno
  case some.none b =>
    have hno := (hu.noText (fun s hvd => by simp [hvd, textOf] at hs) "replace" "displayName" isWrite_replace
      (pathOf_displayName h)).right
    rw [same_iff, patchOf_pathless_both isWrite_replace, patchOf_pathless_active isWrite_replace,
      (textOf_eq_none (hdisplay.trans hs)).right, hb] at hno
    cases hp : unmarshalPointer unmarshalBool va <;> simp [hp] at hno

theorem patch_uniform_iff (h : casing.Standard) (va vd : Value) : Uniform va vd ↔ Plain va vd :=
  ⟨(·.plain h), (·.uniform)⟩

end Standard

section Samples

theorem values_of_their_types :
    letI := Casing.ascii
    Uniform (.bool false) (.str "Bob") := by
  let := Casing.ascii
  exact (patch_uniform_iff Casing.ascii_standard (.bool false) (.str "Bob")).mpr (.inl ⟨false, "Bob", rfl, rfl⟩)

-- A null disables the user if it is addressed by the path, and does nothing as a part of an object.
theorem null_disables :
    letI := Casing.ascii
    ((patchUser 0 (some 2) (some [atPath "replace" "active" .null]) (probe true)).2.state.user? 2).map
        (·.disabledAt.isSome) = some true ∧
      ((patchUser 0 (some 2) (some [pathless "replace" [("active", .null)]]) (probe true)).2.state.user? 2).map
        (·.disabledAt.isSome) = some false ∧
      ¬Uniform .null (.str "Bob") := by
  let := Casing.ascii
  refine ⟨by decide +kernel, by decide +kernel, fun h => ?_⟩
  have hsame := same_iff.mp (h.active "replace" "active" isWrite_replace (pathOf_active Casing.ascii_standard))
  rw [patchOf_active isWrite_replace (pathOf_active Casing.ascii_standard),
    patchOf_pathless_active isWrite_replace] at hsame
  revert hsame
  decide

end Samples

end Scim
