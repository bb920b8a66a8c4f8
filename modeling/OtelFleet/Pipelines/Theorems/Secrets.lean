import OtelFleet.Pipelines.Secrets

open Json (Value Fields)
open Assoc (keys mem_keys)
open Catalog (Kind Schema lookup all lookup_mem)
open Walk (settle Guide fieldPath)
open Walk.Guide (errorAt valueAt notesAt)
open Crypto (Cipher decrypt)

namespace Pipelines

section Walks

theorem marks_none (path : String) (v : Value) : secretGuide.marks none path v = [] := by
  suffices ∀ s, s = none → secretGuide.marks s path v = [] from this none rfl
  intro s
  induction s, path, v using secretGuide.walk_induction
  case mark s path v h =>
    rintro rfl
    cases h
  case leaf s path v h hl => exact fun _ => Guide.marks_leaf hl h
  case arr s path items h hi =>
    rintro rfl
    rw [Guide.marks_arr h, List.flatMap_eq_nil_iff]
    exact fun e he => hi e he rfl
  case obj s path fields h hi =>
    rintro rfl
    rw [Guide.marks_obj h, List.flatMap_eq_nil_iff]
    exact fun e he => hi e he rfl

end Walks

namespace Node

def schema (kind : Kind) (n : Node) : Option Schema :=
  (lookup kind n.type).map (·.schema)

def secrets (kind : Kind) (base : String) (n : Node) : List (String × Value) :=
  secretGuide.marks (n.schema kind) base n.value

def mapSecrets (f : String → Value → Value) (kind : Kind) (base : String) (n : Node) : Node :=
  { n with config := n.config.bind fun fields =>
      asMap (secretGuide.mapMarks f (n.schema kind) base (.obj fields)) }

variable {n : Node}

theorem schema_not_marked (n : Node) (kind : Kind) : ¬secretGuide.marked (n.schema kind) := by
  have hall : ∀ c ∈ all, c.schema.format ≠ some "password" := by decide
  cases hc : lookup kind n.type
  case none => simp [schema, hc, secretGuide]
  case some comp =>
    have ⟨hm, _⟩ := lookup_mem hc
    simpa [schema, hc, secretGuide] using hall comp hm

@[simp]
theorem schema_mapSecrets : (n.mapSecrets f kind base).schema kind = n.schema kind :=
  rfl

theorem asMap_mapMarks (n : Node) (f : String → Value → Value) (kind : Kind) (base : String) (fields : Fields) :
    ∃ fs, secretGuide.mapMarks f (n.schema kind) base (.obj fields) = .obj fs :=
  ⟨_, Guide.mapMarks_obj (n.schema_not_marked kind) fields⟩

theorem value_mapSecrets : (n.mapSecrets f kind base).value = secretGuide.mapMarks f (n.schema kind) base n.value := by
  cases hc : n.config
  case none =>
    simp [mapSecrets, value, hc, Guide.mapMarks_obj (n.schema_not_marked kind), Assoc.mapVals]
  case some fields =>
    obtain ⟨fs, he⟩ := n.asMap_mapMarks f kind base fields
    simp [mapSecrets, value, hc, he, asMap]

theorem secrets_mapSecrets :
    (n.mapSecrets f kind base).secrets kind base =
      (n.secrets kind base).map fun e => (e.1, f e.1 e.2) := by
  rw [secrets, value_mapSecrets, schema_mapSecrets, Guide.marks_mapMarks, secrets]

theorem mapSecrets_ext (h : secretGuide.mapMarks f (n.schema kind) base n.value =
    secretGuide.mapMarks g (n.schema kind) base n.value) : n.mapSecrets f kind base = n.mapSecrets g kind base := by
  cases hc : n.config
  case none => simp [mapSecrets, hc]
  case some fields =>
    simp only [value, hc, Option.getD_some] at h
    simp [mapSecrets, hc, h]

theorem mapSecrets_congr (h : ∀ e ∈ n.secrets kind base, f e.1 e.2 = g e.1 e.2) :
    n.mapSecrets f kind base = n.mapSecrets g kind base :=
  mapSecrets_ext (Guide.mapMarks_congr h)

theorem mapSecrets_id (h : ∀ e ∈ n.secrets kind base, f e.1 e.2 = e.2) : n.mapSecrets f kind base = n := by
  have hid := Guide.mapMarks_id h
  obtain ⟨type, name, _ | fields⟩ := n
  case none => rfl
  case some =>
    simp only [value, Option.getD_some] at hid
    simp [mapSecrets, hid, asMap]

theorem mapSecrets_mapSecrets :
    (n.mapSecrets f kind base).mapSecrets g kind base =
      n.mapSecrets (fun p x => g p (f p x)) kind base := by
  cases hc : n.config
  case none => simp [mapSecrets, hc]
  case some fields =>
    have ⟨fs, he⟩ := n.asMap_mapMarks f kind base fields
    have hcomp := Guide.mapMarks_mapMarks f g (n.schema kind) base (.obj fields) (G := secretGuide)
    rw [he] at hcomp
    have hs : schema kind { type := n.type, name := n.name, config := some fs } = n.schema kind := rfl
    simp [mapSecrets, hc, he, asMap, hs, hcomp]

theorem transformNode_eq (fn : String → Value → Except String (Value × List ω))
    (kind : Kind) (base : String) (n : Node) :
    transformNode fn kind base n =
      settle ((n.secrets kind base).findSome? (errorAt fn)) (n.mapSecrets (valueAt fn) kind base)
        ((n.secrets kind base).flatMap (notesAt fn)) := by
  cases hc : n.config
  case none =>
    have hs : n.secrets kind base = [] := by
      simp [secrets, value, hc, Guide.marks_obj (n.schema_not_marked kind)]
    have hm : n.mapSecrets (valueAt fn) kind base = n := mapSecrets_id (by simp [hs])
    simp [transformNode, hc, hs, hm, settle]
  case some fields =>
    cases hl : lookup kind n.type
    case none =>
      have hs : n.secrets kind base = [] := by simp [secrets, schema, hl, marks_none]
      have hm : n.mapSecrets (valueAt fn) kind base = n := mapSecrets_id (by simp [hs])
      simp [transformNode, hl, hs, hm, settle]
    case some comp =>
      have hv : n.value = .obj fields := by simp [value, hc]
      have hsch : n.schema kind = some comp.schema := by simp [schema, hl]
      simp only [transformNode, hl, hc, transformSecrets, Guide.walk_eq, secrets, hv, hsch,
        mapSecrets, Option.bind_some]
      cases (secretGuide.marks (some comp.schema) base (.obj fields)).findSome? (errorAt fn) <;> rfl

end Node

def nodeSecrets (field : String) (kind : Kind) (nodes : List Node) : List (String × Value) :=
  nodes.zipIdx.flatMap fun e => e.1.secrets kind (configPath field e.2)

def mapNodeSecrets (f : String → Value → Value) (field : String) (kind : Kind)
    (nodes : List Node) : List Node :=
  nodes.zipIdx.map fun e => e.1.mapSecrets f kind (configPath field e.2)

namespace Graph

def secrets (g : Graph) : List (String × Value) :=
  nodeSecrets "processors" .processor g.processors ++ nodeSecrets "exporters" .exporter g.exporters

def mapSecrets (f : String → Value → Value) (g : Graph) : Graph :=
  { g with
    processors := mapNodeSecrets f "processors" .processor g.processors
    exporters := mapNodeSecrets f "exporters" .exporter g.exporters }

end Graph

section Nodes

theorem transformNodes_eq (fn : String → Value → Except String (Value × List ω)) (field : String)
    (kind : Kind) (nodes : List Node) :
    transformNodes fn field kind nodes =
      settle ((nodeSecrets field kind nodes).findSome? (errorAt fn))
        (mapNodeSecrets (valueAt fn) field kind nodes)
        ((nodeSecrets field kind nodes).flatMap (notesAt fn)) := by
  rw [transformNodes, Walk.traverse_settle fun e _ => Node.transformNode_eq fn kind _ e.1, nodeSecrets,
    Walk.findSome?_flatMap, List.flatMap_assoc, mapNodeSecrets]

theorem nodeSecrets_mapNodeSecrets :
    nodeSecrets field kind (mapNodeSecrets f field kind nodes) =
      (nodeSecrets field kind nodes).map fun e => (e.1, f e.1 e.2) := by
  simp only [nodeSecrets, mapNodeSecrets, Walk.zipIdx_map_zipIdx, List.flatMap_map, List.map_flatMap,
    Node.secrets_mapSecrets]

theorem mapNodeSecrets_mapNodeSecrets :
    mapNodeSecrets g field kind (mapNodeSecrets f field kind nodes) =
      mapNodeSecrets (fun p x => g p (f p x)) field kind nodes := by
  simp only [mapNodeSecrets, Walk.zipIdx_map_zipIdx, List.map_map]
  exact List.map_congr_left fun e _ => Node.mapSecrets_mapSecrets

theorem mapNodeSecrets_congr (h : ∀ e ∈ nodeSecrets field kind nodes, f e.1 e.2 = g e.1 e.2) :
    mapNodeSecrets f field kind nodes = mapNodeSecrets g field kind nodes :=
  List.map_congr_left fun e he => Node.mapSecrets_congr fun m hm =>
    h m (List.mem_flatMap.mpr ⟨e, he, hm⟩)

theorem mapNodeSecrets_id (h : ∀ e ∈ nodeSecrets field kind nodes, f e.1 e.2 = e.2) :
    mapNodeSecrets f field kind nodes = nodes := by
  have hn : ∀ e ∈ nodes.zipIdx, e.1.mapSecrets f kind (configPath field e.2) = e.1 :=
    fun e he => Node.mapSecrets_id fun m hm => h m (List.mem_flatMap.mpr ⟨e, he, hm⟩)
  rw [mapNodeSecrets, List.map_congr_left hn, List.zipIdx_map_fst]

end Nodes

namespace Graph

variable {g : Graph}

theorem transformGraphSecrets_eq (fn : String → Value → Except String (Value × List ω)) (g : Graph) :
    transformGraphSecrets fn g =
      settle (g.secrets.findSome? (errorAt fn)) (g.mapSecrets (valueAt fn))
        (g.secrets.flatMap (notesAt fn)) := by
  simp only [transformGraphSecrets, transformNodes_eq, secrets, List.findSome?_append,
    List.flatMap_append, mapSecrets]
  cases (nodeSecrets "processors" .processor g.processors).findSome? (errorAt fn)
  case some => rfl
  case none =>
    cases (nodeSecrets "exporters" .exporter g.exporters).findSome? (errorAt fn) <;> rfl

theorem secrets_mapSecrets : (g.mapSecrets f).secrets = g.secrets.map fun e => (e.1, f e.1 e.2) := by
  simp only [secrets, mapSecrets, nodeSecrets_mapNodeSecrets, List.map_append]

theorem mapSecrets_mapSecrets : (g.mapSecrets f).mapSecrets f' = g.mapSecrets fun p x => f' p (f p x) := by
  simp only [mapSecrets, mapNodeSecrets_mapNodeSecrets]

theorem mapSecrets_congr (h : ∀ e ∈ g.secrets, f e.1 e.2 = f' e.1 e.2) : g.mapSecrets f = g.mapSecrets f' := by
  have hp := mapNodeSecrets_congr fun e he => h e (List.mem_append_left _ he)
  have he := mapNodeSecrets_congr fun e he => h e (List.mem_append_right _ he)
  simp only [mapSecrets, hp, he]

theorem mapSecrets_id (h : ∀ e ∈ g.secrets, f e.1 e.2 = e.2) : g.mapSecrets f = g := by
  have hp := mapNodeSecrets_id fun e he => h e (List.mem_append_left _ he)
  have he := mapNodeSecrets_id fun e he => h e (List.mem_append_right _ he)
  simp only [mapSecrets, hp, he]

end Graph

section Operations

variable {c : Cipher}

def redacted : Value → Value
  | .null => .null
  | _ => .str RedactedSentinel

theorem redactGraphSecrets_eq (g : Graph) : redactGraphSecrets g = g.mapSecrets fun _ v => redacted v := by
  have herr : g.secrets.findSome? (errorAt redactField) = none := by
    simp only [List.findSome?_eq_none_iff]
    rintro ⟨p, v⟩ _
    cases v <;> rfl
  have hval : valueAt redactField = fun _ v => redacted v := by
    funext p v
    cases v <;> rfl
  rw [redactGraphSecrets, Graph.transformGraphSecrets_eq, herr, hval]
  rfl

def revealed (c : Cipher) (v : Value) : Value :=
  match encValue v with
  | none => v
  | some ct =>
    match decrypt c ct with
    | .ok plaintext => .str plaintext
    | .error _ => v

def Readable (c : Cipher) (v : Value) : Prop :=
  ∀ ct, encValue v = some ct → ∃ plaintext, decrypt c ct = .ok plaintext

theorem valueAt_decryptField (p : String) (v : Value) : valueAt (decryptField c) p v = revealed c v := by
  cases he : encValue v
  case none => simp [revealed, valueAt, decryptField, he]
  case some ct => cases hd : decrypt c ct <;> simp [revealed, valueAt, decryptField, he, hd]

theorem revealed_of_decrypt (he : encValue v = some ct) (hd : decrypt c ct = .ok plaintext) :
    revealed c v = .str plaintext := by
  simp [revealed, he, hd]

theorem revealed_of_encValue_eq_none (he : encValue v = none) : revealed c v = v := by
  simp [revealed, he]

theorem errorAt_decryptField_eq_none : errorAt (decryptField c) e = none ↔ Readable c e.2 := by
  unfold errorAt decryptField Readable
  cases he : encValue e.2
  case none => simp
  case some ct => cases hd : decrypt c ct <;> simp [hd]

theorem decryptGraphSecrets_eq_ok :
    decryptGraphSecrets g c = .ok out ↔
      (∀ e ∈ g.secrets, Readable c e.2) ∧ out = g.mapSecrets fun _ v => revealed c v := by
  have hval : valueAt (decryptField c) = fun _ v => revealed c v :=
    funext fun p => funext fun v => valueAt_decryptField p v
  have herr : g.secrets.findSome? (errorAt (decryptField c)) = none ↔
      ∀ e ∈ g.secrets, Readable c e.2 := by
    simp only [List.findSome?_eq_none_iff, errorAt_decryptField_eq_none]
  rw [decryptGraphSecrets, Graph.transformGraphSecrets_eq, hval, ← herr]
  cases g.secrets.findSome? (errorAt (decryptField c)) <;> simp [settle, eq_comm]

theorem prevSecrets_some (prev : Graph) : prevSecrets (some prev) = .ok prev.secrets.reverse := by
  have herr : prev.secrets.findSome? (errorAt fun path v => .ok (v, [(path, v)])) = none :=
    List.findSome?_eq_none_iff.mpr fun _ _ => rfl
  have hnotes : prev.secrets.flatMap (notesAt fun path v => .ok (v, [(path, v)])) = prev.secrets :=
    List.flatMap_singleton' prev.secrets
  simp only [prevSecrets, Graph.transformGraphSecrets_eq, herr, hnotes, settle]

def secretsOf (prev : Option Graph) : List (String × Value) :=
  prev.elim [] Graph.secrets

theorem prevSecrets_eq (prev : Option Graph) : prevSecrets prev = .ok (secretsOf prev).reverse := by
  cases prev
  case none => rfl
  case some g => exact prevSecrets_some g

theorem encryptGraphSecrets_eq_ok :
    encryptGraphSecrets g c rnd prev = .ok out ↔
      (∀ e ∈ g.secrets, ∃ v,
        encryptField c rnd (secretsOf prev).reverse e.1 e.2 = .ok (v, [])) ∧
      out = g.mapSecrets (valueAt (encryptField c rnd (secretsOf prev).reverse)) := by
  generalize hfn : encryptField c rnd (secretsOf prev).reverse = fn
  have hok : (g.secrets.findSome? (errorAt fn) = none ∧ g.secrets.flatMap (notesAt fn) = []) ↔
      ∀ e ∈ g.secrets, ∃ v, fn e.1 e.2 = .ok (v, []) := by
    simp only [List.findSome?_eq_none_iff, List.flatMap_eq_nil_iff, ← forall₂_and]
    refine forall₂_congr fun e _ => ?_
    cases he : fn e.1 e.2
    case error => simp [errorAt, he]
    case ok r =>
      obtain ⟨v, notes⟩ := r
      simp [errorAt, notesAt, he]
  rw [encryptGraphSecrets, prevSecrets_eq]
  simp only [hfn, Graph.transformGraphSecrets_eq, ← hok]
  cases g.secrets.findSome? (errorAt fn)
  case some => simp [settle]
  case none => by_cases hn : g.secrets.flatMap (notesAt fn) = [] <;> simp [settle, hn, eq_comm]

end Operations

section Paths

mutual

def secretFree : Schema → Bool
  | { format, properties, additionalProperties, items, .. } =>
    format != some "password" && secretFreeProperties properties &&
      secretFreeOption additionalProperties && secretFreeOption items

def secretFreeProperties : List (String × Schema) → Bool
  | [] => true
  | (_, s) :: ss => secretFree s && secretFreeProperties ss

def secretFreeOption : Option Schema → Bool
  | none => true
  | some s => secretFree s

end

theorem secretFree_iff (s : Schema) :
    secretFree s ↔ s.format ≠ some "password" ∧ secretFreeProperties s.properties ∧
      secretFreeOption s.additionalProperties ∧ secretFreeOption s.items := by
  cases s
  simp [secretFree, and_assoc]

theorem secretFree_of_mem (h : secretFreeProperties ss) (hm : (k, s) ∈ ss) : secretFree s := by
  induction ss
  case nil => cases hm
  case cons e ss hi =>
    simp only [secretFreeProperties, Bool.and_eq_true] at h
    obtain rfl | hm := List.mem_cons.mp hm
    · exact h.left
    · exact hi h.right hm

theorem marks_of_secretFree (h : secretFreeOption s) (path : String) (v : Value) : secretGuide.marks s path v = [] := by
  induction s, path, v using secretGuide.walk_induction
  case mark s path v hm =>
    cases s
    case none => cases hm
    case some s => exact absurd (by simpa [secretGuide] using hm) ((secretFree_iff s).mp h).left
  case leaf s path v hm hl => exact Guide.marks_leaf hl hm
  case arr s path items hm hi =>
    rw [Guide.marks_arr hm, List.flatMap_eq_nil_iff]
    refine fun e he => hi e he ?_
    cases s
    case none => rfl
    case some s => exact ((secretFree_iff s).mp h).right.right.right
  case obj s path fields hm hi =>
    rw [Guide.marks_obj hm, List.flatMap_eq_nil_iff]
    refine fun e he => hi e he ?_
    cases s
    case none => rfl
    case some s =>
      have ⟨_, hp, ha, _⟩ := (secretFree_iff s).mp h
      cases hl : s.properties.lookup e.1
      case none => simpa [secretGuide, hl] using ha
      case some t =>
        simpa [secretGuide, hl, secretFreeOption] using secretFree_of_mem hp (Assoc.mem_of_lookup hl)

def isHeaders (s : Schema) : Bool :=
  s.format != some "password" && s.properties.isEmpty && s.items.isNone &&
    s.additionalProperties.any (·.format == some "password")

theorem catalog_secrets : ∀ c ∈ all, c.schema.additionalProperties.isNone ∧
    ∀ e ∈ c.schema.properties, secretFree e.2 ∨
      e.1 = "password" ∧ e.2.format = some "password" ∨ e.1 = "headers" ∧ isHeaders e.2 := by
  decide

theorem marks_isHeaders (h : isHeaders s) (path : String) (v : Value) :
    secretGuide.marks (some s) path v =
      ((asMap v).getD []).map fun e => (fieldPath path e.1, e.2) := by
  simp only [isHeaders, Bool.and_eq_true, bne_iff_ne, List.isEmpty_iff, Option.isNone_iff_eq_none] at h
  have ⟨⟨⟨hf, hp⟩, hi⟩, ha⟩ := h
  have hm : ¬secretGuide.marked (some s) := by simpa [secretGuide] using hf
  cases v
  case obj fields =>
    rw [Guide.marks_obj hm]
    refine (List.flatMap_congr fun e _ => ?_).trans List.map_eq_flatMap.symm
    refine Guide.marks_of_marked ?_ e.2
    simpa [secretGuide, hp] using ha
  case arr items =>
    rw [Guide.marks_arr hm, show secretGuide.item (some s) = none from hi]
    simp [marks_none, asMap]
  all_goals exact Guide.marks_leaf trivial hm

theorem fieldPath_inj (h : fieldPath path k = fieldPath path k') : k = k' :=
  (String.append_right_inj _).mp h

theorem nodup_marks_field (hc : comp ∈ all) (base k : String) (hv : v.WF) :
    (keys (secretGuide.marks (secretGuide.field (some comp.schema) k)
      (fieldPath base k) v)).Nodup ∧
    ∀ path ∈ keys (secretGuide.marks (secretGuide.field (some comp.schema) k)
        (fieldPath base k) v),
      k = "password" ∧ path = base ++ ".password" ∨
      k = "headers" ∧ ∃ key, path = base ++ ".headers." ++ key := by
  obtain ⟨hadd, hprops⟩ := catalog_secrets comp hc
  have hadd : comp.schema.additionalProperties = none := by simpa using hadd
  cases hl : comp.schema.properties.lookup k
  case none =>
    have hf : secretGuide.field (some comp.schema) k = none := by simp [secretGuide, hl, hadd]
    simp [hf, marks_none]
  case some s =>
    have hf : secretGuide.field (some comp.schema) k = some s := by simp [secretGuide, hl]
    rw [hf]
    obtain h | ⟨rfl, h⟩ | ⟨rfl, h⟩ := hprops _ (Assoc.mem_of_lookup hl)
    · have := marks_of_secretFree (s := some s) h (fieldPath base k) v
      simp [this]
    · have hm : secretGuide.marked (some s) := by simpa [secretGuide] using h
      rw [Guide.marks_of_marked hm]
      simp [fieldPath, String.append_assoc]
    · rw [marks_isHeaders h]
      refine ⟨?_, ?_⟩
      · cases v
        case obj fields =>
          have hn := hv.keys
          simp only [asMap, Option.getD_some, keys, List.map_map]
          exact hn.of_map.map_on fun e he e' he' heq =>
            List.inj_on_of_nodup_map hn he he' (fieldPath_inj heq)
        all_goals simp [asMap]
      · intro path hp
        obtain ⟨_, hp⟩ := mem_keys.mp hp
        obtain ⟨e, _, he⟩ := List.mem_map.mp hp
        refine .inr ⟨rfl, e.1, (congrArg Prod.fst he).symm.trans ?_⟩
        simp [fieldPath, String.append_assoc]

theorem Node.nodup_secrets {n : Node} (h : n.value.WF) (kind : Kind) (base : String) :
    (keys (n.secrets kind base)).Nodup := by
  cases hc : lookup kind n.type
  case none => simp [secrets, schema, hc, marks_none]
  case some comp =>
    have hs : n.schema kind = some comp.schema := by simp [schema, hc]
    have hall := (lookup_mem hc).left
    have hm := n.schema_not_marked kind
    rw [hs] at hm
    have hn := h.keys
    rw [secrets, hs, value, Guide.marks_obj hm, Assoc.keys_flatMap]
    refine List.nodup_flatMap.mpr ⟨fun e he => ?_, ?_⟩
    · exact (nodup_marks_field hall base e.1 (h.field he)).left
    · refine List.Pairwise.imp_of_mem ?_ (List.pairwise_map.mp hn)
      intro e e' he he' hne path hp hp'
      have hp := (nodup_marks_field hall base e.1 (h.field he)).right path hp
      have hp' := (nodup_marks_field hall base e'.1 (h.field he')).right path hp'
      have hdiff : ∀ key, base ++ ".password" ≠ base ++ ".headers." ++ key := by
        intro key hc
        rw [String.append_assoc, String.append_right_inj] at hc
        simpa using congrArg String.toList hc
      obtain ⟨h₁, hp⟩ | ⟨h₁, key, hp⟩ := hp <;> obtain ⟨h₂, hp'⟩ | ⟨h₂, key', hp'⟩ := hp'
      · exact hne (h₁.trans h₂.symm)
      · exact hdiff key' (hp.symm.trans hp')
      · exact hdiff key (hp'.symm.trans hp)
      · exact hne (h₁.trans h₂.symm)

theorem Node.secrets_base (n : Node) (kind : Kind) (base : String) :
    n.secrets kind base = (n.secrets kind "").map fun e => (base ++ e.1, e.2) := by
  have h := Guide.marks_append (G := secretGuide) base (n.schema kind) "" n.value
  rwa [String.append_empty] at h

theorem configPath_inj (h : configPath field i ++ r = configPath field j ++ r') : i = j := by
  have hd : ∀ n, ']' ∉ (Strconv.itoa n).toList :=
    fun n hm => absurd (Strconv.isDigit_of_mem_itoa hm) (by decide)
  have hs : ∀ i r, configPath field i ++ r = (field ++ "[") ++
      (Strconv.itoa i ++ String.singleton ']' ++ (".config" ++ r)) := by
    intro i r
    simp [configPath, indexed, ← String.toList_inj]
  rw [hs, hs, String.append_right_inj] at h
  exact Strconv.itoa_injective (Strconv.append_sep_inj (hd i) (hd j) h).left

theorem mem_nodeSecrets :
    (path, v) ∈ nodeSecrets field kind nodes ↔
      ∃ n i q, (n, i) ∈ nodes.zipIdx ∧ (q, v) ∈ n.secrets kind "" ∧ path = configPath field i ++ q := by
  simp only [nodeSecrets, List.mem_flatMap, Prod.exists]
  refine exists_congr fun n => exists_congr fun i => ?_
  rw [Node.secrets_base]
  simp only [List.mem_map, Prod.exists, Prod.mk.injEq]
  constructor
  · rintro ⟨hn, q, w, hm, rfl, rfl⟩
    exact ⟨q, hn, hm, rfl⟩
  · rintro ⟨q, hn, hm, rfl⟩
    exact ⟨hn, q, v, hm, rfl, rfl⟩

theorem nodup_nodeSecrets {nodes : List Node} (h : ∀ n ∈ nodes, n.value.WF) (field : String)
    (kind : Kind) : (keys (nodeSecrets field kind nodes)).Nodup := by
  rw [nodeSecrets, Assoc.keys_flatMap]
  refine List.nodup_flatMap.mpr ⟨fun e he => ?_, ?_⟩
  · exact Node.nodup_secrets (h e.1 (List.fst_mem_of_mem_zipIdx he)) kind _
  · have hidx : (nodes.zipIdx.map Prod.snd).Nodup := by
      rw [List.zipIdx_map_snd]
      exact List.nodup_range'
    refine List.Pairwise.imp_of_mem ?_ (List.pairwise_map.mp hidx)
    intro e e' _ _ hne path hp hp'
    have ⟨_, hp⟩ := mem_keys.mp hp
    have ⟨_, hp'⟩ := mem_keys.mp hp'
    rw [Node.secrets_base] at hp hp'
    have ⟨q, _, hq⟩ := List.mem_map.mp hp
    have ⟨q', _, hq'⟩ := List.mem_map.mp hp'
    have hq : configPath field e.2 ++ q.1 = path := congrArg Prod.fst hq
    have hq' : configPath field e'.2 ++ q'.1 = path := congrArg Prod.fst hq'
    exact hne (configPath_inj (hq.trans hq'.symm))

theorem Graph.WF.nodup_secrets {g : Graph} (h : g.WF) : (keys g.secrets).Nodup := by
  rw [Graph.secrets, Assoc.keys_append]
  refine List.nodup_append'.mpr ⟨nodup_nodeSecrets h.processors _ _, nodup_nodeSecrets h.exporters _ _, ?_⟩
  intro path hp hp'
  have ⟨_, hp⟩ := mem_keys.mp hp
  have ⟨_, hp'⟩ := mem_keys.mp hp'
  have ⟨_, i, q, _, _, he⟩ := mem_nodeSecrets.mp hp
  have ⟨_, i', q', _, _, he'⟩ := mem_nodeSecrets.mp hp'
  have hc := congrArg String.toList (he.symm.trans he')
  simp [configPath, indexed] at hc

end Paths

end Pipelines
