import OtelFleet.Pipelines.Theorems.Prepare

-- What the trip through the database does to a graph and to the config rendered from it.
namespace Pipelines

open Json (Value Fields Float64 Number)
open Assoc (sort mapVals sort_mapVals)
open Crypto (Cipher)

section Secrets

theorem Node.ext_value {n m : Node} (ht : n.type = m.type) (hn : n.name = m.name)
    (hc : n.config.isSome = m.config.isSome) (hv : n.value = m.value) : n = m := by
  obtain ⟨type, name, config⟩ := n
  obtain ⟨type', name', config'⟩ := m
  cases config <;> cases config' <;> simp_all [Node.value]

theorem Node.isSome_mapSecrets (n : Node) : (n.mapSecrets f kind base).config.isSome = n.config.isSome := by
  cases hc : n.config
  case none => simp [Node.mapSecrets, hc]
  case some fields =>
    obtain ⟨fs, he⟩ := n.asMap_mapMarks f kind base fields
    simp [Node.mapSecrets, hc, he, asMap]

theorem Node.mapSecrets_stored (hf : ∀ p x, f p x.stored = (f' p x).stored) (kind : Catalog.Kind)
    (base : String) (n : Node) : n.stored.mapSecrets f kind base = (n.mapSecrets f' kind base).stored := by
  refine Node.ext_value rfl rfl ?_ ?_
  · have hs : ∀ m : Node, m.stored.config.isSome = m.config.isSome := fun m => Option.isSome_map
    rw [isSome_mapSecrets, hs, hs, isSome_mapSecrets]
  · rw [value_mapSecrets, stored_value, stored_value, value_mapSecrets]
    exact Walk.Guide.mapMarks_stored hf (n.schema kind) base n.value

theorem Graph.mapSecrets_stored (hf : ∀ p x, f p x.stored = (f' p x).stored) (g : Graph) :
    g.stored.mapSecrets f = (g.mapSecrets f').stored := by
  have hn : ∀ field kind (nodes : List Node), mapNodeSecrets f field kind (nodes.map Node.stored) =
      (mapNodeSecrets f' field kind nodes).map Node.stored := by
    intro field kind nodes
    simp only [mapNodeSecrets, List.zipIdx_map, List.map_map]
    exact List.map_congr_left fun e _ => Node.mapSecrets_stored hf kind _ e.1
  simp only [Graph.mapSecrets, Graph.stored, hn]

theorem mem_secrets_stored {g : Graph} : e ∈ g.stored.secrets ↔ ∃ x, (e.1, x) ∈ g.secrets ∧ e.2 = x.stored := by
  have hn : ∀ field kind (nodes : List Node), e ∈ nodeSecrets field kind (nodes.map Node.stored) ↔
      ∃ x, (e.1, x) ∈ nodeSecrets field kind nodes ∧ e.2 = x.stored := by
    intro field kind nodes
    simp only [nodeSecrets, List.zipIdx_map, List.flatMap_map, List.mem_flatMap]
    have hw : ∀ d : Node × Nat, e ∈ d.1.stored.secrets kind (configPath field d.2) ↔
        ∃ x, (e.1, x) ∈ d.1.secrets kind (configPath field d.2) ∧ e.2 = x.stored := by
      intro d
      rw [Node.secrets, Node.stored_value]
      exact Walk.Guide.mem_marks_stored
    constructor
    · rintro ⟨d, hd, he⟩
      obtain ⟨x, hx, hv⟩ := (hw d).mp he
      exact ⟨x, ⟨d, hd, hx⟩, hv⟩
    · rintro ⟨x, ⟨d, hd, hx⟩, hv⟩
      exact ⟨d, hd, (hw d).mpr ⟨x, hx, hv⟩⟩
  simp only [Graph.secrets, Graph.stored, List.mem_append, hn]
  constructor
  · rintro (⟨x, hx, hv⟩ | ⟨x, hx, hv⟩)
    exacts [⟨x, .inl hx, hv⟩, ⟨x, .inr hx, hv⟩]
  · rintro ⟨x, hx | hx, hv⟩
    exacts [.inl ⟨x, hx, hv⟩, .inr ⟨x, hx, hv⟩]

theorem encValue_stored (v : Value) : encValue v.stored = encValue v := by
  cases v
  case obj fields =>
    obtain _ | ⟨⟨k, w⟩, _ | ⟨e₂, es⟩⟩ := fields
    case nil => rfl
    case cons.nil => cases w <;> simp [Value.stored, Value.storedFields, sort, encValue]
    case cons.cons =>
      have hl : (sort (Value.storedFields ((k, w) :: e₂ :: es))).length = es.length + 2 := by
        simp [(Assoc.sort_perm _).length_eq, Value.storedFields_eq, mapVals]
      simp only [Value.stored]
      -- Neither list is a single field, so neither of them is an encrypted value.
      generalize sort (Value.storedFields ((k, w) :: e₂ :: es)) = sorted at hl
      obtain _ | ⟨_, _ | ⟨_, _⟩⟩ := sorted
      case cons.cons => simp [encValue]
      all_goals simp at hl
  all_goals rfl

theorem revealed_stored (v : Value) : revealed c v.stored = (revealed c v).stored := by
  cases he : encValue v
  case none => simp [revealed, encValue_stored, he]
  case some ct =>
    cases hd : Crypto.decrypt c ct <;> simp [revealed, encValue_stored, he, hd, Value.stored]

theorem decryptGraphSecrets_stored {g plain : Graph} (h : decryptGraphSecrets g c = .ok plain) :
    decryptGraphSecrets g.stored c = .ok plain.stored := by
  have ⟨hr, hp⟩ := decryptGraphSecrets_eq_ok.mp h
  refine decryptGraphSecrets_eq_ok.mpr ⟨fun e he => ?_, ?_⟩
  · have ⟨x, hx, hv⟩ := mem_secrets_stored.mp he
    rw [hv, Readable, encValue_stored]
    exact hr _ hx
  · rw [hp, Graph.mapSecrets_stored fun _ x => revealed_stored x]

end Secrets

section Numbers

-- Where the renderer prints a float and the literal that the database makes of it differently: at the
-- negative zero, and at integers of int64 from a million on, which `'g'` prints with an exponent.
def Rewritten (x : Float64) : Prop :=
  x.IsNegZero ∨ 0 ≤ x.exp ∧ 10 ^ 6 ≤ x.coeff * 10 ^ x.exp.toNat ∧
    -2 ^ 63 ≤ (Number.ofFloat x).toInt ∧ (Number.ofFloat x).toInt < 2 ^ 63

variable [Runtime]

def ParsesBack (x : Float64) : Prop :=
  ¬x.IsNegZero → Runtime.parseFloat (.ofFloat x) = some x

theorem numberNode_ofFloat_iff {x : Float64} (hp : ParsesBack x) :
    numberNode (.ofFloat x) = .plain (Strconv.formatG x) ↔ ¬Rewritten x := by
  by_cases he : 0 ≤ x.exp
  case neg =>
    -- The literal has digits after the point, and the float is not a zero.
    have hs : (Number.ofFloat x).scale ≠ 0 := by
      simp only [Number.ofFloat, he, if_false]
      omega
    have hz : ¬x.IsNegZero := by
      rintro ⟨_, h0⟩
      have := x.canonical
      rw [if_pos h0] at this
      omega
    simp [numberNode, Number.int64?, hs, hp hz, Rewritten, hz, he]
  case pos =>
    have hs : (Number.ofFloat x).scale = 0 := by simp [Number.ofFloat, he]
    have hg := Strconv.formatG_eq_formatInt_iff he
    by_cases hr : -2 ^ 63 ≤ (Number.ofFloat x).toInt ∧ (Number.ofFloat x).toInt < 2 ^ 63
    case pos =>
      have hi : (Number.ofFloat x).int64? = some (Number.ofFloat x).toInt := by
        simp only [Number.int64?, hs, hr, and_self, if_true]
      simp only [numberNode, hi, Yaml.Node.plain.injEq, eq_comm, hg, Rewritten, he, true_and, hr,
        and_self, and_true, not_or, not_le]
    case neg =>
      have hi : (Number.ofFloat x).int64? = none := by
        simp only [Number.int64?, hs, hr, and_false, if_false]
      -- A zero is within the range.
      have hz : ¬x.IsNegZero := by
        rintro ⟨hn, h0⟩
        apply hr
        simp [Number.toInt, Number.ofFloat, he, h0]
      simp only [numberNode, hi, hp hz, Rewritten, hz, hr, and_false, or_self, not_false_eq_true]

theorem toNode_stored_iff (v : Value) (hp : ∀ x, .float x ∈ v.subvalues → ParsesBack x) :
    toNode v.stored = toNode v ↔ ∀ x, .float x ∈ v.subvalues → ¬Rewritten x := by
  induction v
  case float x =>
    simp only [Value.stored, toNode, numberNode_ofFloat_iff (hp x List.mem_cons_self), Value.subvalues, List.mem_singleton,
      Value.float.injEq, forall_eq]
  case arr items hi =>
    simp only [Value.subvalues, List.mem_cons, reduceCtorEq, false_or, Value.mem_subvaluesItems] at hp
    have hi (v : Value) (hv : v ∈ items) := hi v hv fun x hx => hp x ⟨v, hv, hx⟩
    simp only [Value.stored, Value.storedItems_eq, toNode, toNodeItems_eq, List.map_map,
      Yaml.Node.seq.injEq, true_and, List.map_inj_left, Value.subvalues, List.mem_cons,
      reduceCtorEq, false_or, Value.mem_subvaluesItems, Function.comp_apply]
    constructor
    · rintro h x ⟨v, hv, hx⟩
      exact (hi v hv).mp (h v hv) x hx
    · exact fun h v hv => (hi v hv).mpr fun x hx => h x ⟨v, hv, hx⟩
  case obj fields hi =>
    simp only [Value.subvalues, List.mem_cons, reduceCtorEq, false_or, Value.mem_subvaluesFields] at hp
    have hi (k : String) (v : Value) (hm : (k, v) ∈ fields) := hi k v hm fun x hx => hp x ⟨k, v, hm, hx⟩
    have hsort : sort (mapVals (fun _ v => toNode v)
        (sort (mapVals (fun _ v => v.stored) fields))) =
        mapVals (fun _ v => toNode v.stored) (sort fields) := by
      rw [sort_mapVals, sort_mapVals, sort_mapVals, Assoc.sort_sort]
      simp only [mapVals, List.map_map]
      rfl
    simp only [Value.stored, Value.storedFields_eq, toNode, toNodeFields_eq]
    rw [hsort, sort_mapVals]
    simp only [Yaml.Node.map.injEq, mapVals, List.map_inj_left, Assoc.mem_sort, Prod.mk.injEq,
      true_and, Value.subvalues, List.mem_cons, reduceCtorEq, false_or, Value.mem_subvaluesFields,
      Prod.forall]
    constructor
    · rintro h x ⟨k, v, hm, hx⟩
      exact (hi k v hm).mp (h k v hm) x hx
    · exact fun h k v hm => (hi k v hm).mpr fun x hx => h x ⟨k, v, hm, hx⟩
  all_goals simp [Value.stored, Value.subvalues]

end Numbers

end Pipelines
