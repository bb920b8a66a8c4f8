import OtelFleet.Pipelines.Theorems.Prepare

-- Which node a redacted secret comes back to when the nodes of a graph have been moved.
namespace Pipelines

open Json (Value)
open Catalog (Kind)
open Walk.Guide (valueAt)

-- The second list has been made from the first by deleting and permuting: its nodes stood at the
-- given indices.
structure Rearranged (idx : List Nat) (nodes nodes' : List Node) : Prop where
  distinct : idx.Nodup
  nodes : nodes'.map some = idx.map (nodes[·]?)

def KeepsSecrets (kind : Kind) (idx : List Nat) (nodes nodes' : List Node) : Prop :=
  ∀ (k i : Nat) (n n' : Node), idx[k]? = some i → nodes[i]? = some n → nodes'[k]? = some n' →
    n'.secrets kind "" = n.secrets kind ""

-- Each secret also stands at the new index of its node, in the former node there.
def Aligned (kind : Kind) (idx : List Nat) (nodes : List Node) : Prop :=
  ∀ (k i : Nat) (n : Node), idx[k]? = some i → nodes[i]? = some n → ∀ e ∈ n.secrets kind "",
    ∃ n' : Node, nodes[k]? = some n' ∧ e ∈ n'.secrets kind ""

theorem Rearranged.getElem? {nodes nodes' : List Node} (h : Rearranged idx nodes nodes')
    {k i : Nat} (hi : idx[k]? = some i) : nodes'[k]? = nodes[i]? := by
  have hk := congrArg (·[k]?) h.nodes
  simp only [List.getElem?_map, hi, Option.map_some] at hk
  cases hn : nodes'[k]?
  case none => simp [hn] at hk
  case some n => simpa [hn] using hk

theorem getElem?_mapNodeSecrets (f : String → Value → Value) (field : String) (kind : Kind)
    (nodes : List Node) (k : Nat) :
    (mapNodeSecrets f field kind nodes)[k]? =
      nodes[k]?.map (·.mapSecrets f kind (configPath field k)) := by
  simp only [mapNodeSecrets, List.getElem?_map, List.getElem?_zipIdx, Option.map_map]
  cases nodes[k]? <;> simp

theorem Node.secrets_mapSecrets_at (f : String → Value → Value) (kind : Kind) (base : String) (n : Node) :
    (n.mapSecrets f kind base).secrets kind "" =
      (n.secrets kind "").map fun e => (e.1, f (base ++ e.1) e.2) := by
  have h := @Node.secrets_mapSecrets n f kind base
  rw [Node.secrets_base, Node.secrets_base n, List.map_map] at h
  -- The two lists agree below the same base, which can be taken off again.
  have hinj : Function.Injective fun e : String × Value => (base ++ e.1, e.2) := by
    rintro ⟨p, v⟩ ⟨q, w⟩ he
    simp only [Prod.mk.injEq, String.append_right_inj] at he
    exact Prod.ext he.left he.right
  refine List.map_injective_iff.mpr hinj (h.trans ?_)
  rw [List.map_map]
  rfl

section Section

variable {prev : Graph} {kind : Kind} {field : String} {nodes nodes' : List Node}

theorem encryptField_sentinel (hm : ∀ e ∈ entries, (encValue e.2).isSome)
    (h : encryptField c rnd entries path (.str RedactedSentinel) = .ok (v, [])) : entries.lookup path = some v := by
  have hs : (encValue (.str RedactedSentinel)).isSome = false := rfl
  simp only [encryptField, hs] at h
  cases hl : entries.lookup path
  case none => simp [hl] at h
  case some w => simpa [hl, hm _ (Assoc.mem_of_lookup hl)] using h

def Located (prev : Graph) (field : String) (kind : Kind) (nodes : List Node) : Prop :=
  ∀ k q v, (configPath field k ++ q, v) ∈ prev.secrets ↔
    ∃ n : Node, nodes[k]? = some n ∧ (q, v) ∈ n.secrets kind ""

theorem mem_nodeSecrets_at :
    (configPath field k ++ q, v) ∈ nodeSecrets field kind nodes ↔
      ∃ n : Node, nodes[k]? = some n ∧ (q, v) ∈ n.secrets kind "" := by
  rw [mem_nodeSecrets]
  constructor
  · rintro ⟨n, i, r, hn, hr, he⟩
    obtain rfl := configPath_inj he
    obtain rfl := (String.append_right_inj _).mp he
    exact ⟨n, List.mk_mem_zipIdx_iff_getElem?.mp hn, hr⟩
  · rintro ⟨n, hn, hq⟩
    exact ⟨n, k, q, List.mk_mem_zipIdx_iff_getElem?.mpr hn, hq, rfl⟩

theorem configPath_processors_ne : configPath "processors" i ++ q ≠ configPath "exporters" k ++ r := by
  intro he
  have hc := congrArg String.toList he
  simp [configPath, indexed] at hc

theorem located_processors (prev : Graph) : Located prev "processors" .processor prev.processors := by
  intro k q v
  rw [Graph.secrets, List.mem_append, mem_nodeSecrets_at, or_iff_left]
  intro hm
  obtain ⟨_, _, _, _, _, he⟩ := mem_nodeSecrets.mp hm
  exact configPath_processors_ne he

theorem located_exporters (prev : Graph) : Located prev "exporters" .exporter prev.exporters := by
  intro k q v
  rw [Graph.secrets, List.mem_append, mem_nodeSecrets_at, or_iff_right]
  intro hm
  obtain ⟨_, _, _, _, _, he⟩ := mem_nodeSecrets.mp hm
  exact configPath_processors_ne he.symm

theorem redacted_of_marker (h : (encValue v).isSome) : redacted v = .str RedactedSentinel := by
  cases v <;> first | rfl | simp [encValue] at h

-- In a section whose sentinels all resolve, the secrets stay with their nodes exactly when the nodes
-- that used to stand at the new places had the same ones.
theorem keepsSecrets_iff_aligned (hn : (Assoc.keys prev.secrets).Nodup)
    (hm : ∀ e ∈ prev.secrets, (encValue e.2).isSome) (hl : Located prev field kind nodes)
    (hr : Rearranged idx (mapNodeSecrets (fun _ v => redacted v) field kind nodes) nodes')
    (hok : ∀ e ∈ nodeSecrets field kind nodes',
      ∃ v, encryptField c rnd prev.secrets.reverse e.1 e.2 = .ok (v, [])) :
    KeepsSecrets kind idx nodes
        (mapNodeSecrets (valueAt (encryptField c rnd prev.secrets.reverse)) field kind nodes') ↔
      Aligned kind idx nodes := by
  generalize hfn : encryptField c rnd prev.secrets.reverse = fn at hok
  unfold KeepsSecrets Aligned
  refine forall₃_congr fun k i n => ?_
  -- The node as it was submitted, and what its sentinels resolve to.
  have hnode : idx[k]? = some i → nodes[i]? = some n →
      nodes'[k]? = some (n.mapSecrets (fun _ v => redacted v) kind (configPath field i)) := by
    intro hi hni
    rw [hr.getElem? hi, getElem?_mapNodeSecrets, hni]
    rfl
  have hsent : idx[k]? = some i → nodes[i]? = some n →
      ((n.mapSecrets (fun _ v => redacted v) kind (configPath field i)).secrets kind "") =
        (n.secrets kind "").map fun e => (e.1, .str RedactedSentinel) := by
    intro hi hni
    rw [Node.secrets_mapSecrets_at]
    refine List.map_congr_left fun ⟨q, x⟩ hq => ?_
    have hx := hm _ ((hl i q x).mpr ⟨n, hni, hq⟩)
    simp only [redacted_of_marker hx]
  have hfield : idx[k]? = some i → nodes[i]? = some n → ∀ e ∈ n.secrets kind "",
      (configPath field k ++ e.1, valueAt fn (configPath field k ++ e.1) (.str RedactedSentinel)) ∈
        prev.secrets := by
    intro hi hni e he
    have hmem : (configPath field k ++ e.1, .str RedactedSentinel) ∈ nodeSecrets field kind nodes' := by
      refine mem_nodeSecrets_at.mpr ⟨_, hnode hi hni, ?_⟩
      rw [hsent hi hni]
      exact List.mem_map.mpr ⟨e, he, rfl⟩
    obtain ⟨v, hv⟩ := hok _ hmem
    have hlook := encryptField_sentinel (fun e he => hm e (List.mem_reverse.mp he)) (hfn ▸ hv)
    simpa [valueAt, hv] using List.mem_reverse.mp (Assoc.mem_of_lookup hlook)
  have hout : idx[k]? = some i → nodes[i]? = some n → ∀ n',
      (mapNodeSecrets (valueAt fn) field kind nodes')[k]? = some n' →
      n'.secrets kind "" = (n.secrets kind "").map fun e =>
        (e.1, valueAt fn (configPath field k ++ e.1) (.str RedactedSentinel)) := by
    intro hi hni n' hn'
    rw [getElem?_mapNodeSecrets, hnode hi hni, Option.map_some, Option.some.injEq] at hn'
    rw [← hn', Node.secrets_mapSecrets_at, hsent hi hni, List.map_map]
    rfl
  constructor
  · intro h hi hni e he
    obtain ⟨n', hn'⟩ : ∃ n', (mapNodeSecrets (valueAt fn) field kind nodes')[k]? = some n' := by
      rw [getElem?_mapNodeSecrets, hnode hi hni]
      exact ⟨_, rfl⟩
    have heq := h n' hi hni hn'
    rw [hout hi hni n' hn'] at heq
    have hval : valueAt fn (configPath field k ++ e.1) (.str RedactedSentinel) = e.2 :=
      congrArg Prod.snd (List.map_inj_left.mp (heq.trans (List.map_id _).symm) e he)
    exact (hl k e.1 e.2).mp (hval ▸ hfield hi hni e he)
  · intro h n' hi hni hn'
    rw [hout hi hni n' hn']
    refine (List.map_congr_left fun e he => ?_).trans (List.map_id _)
    have hmem := (hl k e.1 e.2).mpr (h hi hni e he)
    exact Prod.ext rfl (Assoc.val_unique hn (hfield hi hni e he) hmem)

end Section

theorem encryptGraphSecrets_keeps_iff_aligned (prev g out : Graph) (ps es : List Nat)
    (c : Crypto.Cipher) (rnd : Entropy) (hwf : prev.WF) (hm : ∀ e ∈ prev.secrets, (encValue e.2).isSome)
    (hp : Rearranged ps (redactGraphSecrets prev).processors g.processors)
    (he : Rearranged es (redactGraphSecrets prev).exporters g.exporters)
    (h : encryptGraphSecrets g c rnd (some prev) = .ok out) :
    KeepsSecrets .processor ps prev.processors out.processors ∧
        KeepsSecrets .exporter es prev.exporters out.exporters ↔
      Aligned .processor ps prev.processors ∧ Aligned .exporter es prev.exporters := by
  have ⟨hok, hout⟩ := encryptGraphSecrets_eq_ok.mp h
  rw [redactGraphSecrets_eq] at hp he
  rw [hout]
  refine and_congr ?_ ?_
  · exact keepsSecrets_iff_aligned hwf.nodup_secrets hm (located_processors prev) hp
      fun e he => hok e (List.mem_append_left _ he)
  · exact keepsSecrets_iff_aligned hwf.nodup_secrets hm (located_exporters prev) he
      fun e he => hok e (List.mem_append_right _ he)

def twoDatabases : Graph :=
  sampleGraph [clickhouse (sampleSecret "alpha"), clickhouse (sampleSecret "beta")]

def movedUp : Graph :=
  sampleGraph [clickhouse (.str RedactedSentinel), clickhouse (.str RedactedSentinel)]

theorem twoDatabases_aligned_unmoved :
    ∃ out, encryptGraphSecrets movedUp (some .sample) sampleEntropy (some twoDatabases) = .ok out ∧
      KeepsSecrets .exporter [0, 1] twoDatabases.exporters out.exporters := by
  refine ⟨_, rfl, ?_⟩
  have h := encryptGraphSecrets_keeps_iff_aligned twoDatabases movedUp _ [] [0, 1] (some .sample)
    sampleEntropy (by decide) (by rintro e (_ | ⟨_, _ | ⟨_, ⟨⟩⟩⟩) <;> rfl) ⟨by decide, rfl⟩
    ⟨by decide, rfl⟩ rfl
  refine (h.mpr ⟨by simp [Aligned], fun k i n hi hn e he => ?_⟩).right
  match k with
  | 0 | 1 => cases hi; exact ⟨n, hn, he⟩
  | _ + 2 => simp at hi

-- Each database ends up with the password of the other one.
theorem movedUp_swaps_passwords :
    ∃ out, encryptGraphSecrets movedUp (some .sample) sampleEntropy (some twoDatabases) = .ok out ∧
      Rearranged [1, 0] (redactGraphSecrets twoDatabases).exporters movedUp.exporters ∧
      ¬KeepsSecrets .exporter [1, 0] twoDatabases.exporters out.exporters := by
  refine ⟨_, rfl, ⟨by decide, rfl⟩, fun h => ?_⟩
  have hs := congrArg (List.map fun e => encValue e.2) (h 0 1 _ _ rfl rfl rfl)
  exact absurd hs (by decide)

end Pipelines
