import OtelFleet.Pipelines.Theorems.Prepare
import OtelFleet.Pipelines.Theorems.Shape

-- Graphs that differ in their secrets alone, and what the service makes of them.
namespace Pipelines

open Json (Value)
open Walk.Guide (errorAt valueAt notesAt)
open Crypto (Cipher)

-- The graphs arise from one graph, and their password fields are related in pairs.
def Graph.Alike (R : Value → Value → Prop) (g g' : Graph) : Prop :=
  ∃ h f f', g = Graph.mapSecrets f h ∧ g' = Graph.mapSecrets f' h ∧
    ∀ e ∈ h.secrets, R (f e.1 e.2) (f' e.1 e.2)

def Sealed (c : Cipher) (v : Value) : Prop :=
  ∃ ct plaintext, encValue v = some ct ∧ Crypto.decrypt c ct = .ok plaintext

def SameSecret (c : Cipher) (v v' : Value) : Prop :=
  v = v' ∨ Sealed c v ∧ Sealed c v'

def SameText (v v' : Value) : Prop :=
  v = v' ∨ (∃ s, v = .str s) ∧ ∃ s, v' = .str s

namespace Graph.Alike

variable {g g' : Graph}

theorem refl (hR : ∀ v, R v v) (g : Graph) : g.Alike R g := by
  have hid := (Graph.mapSecrets_id (f := fun _ v => v) fun e _ => rfl : g.mapSecrets _ = g)
  exact ⟨g, _, _, hid.symm, hid.symm, fun e _ => hR e.2⟩

theorem of_mapSecrets (h : ∀ e ∈ g.secrets, R (f e.1 e.2) (f' e.1 e.2)) : (g.mapSecrets f).Alike R (g.mapSecrets f') :=
  ⟨g, f, f', rfl, rfl, h⟩

theorem mapSecrets (h : g.Alike R g') (hf : ∀ p v v', R v v' → S (f p v) (f' p v')) :
    (g.mapSecrets f).Alike S (g'.mapSecrets f') := by
  obtain ⟨h, k, k', rfl, rfl, hr⟩ := h
  simp only [Graph.mapSecrets_mapSecrets]
  exact of_mapSecrets fun e he => hf _ _ _ (hr e he)

theorem mapSecrets_eq (h : g.Alike R g') (hf : ∀ p v v', R v v' → f p v = f' p v') :
    g.mapSecrets f = g'.mapSecrets f' := by
  obtain ⟨h, k, k', rfl, rfl, hr⟩ := h
  simp only [Graph.mapSecrets_mapSecrets]
  exact Graph.mapSecrets_congr fun e he => hf _ _ _ (hr e he)

theorem secrets (h : g.Alike R g') : List.Forall₂ (fun e e' => e.1 = e'.1 ∧ R e.2 e'.2) g.secrets g'.secrets := by
  obtain ⟨h, k, k', rfl, rfl, hr⟩ := h
  rw [Graph.secrets_mapSecrets, Graph.secrets_mapSecrets, List.forall₂_map_left_iff,
    List.forall₂_map_right_iff, List.forall₂_same]
  exact fun e he => ⟨rfl, hr e he⟩

end Graph.Alike

namespace SameSecret

theorem revealed (h : SameSecret c v v') : SameText (revealed c v) (revealed c v') := by
  obtain rfl | ⟨⟨_, s, he, hd⟩, ⟨_, s', he', hd'⟩⟩ := h
  case inl => exact .inl rfl
  case inr => exact .inr ⟨⟨s, revealed_of_decrypt he hd⟩, s', revealed_of_decrypt he' hd'⟩

theorem redacted_eq (h : SameSecret c v v') : redacted v = redacted v' := by
  have hsealed : ∀ v, Sealed c v → redacted v = .str RedactedSentinel := by
    rintro v ⟨_, _, he, _⟩
    cases v <;> first | rfl | cases he
  obtain rfl | ⟨hv, hv'⟩ := h
  case inl => rfl
  case inr => rw [hsealed v hv, hsealed v' hv']

theorem errorAt_eq (h : SameSecret c v v') (p : String) :
    errorAt (decryptField c) (p, v) = errorAt (decryptField c) (p, v') := by
  have hsealed : ∀ v, Sealed c v → errorAt (decryptField c) (p, v) = none := by
    rintro v ⟨_, _, he, hd⟩
    simp [errorAt, decryptField, he, hd]
  obtain rfl | ⟨hv, hv'⟩ := h
  case inl => rfl
  case inr => rw [hsealed v hv, hsealed v' hv']

end SameSecret

section Secrets

theorem decryptGraphSecrets_alike (h : g.Alike (SameSecret c) g') :
    (∃ e, decryptGraphSecrets g c = .error e ∧ decryptGraphSecrets g' c = .error e) ∨
      ∃ plain plain', decryptGraphSecrets g c = .ok plain ∧ decryptGraphSecrets g' c = .ok plain' ∧
        plain.Alike SameText plain' := by
  have hval : valueAt (decryptField c) = fun _ v => revealed c v :=
    funext fun p => funext fun v => valueAt_decryptField p v
  have herr : g.secrets.findSome? (errorAt (decryptField c)) =
      g'.secrets.findSome? (errorAt (decryptField c)) := by
    have hpairs := h.secrets.map_eq (f := errorAt (decryptField c)) (g := errorAt (decryptField c))
    have hmap := hpairs fun ⟨p, v⟩ ⟨p', v'⟩ ⟨hp, hv⟩ => by
      obtain rfl : p = p' := hp
      exact hv.errorAt_eq p
    simpa [List.findSome?_map] using congrArg (List.findSome? id) hmap
  simp only [decryptGraphSecrets, Graph.transformGraphSecrets_eq, herr, hval]
  cases g'.secrets.findSome? (errorAt (decryptField c))
  case some e => exact .inl ⟨e, rfl, rfl⟩
  case none => exact .inr ⟨_, _, rfl, rfl, h.mapSecrets fun _ _ _ => SameSecret.revealed⟩

theorem lookup_alike (h : Option.Rel (Graph.Alike (SameSecret c)) prev prev') (path : String) :
    Option.Rel (SameSecret c) ((secretsOf prev).reverse.lookup path)
      ((secretsOf prev').reverse.lookup path) := by
  have hlookup : ∀ l l' : List (String × Value),
      List.Forall₂ (fun e e' => e.1 = e'.1 ∧ SameSecret c e.2 e'.2) l l' →
      Option.Rel (SameSecret c) (l.lookup path) (l'.lookup path) := by
    intro l l' hl
    induction hl
    case nil => exact .none
    case cons e e' l l' he _ hi =>
      obtain ⟨p, v⟩ := e
      obtain ⟨p', v'⟩ := e'
      obtain ⟨rfl, hv⟩ : p = p' ∧ SameSecret c v v' := he
      rw [List.lookup_cons, List.lookup_cons]
      cases path == p
      case true => exact .some hv
      case false => exact hi
  cases h
  case none => exact .none
  case some g g' h => exact hlookup _ _ (List.rel_reverse h.secrets)

theorem encryptField_alike (h : Option.Rel (Graph.Alike (SameSecret c)) prev prev') (rnd : Entropy)
    (path : String) (v : Value) :
    encryptField c rnd (secretsOf prev).reverse path v =
        encryptField c rnd (secretsOf prev').reverse path v ∨
      v = .str RedactedSentinel ∧ ∃ w w', Sealed c w ∧ Sealed c w' ∧
        encryptField c rnd (secretsOf prev).reverse path v = .ok (w, []) ∧
        encryptField c rnd (secretsOf prev').reverse path v = .ok (w', []) := by
  by_cases hv : v = .str RedactedSentinel
  case neg =>
    left
    unfold encryptField
    split_ifs
    · rfl
    · split
      · split_ifs with hs
        · exact absurd (congrArg Value.str hs) hv
        · rfl
      · rfl
  case pos =>
    have hl := lookup_alike h path
    subst hv
    have hs : (encValue (.str RedactedSentinel)).isSome = false := rfl
    simp only [encryptField, hs]
    generalize (secretsOf prev).reverse.lookup path = old at hl
    generalize (secretsOf prev').reverse.lookup path = old' at hl
    cases hl
    case none => exact .inl rfl
    case some w w' hw =>
      obtain rfl | ⟨hw, hw'⟩ := hw
      case inl => exact .inl rfl
      case inr =>
        obtain ⟨_, _, he, _⟩ := id hw
        obtain ⟨_, _, he', _⟩ := id hw'
        exact .inr ⟨trivial, w, w', hw, hw', by simp [he], by simp [he']⟩

theorem encryptGraphSecrets_alike (h : Option.Rel (Graph.Alike (SameSecret c)) prev prev') (rnd : Entropy) (g : Graph) :
    (∃ e, encryptGraphSecrets g c rnd prev = .error e ∧ encryptGraphSecrets g c rnd prev' = .error e) ∨
      ∃ out out', encryptGraphSecrets g c rnd prev = .ok out ∧
        encryptGraphSecrets g c rnd prev' = .ok out' ∧ out.Alike (SameSecret c) out' := by
  have hfield := fun e : String × Value => encryptField_alike h rnd e.1 e.2
  simp only [encryptGraphSecrets, prevSecrets_eq, Graph.transformGraphSecrets_eq]
  generalize encryptField c rnd (secretsOf prev).reverse = fn at hfield
  generalize encryptField c rnd (secretsOf prev').reverse = fn' at hfield
  have herr : errorAt fn = errorAt fn' := by
    funext e
    obtain he | ⟨_, w, w', _, _, hw, hw'⟩ := hfield e
    · simp [errorAt, he]
    · simp [errorAt, hw, hw']
  have hnotes : notesAt fn = notesAt fn' := by
    funext e
    obtain he | ⟨_, w, w', _, _, hw, hw'⟩ := hfield e
    · simp [notesAt, he]
    · simp [notesAt, hw, hw']
  have hval : ∀ e : String × Value, SameSecret c (valueAt fn e.1 e.2) (valueAt fn' e.1 e.2) := by
    intro e
    obtain he | ⟨_, w, w', hs, hs', hw, hw'⟩ := hfield e
    · exact .inl (by simp [valueAt, he])
    · exact .inr (by simp [valueAt, hw, hw', hs, hs'])
  rw [herr, hnotes]
  cases g.secrets.findSome? (errorAt fn')
  case some e => exact .inl ⟨_, rfl, rfl⟩
  case none =>
    simp only [Walk.settle]
    split_ifs
    · exact .inl ⟨_, rfl, rfl⟩
    · exact .inr ⟨_, _, rfl, rfl, .of_mapSecrets fun e _ => hval e⟩

end Secrets

structure RenderPipeline.Alike (p p' : RenderPipeline) : Prop where
  customerSlug : p.customerSlug = p'.customerSlug
  clientID : p.clientID = p'.clientID
  pipelineSlug : p.pipelineSlug = p'.pipelineSlug
  graph : p.graph.Alike SameText p'.graph

theorem RenderPipeline.Alike.sameShape (h : p.Alike p') : SameShape p p' := by
  obtain ⟨hc, hi, hs, k, f, f', hg, hg', _⟩ := h
  have hids : ∀ field kind (nodes : List Node), p.nodeIDs (mapNodeSecrets f field kind nodes) =
      p'.nodeIDs (mapNodeSecrets f' field kind nodes) := by
    intro field kind nodes
    simp only [RenderPipeline.nodeIDs, mapNodeSecrets, Walk.zipIdx_map_zipIdx, List.map_map, hc, hs]
    rfl
  exact ⟨hc, hi, hs, by rw [hg, hg']; rfl, by rw [hg, hg']; exact hids _ _ _,
    by rw [hg, hg']; exact hids _ _ _⟩

section Validation

variable [Runtime]

def masked : Value → Value
  | .str _ => .str ""
  | v => v

-- The schemas of the catalog accept any string in a password field.
def SchemaIgnoresPasswords : Prop :=
  ∀ kind type comp, Catalog.lookup kind type = some comp → ∀ base v,
    Runtime.validateSchema comp.schema
      (secretGuide.mapMarks (fun _ x => masked x) (some comp.schema) base v) =
        Runtime.validateSchema comp.schema v

-- The verdict of `otelcol validate` does not depend on passwords.
def OtelcolIgnoresPasswords : Prop :=
  ∀ run, Runtime.otelcolValidate = some run → ∀ targetClass ps ps',
    List.Forall₂ RenderPipeline.Alike ps ps' → ∀ full full',
      renderFull targetClass ps = .ok full → renderFull targetClass ps' = .ok full' →
        run full = run full'

theorem configIssues_alike (hs : SchemaIgnoresPasswords) {n : Node}
    (h : ∀ e ∈ n.secrets kind base, SameText (f e.1 e.2) (f' e.1 e.2))
    (hc : Catalog.lookup kind n.type = some comp) (at' : String) :
    configIssues at' comp (n.mapSecrets f kind base) = configIssues at' comp (n.mapSecrets f' kind base) := by
  have hschema : n.schema kind = some comp.schema := by simp [Node.schema, hc]
  have hverdict : ∀ f, Runtime.validateSchema comp.schema (n.mapSecrets f kind base).value =
      Runtime.validateSchema comp.schema
        (secretGuide.mapMarks (fun p x => masked (f p x)) (some comp.schema) base n.value) := by
    intro f
    rw [Node.value_mapSecrets, hschema, ← hs kind n.type comp hc base, Walk.Guide.mapMarks_mapMarks]
  have hmasked : secretGuide.mapMarks (fun p x => masked (f p x)) (some comp.schema) base n.value =
      secretGuide.mapMarks (fun p x => masked (f' p x)) (some comp.schema) base n.value := by
    refine Walk.Guide.mapMarks_congr fun e he => ?_
    obtain heq | ⟨⟨s, hs⟩, s', hs'⟩ := h e (by rwa [Node.secrets, hschema])
    · rw [heq]
    · rw [hs, hs', masked, masked]
  simp only [configIssues, hverdict, hmasked]

theorem validateNodesFrom_congr (h : List.Forall₂ (fun n n' => n.type = n'.type ∧ n.name = n'.name ∧ ∀ base comp,
      Catalog.lookup kind n.type = some comp → configIssues base comp n = configIssues base comp n')
      ns ns') (i : Nat) (seen : List (String × Nat)) :
    validateNodesFrom field kind i seen ns = validateNodesFrom field kind i seen ns' := by
  induction h generalizing i seen
  case nil => rfl
  case cons n n' ns ns' hn _ hi =>
    have ⟨ht, hname, hc⟩ := hn
    have hid : componentID n i "c" "p" = componentID n' i "c" "p" := by
      simp only [componentID, nodeSuffix, ht, hname]
    have hissues : nameIssues (indexed field i) n = nameIssues (indexed field i) n' := by
      simp only [nameIssues, hname]
    simp only [validateNodesFrom, hissues, hi, hid, ← ht]
    cases hl : Catalog.lookup kind n.type
    case none => rfl
    case some comp => simp only [hc _ comp hl]

theorem validateStructural_alike (hs : SchemaIgnoresPasswords) {g g' : Graph}
    (h : g.Alike SameText g') : validateStructural g = validateStructural g' := by
  obtain ⟨k, f, f', rfl, rfl, hr⟩ := h
  have hnodes : ∀ field kind (nodes : List Node), (∀ e ∈ nodeSecrets field kind nodes,
      SameText (f e.1 e.2) (f' e.1 e.2)) → ∀ name,
      validateNodes name kind (mapNodeSecrets f field kind nodes) =
        validateNodes name kind (mapNodeSecrets f' field kind nodes) := by
    intro field kind nodes hr name
    refine validateNodesFrom_congr ?_ 0 []
    rw [mapNodeSecrets, mapNodeSecrets, List.forall₂_map_left_iff, List.forall₂_map_right_iff,
      List.forall₂_same]
    intro e he
    refine ⟨rfl, rfl, fun base comp hc => ?_⟩
    exact configIssues_alike hs (fun m hm => hr m (List.mem_flatMap.mpr ⟨e, he, hm⟩)) hc base
  have hp := hnodes _ _ _ fun e he => hr e (List.mem_append_left _ he)
  have he := hnodes _ _ _ fun e he => hr e (List.mem_append_right _ he)
  simp only [validateStructural, Graph.mapSecrets, hp, he]
  congr 3
  exact if_congr (by simp [mapNodeSecrets]) rfl rfl

structure Refused (targetClass : Store.TargetClass) (p : RenderPipeline) (others : List RenderPipeline) : Prop where
  structural : validateStructural p.graph = []
  full : (∃ e, renderFull targetClass (others ++ [p]) = .error e) ∨
    ∃ full run out, renderFull targetClass (others ++ [p]) = .ok full ∧
      Runtime.otelcolValidate = some run ∧ run full = some out

theorem renderFull_alike (h : List.Forall₂ RenderPipeline.Alike ps ps') (targetClass : Store.TargetClass) :
    (∃ e, renderFull targetClass ps = .error e ∧ renderFull targetClass ps' = .error e) ∨
      ∃ full full', renderFull targetClass ps = .ok full ∧ renderFull targetClass ps' = .ok full' := by
  have hsorted := forall₂_sortPipelines (fun _ _ => RenderPipeline.Alike.sameShape) h
  have hkeys := forall₂_duplicateKey (hsorted.imp fun _ _ => RenderPipeline.Alike.sameShape) []
  cases targetClass <;>
    simp only [renderFull, renderForwardingConfig, renderEdgeConfig, hkeys] <;>
    cases duplicateKey [] (sortPipelines ps') <;>
    simp

theorem validate_alike (hs : SchemaIgnoresPasswords) (ho : OtelcolIgnoresPasswords) (hp : p.Alike p')
    (h : List.Forall₂ RenderPipeline.Alike others others') (binPath : String) (targetClass : Store.TargetClass) :
    validate binPath targetClass p' others' =
      { validate binPath targetClass p others with
        renderedYAML := (validate binPath targetClass p others).renderedYAML.map fun _ =>
          renderFragmentOf targetClass p' } := by
  have hlists : List.Forall₂ RenderPipeline.Alike (others ++ [p]) (others' ++ [p']) :=
    List.rel_append h (.cons hp .nil)
  simp only [validate, validateStructural_alike hs hp.graph]
  by_cases hi : validateStructural p'.graph = []
  case neg => simp [hi]
  case pos =>
    simp only [hi, ne_eq, not_true_eq_false, if_false]
    obtain ⟨e, he, he'⟩ | ⟨full, full', hf, hf'⟩ := renderFull_alike hlists targetClass
    · simp [he, he']
    · simp only [hf, hf']
      cases hr : Runtime.otelcolValidate
      case none => rfl
      case some run =>
        have hrun := ho run hr targetClass _ _ hlists full full' hf hf'
        simp only [hrun]
        cases run full' <;> rfl

theorem validate_invalid (h : (validate binPath targetClass p others).valid = false) :
    (validate binPath targetClass p others).renderedYAML = none ∧ validateStructural p.graph ≠ [] ∨
      (validate binPath targetClass p others).renderedYAML = some (renderFragmentOf targetClass p) ∧
        Refused targetClass p others := by
  by_cases hi : validateStructural p.graph = []
  case neg => simp [validate, hi]
  case pos =>
    right
    cases hf : renderFull targetClass (others ++ [p])
    case error e => exact ⟨by simp [validate, hi, hf], hi, .inl ⟨e, hf⟩⟩
    case ok full =>
      cases hr : Runtime.otelcolValidate
      case none => simp [validate, hi, hf, hr] at h
      case some run =>
        cases hout : run full
        case none => simp [validate, hi, hf, hr, hout] at h
        case some out =>
          exact ⟨by simp [validate, hi, hf, hr, hout], hi, .inr ⟨full, run, out, hf, hr, hout⟩⟩

end Validation

end Pipelines
