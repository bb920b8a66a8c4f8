import OtelFleet.Pipelines.Service
import OtelFleet.Pipelines.Theorems.Secrets

open Json (Value)
open Walk.Guide (valueAt)
open Crypto (Cipher decrypt)

namespace Pipelines

def maskSecrets (g : Graph) : Graph :=
  g.mapSecrets fun _ _ => .str RedactedSentinel

def plaintextOf (c : Cipher) (v : Value) : String :=
  match revealed c v with
  | .str s => s
  | _ => ""

section Encryption

theorem encryptSecret_eq_ok (h : encryptSecret c rnd path v plaintext = .ok (w, [])) :
    ∃ ct, encValue w = some ct ∧ decrypt c ct = .ok plaintext := by
  unfold encryptSecret at h
  split at h
  case _ ct he =>
    cases h
    exact ⟨ct, encValue_newEncValue ct, Crypto.decrypt_encrypt he⟩
  case _ =>
    split_ifs at h
    simp at h

theorem plaintextOf_of_decrypt (he : encValue v = some ct) (hd : decrypt c ct = .ok plaintext) :
    plaintextOf c v = plaintext := by
  simp [plaintextOf, revealed_of_decrypt he hd]

theorem encryptField_str (h : encryptField c rnd prev path (.str x) = .ok (w, [])) :
    ∃ ct, encValue w = some ct ∧
      (x ≠ RedactedSentinel → decrypt c ct = .ok x) ∧
      (x = RedactedSentinel → ∃ v, prev.lookup path = some v ∧
        ∀ plaintext, decrypt c ct = .ok plaintext → plaintext = plaintextOf c v) := by
  have hs : (encValue (.str x)).isSome = false := rfl
  simp only [encryptField, hs] at h
  by_cases hx : x = RedactedSentinel
  case neg =>
    simp only [hx] at h
    have ⟨ct, he, hd⟩ := encryptSecret_eq_ok h
    exact ⟨ct, he, fun _ => hd, fun hc => absurd hc hx⟩
  case pos =>
    simp only [hx, if_true] at h
    cases hl : prev.lookup path
    case none => simp [hl] at h
    case some v =>
      simp only [hl] at h
      cases hv : encValue v
      case some ct =>
        have hw : v = w := by simpa [hv] using h
        refine ⟨ct, hw ▸ hv, fun hc => absurd hx hc, fun _ => ⟨v, rfl, fun plaintext hd => ?_⟩⟩
        exact (plaintextOf_of_decrypt hv hd).symm
      case none =>
        simp only [hv, Option.isSome_none] at h
        have ⟨ct, he, hd⟩ := encryptSecret_eq_ok h
        refine ⟨ct, he, fun hc => absurd hx hc, fun _ => ⟨v, rfl, fun plaintext hp => ?_⟩⟩
        rw [hd] at hp
        cases hp
        cases v <;> simp only [plaintextOf, revealed_of_encValue_eq_none hv]

end Encryption

section Spec

theorem Graph.WF.lookup_secretsOf (h : ∀ g, prev = some g → g.WF) (hl : (secretsOf prev).reverse.lookup path = some v) :
    (secretsOf prev).lookup path = some v := by
  cases prev
  case none => exact hl
  case some g =>
    exact Assoc.lookup_of_mem (h g rfl).nodup_secrets
      (List.mem_reverse.mp (Assoc.mem_of_lookup hl))

variable [Runtime] {s : Service} {c : Candidate} {active : List Store.ActivePipeline}

theorem prepare_eq_version (h : prepare s c active = .ok (.version nv res)) :
    ∃ stored plain others,
      encryptGraphSecrets c.graph s.cipher c.rnd c.prev = .ok stored ∧
      decryptGraphSecrets stored s.cipher = .ok plain ∧
      activeRenderPipelines s c.exclude active = .ok others ∧
      (validate s.binPath c.targetClass (c.render plain) others).valid ∧
      nv.graph = marshalGraph stored ∧
      nv.renderedYAML = renderFragmentOf c.targetClass (c.render (redactGraphSecrets stored)) ∧
      nv.configHash = Runtime.sha256 nv.renderedYAML := by
  unfold prepare at h
  split at h
  case _ => cases h
  case _ => cases h
  case _ stored hs =>
    split at h
    case _ => cases h
    case _ plain hp =>
      split at h
      case _ => cases h
      case _ others ho =>
        simp only [Bool.not_eq_true'] at h
        split_ifs at h with hv
        · cases h
        · cases h
          exact ⟨stored, plain, others, hs, hp, ho, by simpa using hv, rfl, rfl, rfl⟩

theorem prepare_keeps_secrets (s : Service) (c : Candidate) (active : List Store.ActivePipeline)
    (nv : Store.NewPipelineVersion) (res : Result) (hprev : ∀ g, c.prev = some g → g.WF)
    (hstr : ∀ e ∈ c.graph.secrets, ∃ x, e.2 = .str x) (h : prepare s c active = .ok (.version nv res)) :
    ∃ stored, nv.graph = marshalGraph stored ∧
      (∀ e ∈ stored.secrets, (encValue e.2).isSome) ∧
      (∀ path x, (path, .str x) ∈ c.graph.secrets → ∃ v ct plaintext,
        (path, v) ∈ stored.secrets ∧ encValue v = some ct ∧
        decrypt s.cipher ct = .ok plaintext ∧
        (x ≠ RedactedSentinel → plaintext = x) ∧
        (x = RedactedSentinel → ∃ old, (secretsOf c.prev).lookup path = some old ∧
          plaintext = plaintextOf s.cipher old)) ∧
      maskSecrets stored = maskSecrets c.graph ∧
      nv.renderedYAML = renderFragmentOf c.targetClass (c.render (maskSecrets c.graph)) ∧
      nv.configHash = Runtime.sha256 nv.renderedYAML := by
  obtain ⟨stored, plain, others, henc, hdec, _, _, hgraph, hyaml, hhash⟩ := prepare_eq_version h
  obtain ⟨hfields, hstored⟩ := encryptGraphSecrets_eq_ok.mp henc
  obtain ⟨hread, _⟩ := decryptGraphSecrets_eq_ok.mp hdec
  have hsecrets : stored.secrets = _ := hstored ▸ Graph.secrets_mapSecrets
  -- What becomes of each of the submitted strings.
  have hfield : ∀ path x, (path, .str x) ∈ c.graph.secrets → ∃ v ct plaintext,
      (path, v) ∈ stored.secrets ∧ encValue v = some ct ∧
      decrypt s.cipher ct = .ok plaintext ∧
      (x ≠ RedactedSentinel → plaintext = x) ∧
      (x = RedactedSentinel → ∃ old, (secretsOf c.prev).lookup path = some old ∧
        plaintext = plaintextOf s.cipher old) := by
    intro path x hm
    obtain ⟨v, hv⟩ := hfields _ hm
    have hmem : (path, v) ∈ stored.secrets := by
      rw [hsecrets]
      exact List.mem_map.mpr ⟨_, hm, by simp [valueAt, hv]⟩
    obtain ⟨ct, he, hnew, hold⟩ := encryptField_str hv
    obtain ⟨plaintext, hd⟩ := hread _ hmem ct he
    refine ⟨v, ct, plaintext, hmem, he, hd, fun hx => ?_, fun hx => ?_⟩
    · have := hnew hx
      rw [hd] at this
      exact Except.ok.inj this
    · obtain ⟨old, hl, hp⟩ := hold hx
      exact ⟨old, Graph.WF.lookup_secretsOf hprev hl, hp plaintext hd⟩
  have hmarkers : ∀ e ∈ stored.secrets, (encValue e.2).isSome := by
    intro e he
    rw [hsecrets] at he
    obtain ⟨⟨path, y⟩, hm, hv⟩ := List.mem_map.mp he
    obtain ⟨x, rfl⟩ : ∃ x, y = .str x := hstr _ hm
    obtain ⟨v, hv'⟩ := hfields _ hm
    obtain ⟨ct, he', _⟩ := encryptField_str hv'
    rw [← hv]
    simp [valueAt, hv', he']
  have hmask : maskSecrets stored = maskSecrets c.graph := by
    rw [hstored, maskSecrets, Graph.mapSecrets_mapSecrets, maskSecrets]
  have hredact : redactGraphSecrets stored = maskSecrets c.graph := by
    rw [redactGraphSecrets_eq, ← hmask]
    refine Graph.mapSecrets_congr fun e he => ?_
    have hm := hmarkers e he
    cases hv : e.2 <;> first | rfl | simp [hv, encValue] at hm
  exact ⟨stored, hgraph, hmarkers, hfield, hmask, hredact ▸ hyaml, hhash⟩

end Spec

section Sample

def sampleService : Service :=
  { cipher := some .sample, binPath := "/otelcol" }

def sampleEntropy : Entropy :=
  { nonce := fun _ => .ok ⟨List.replicate 12 7, rfl⟩, exampleKey := fun _ => "" }

def sampleSecret (plaintext : String) : Value :=
  newEncValue (1 :: (List.replicate 12 7 ++ plaintext.toList.flatMap Crypto.runeBytes))

def clickhouse (password : Value) : Node :=
  { type := "clickhouse", config := some [("endpoint", .str "tcp://db:9000"), ("password", password)] }

def otlphttp (authorization : Value) : Node :=
  { type := "otlphttp", config := some [
      ("endpoint", .str "https://otlp.example.com"),
      ("headers", .obj [("authorization", authorization)])] }

def sampleGraph (exporters : List Node) : Graph :=
  { signals := ["logs"], processors := [], exporters := exporters }

def sampleCandidate : Candidate where
  cust := { id := 1, slug := "acme-corp", clientID := "cust_aaaa1111" }
  name := "Backup"
  targetClass := .forwarding
  exclude := none
  graph := sampleGraph [otlphttp (.str "Bearer new"), clickhouse (.str RedactedSentinel)]
  prev := some (sampleGraph [otlphttp (sampleSecret "Bearer old"), clickhouse (sampleSecret "hunter2")])
  actor := none
  versionID := 5
  rnd := sampleEntropy

theorem sampleCandidate_keeps_secrets :
    letI := Runtime.sample
    ∃ nv res, prepare sampleService sampleCandidate [] = .ok (.version nv res) ∧
      ∃ stored, nv.graph = marshalGraph stored ∧ ∀ e ∈ stored.secrets, (encValue e.2).isSome := by
  let _ := Runtime.sample
  obtain ⟨nv, res, h⟩ : ∃ nv res, prepare sampleService sampleCandidate [] = .ok (.version nv res) :=
    ⟨_, _, rfl⟩
  have hprev : ∀ g, sampleCandidate.prev = some g → g.WF := by
    rintro g ⟨⟩
    decide
  have ⟨stored, hg, hm, _⟩ := prepare_keeps_secrets sampleService sampleCandidate [] nv res hprev
    (by rintro e (_ | ⟨_, _ | ⟨_, ⟨⟩⟩⟩) <;> exact ⟨_, rfl⟩) h
  exact ⟨nv, res, h, stored, hg, hm⟩

end Sample

end Pipelines
