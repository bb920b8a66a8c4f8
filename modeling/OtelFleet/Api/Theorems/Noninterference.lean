import OtelFleet.Api.Pipelines
import OtelFleet.Pipelines.Theorems.Fragment
import OtelFleet.Pipelines.Theorems.Stored
import OtelFleet.Pipelines.Theorems.TwoStores

-- What a client learns about stored secrets.
namespace Api

open Json (Value)
open Crypto (Cipher)
open Store (DB)
open Pipelines

section Responses

theorem requirePipelineAccess_eq (h : SameButSecrets c db db') (who : Option Principal) (pipelineID : Store.UUID) :
    requirePipelineAccess who db pipelineID = requirePipelineAccess who db' pipelineID := by
  simp only [requirePipelineAccess, h.getPipeline]

theorem versionResponse_eq (h : v.graph.Alike c v'.graph) (ho : v' = { v with graph := v'.graph }) (status : Nat) :
    versionResponse status v = versionResponse status v' := by
  obtain ⟨doc, hdoc⟩ : ∃ doc, v' = { v with graph := doc } := ⟨_, ho⟩
  subst hdoc
  simp only [versionResponse, toVersion] at h ⊢
  generalize v.graph = old at h
  cases h
  case malformed reason => rfl
  case graph g g' hg =>
    have hr : redactGraphSecrets g = redactGraphSecrets g' := by
      rw [redactGraphSecrets_eq, redactGraphSecrets_eq]
      exact hg.mapSecrets_eq fun _ _ _ => SameSecret.redacted_eq
    simp only [parseGraph, hr]

theorem getPipelineVersion_eq (h : SameButSecrets c db db') (who : Option Principal)
    (pipelineID : Store.UUID) (version : Nat) :
    getPipelineVersion db who pipelineID version = getPipelineVersion db' who pipelineID version := by
  simp only [getPipelineVersion, requirePipelineAccess_eq h]
  obtain ⟨he, he'⟩ | ⟨v, v', hv, hv', hdoc, ho⟩ := h.getPipelineVersion pipelineID version
  · simp only [he, he']
  · simp only [hv, hv', versionResponse_eq hdoc ho]

theorem redactGraphSecrets_stored (g : Graph) : redactGraphSecrets g.stored = (redactGraphSecrets g).stored := by
  rw [redactGraphSecrets_eq, redactGraphSecrets_eq]
  refine Graph.mapSecrets_stored (fun _ x => ?_) g
  cases x <;> rfl

theorem versionByID_append {db : DB} {id : Store.UUID} (row : Store.VersionRow) (hid : row.id = id)
    (h : db.version? id = none) :
    DB.versionByID { db with versions := db.versions ++ [row] } id = db.readVersion row := by
  have hfind : DB.version? { db with versions := db.versions ++ [row] } id = some row := by
    unfold DB.version? at h ⊢
    simp [List.find?_append, h, hid]
  rw [DB.versionByID, hfind]
  rfl

theorem savedResponse_version {db db' : DB} (h : SameButSecrets c db db') (v : Store.NewPipelineVersion)
    {stored stored' : Graph} (hr : redactGraphSecrets stored = redactGraphSecrets stored') :
    savedResponse v.id (inserted (db.createPipelineVersion { v with graph := marshalGraph stored })) =
      savedResponse v.id
        (inserted (db'.createPipelineVersion { v with graph := marshalGraph stored' })) := by
  simp only [DB.createPipelineVersion, h.pipeline?, h.latest]
  split_ifs
  case pos => rfl
  case neg =>
    obtain ⟨e, he, he'⟩ | ⟨row, hid, hg, hn, hn', hi, hi'⟩ := h.insertPipelineVersion
      { v with graph := marshalGraph stored } (marshalGraph stored') ((db'.latest v.pipelineID).getD 0 + 1)
    · simp only [he, he']
    · have hg : row.graph = marshalGraph stored := hg
      have hrow : row = { row with graph := marshalGraph stored } := by rw [← hg]
      simp only [hi, hi', inserted, savedResponse]
      rw [versionByID_append row hid hn,
        versionByID_append { row with graph := marshalGraph stored' } hid hn', DB.readVersion,
        DB.readVersion, h.pipeline?, h.users, hrow]
      cases db'.pipeline? row.pipelineID
      case none => rfl
      case some p =>
        simp only [Option.map_some, versionResponse, toVersion, marshalGraph, parseGraph,
          redactGraphSecrets_stored, hr]

end Responses

section Saves

variable [Runtime] {s : Service} {db db' : DB}

theorem validate_eq (hs : SchemaIgnoresPasswords) (ho : OtelcolIgnoresPasswords)
    (h : List.Forall₂ RenderPipeline.Alike others others') :
    validate binPath targetClass p others = validate binPath targetClass p others' := by
  have hp : p.Alike p := ⟨rfl, rfl, rfl, .refl (fun _ => .inl rfl) _⟩
  have hrefl : List.Forall₂ RenderPipeline.Alike others others :=
    List.forall₂_same.mpr fun q _ => ⟨rfl, rfl, rfl, .refl (fun _ => .inl rfl) _⟩
  rw [validate_alike hs ho hp h, ← validate_alike hs ho hp hrefl]

theorem validatePipeline_eq (hs : SchemaIgnoresPasswords) (ho : OtelcolIgnoresPasswords)
    (h : SameButSecrets s.cipher db db') (targetClass : Option Store.TargetClass) (g : Graph) :
    validatePipeline s db targetClass g = validatePipeline s db' targetClass g := by
  simp only [validatePipeline, validateDraft]
  cases targetClass.getD .forwarding
  case edge => rfl
  case forwarding =>
    obtain ⟨e, he, he'⟩ | ⟨rps, rps', hr, hr', hall⟩ :=
      activeRenderPipelines_alike (h.listActivePipelines .forwarding none) none
    · simp only [he, he']
    · simp only [hr, hr', validate_eq hs ho hall]

theorem create_alike (hs : SchemaIgnoresPasswords) (ho : OtelcolIgnoresPasswords)
    (h : SameButSecrets s.cipher db db') (a : CreateArgs) :
    (∃ e, create s db a = .error e ∧ create s db' a = .error e) ∨
    (∃ res, create s db a = .ok (.invalid res) ∧ create s db' a = .ok (.invalid res)) ∨
    ∃ db₁ db₁', create s db a = .ok (.stored db₁) ∧ create s db' a = .ok (.stored db₁') ∧
      SameButSecrets s.cipher db₁ db₁' := by
  simp only [create, h.getCustomer, h.listPipelines, bind, Except.bind]
  cases checkName a.name
  case error e => exact .inl ⟨e, rfl, rfl⟩
  case ok name =>
    cases checkCustomer (db'.getCustomer a.customerID)
    case error e => exact .inl ⟨e, rfl, rfl⟩
    case ok cust =>
      cases hslug : checkSlug name (db'.listPipelines (some a.customerID))
      case error e => exact .inl ⟨e, by simp [hslug], by simp [hslug]⟩
      case ok =>
        simp only [hslug, save, Candidate.active]
        have hactive := h.listActivePipelines a.targetClass (customerScope (.of cust) a.targetClass)
        have hprep := prepare_alike (c := a.candidate name cust) hs ho .none hactive
        simp only [CreateArgs.candidate] at hprep ⊢
        generalize prepare s _ (db.listActivePipelines a.targetClass _) = r at hprep ⊢
        generalize prepare s _ (db'.listActivePipelines a.targetClass _) = r' at hprep ⊢
        cases hprep
        case error e => exact .inl ⟨_, rfl, rfl⟩
        case invalid res _ => exact .inr (.inl ⟨res, rfl, rfl⟩)
        case refused res hplain hplain' _ _ =>
          obtain rfl := Option.some.inj (hplain.symm.trans hplain')
          exact .inr (.inl ⟨_, rfl, rfl⟩)
        case version stored _ nv _ hstored hstored' _ _ =>
          obtain rfl := Except.ok.inj (hstored.symm.trans hstored')
          obtain ⟨e, he, he'⟩ | ⟨db₁, db₁', hdb, hdb', halike⟩ := h.createPipeline (a.newPipeline name)
            { nv with pipelineID := a.pipelineID, graph := marshalGraph stored }
          · simp only [he, he', inserted]
            exact .inl ⟨_, rfl, rfl⟩
          · simp only [hdb, hdb', inserted]
            exact .inr (.inr ⟨db₁, db₁', rfl, rfl, halike⟩)

theorem createPipeline_eq (hs : SchemaIgnoresPasswords) (ho : OtelcolIgnoresPasswords)
    (h : SameButSecrets s.cipher db db') (who : Option Principal) (a : CreateArgs) :
    createPipeline s db who a = createPipeline s db' who a := by
  unfold createPipeline
  obtain ⟨e, he, he'⟩ | ⟨res, hr, hr'⟩ | ⟨db₁, db₁', hdb, hdb', halike⟩ := create_alike hs ho h a
  · rw [he, he']
  · rw [hr, hr']
  · rw [hdb, hdb']
    simp only [halike.getPipeline]

-- The request passes the structural checks and is refused afterwards, and it carries a sentinel where
-- the databases hold different plaintexts.
def Discloses (s : Service) (db db' : DB) (who : Option Principal) (a : VersionArgs) : Prop :=
  requirePipelineAccess who db a.pipelineID ∧ ∃ pipe prev prev' plain others,
    db.getPipeline a.pipelineID = .ok pipe ∧
    previousGraph db pipe = .ok prev ∧ previousGraph db' pipe = .ok prev' ∧
    resolve s (a.candidate pipe prev) = some plain ∧
    activeRenderPipelines s (some a.pipelineID) ((a.candidate pipe prev).active db) = .ok others ∧
    Refused pipe.targetClass ((a.candidate pipe prev).render plain) others ∧
    ∃ path v v', (path, .str RedactedSentinel) ∈ a.graph.secrets ∧
      (secretsOf prev).reverse.lookup path = some v ∧
      (secretsOf prev').reverse.lookup path = some v' ∧
      plaintextOf s.cipher v ≠ plaintextOf s.cipher v'

def PrintsApart (s : Service) (db db' : DB) (a : VersionArgs) : Prop :=
  ∀ pipe prev prev' plain plain', db.getPipeline a.pipelineID = .ok pipe →
    previousGraph db pipe = .ok prev → previousGraph db' pipe = .ok prev' →
    resolve s (a.candidate pipe prev) = some plain →
    resolve s (a.candidate pipe prev') = some plain' →
    Set.InjOn Runtime.marshalYAML
      {fragmentTreeOf pipe.targetClass ((a.candidate pipe prev).render plain),
        fragmentTreeOf pipe.targetClass ((a.candidate pipe prev).render plain')}

theorem sameConfigs_resolve_iff (hprev : Option.Rel (Graph.Alike (SameSecret s.cipher)) c.prev prev')
    (h : resolve s c = some plain) (h' : resolve s { c with prev := prev' } = some plain') :
    SameConfigs (c.render plain) (c.render plain') ↔
      ∀ path v v', (path, .str RedactedSentinel) ∈ c.graph.secrets →
        (secretsOf c.prev).reverse.lookup path = some v →
        (secretsOf prev').reverse.lookup path = some v' →
        plaintextOf s.cipher v = plaintextOf s.cipher v' := by
  have ⟨stored, henc, hdec⟩ := resolve_eq_some h
  have ⟨stored', henc', hdec'⟩ := resolve_eq_some h'
  rw [(decryptGraphSecrets_eq_ok.mp hdec).right, (decryptGraphSecrets_eq_ok.mp hdec').right,
    (encryptGraphSecrets_eq_ok.mp henc).right, (encryptGraphSecrets_eq_ok.mp henc').right,
    Graph.mapSecrets_mapSecrets, Graph.mapSecrets_mapSecrets]
  refine (sameConfigs_mapSecrets_iff (c.render c.graph) c.graph).trans ?_
  constructor
  · intro hsame path v v' hm hl hl'
    have ⟨w, hw, hr⟩ := resolve_sentinel h hm
    have ⟨w', hw', hr'⟩ := resolve_sentinel h' hm
    obtain rfl := Option.some.inj (hl.symm.trans hw)
    obtain rfl := Option.some.inj (hl'.symm.trans hw')
    have ht := hsame _ hm
    rw [hr, hr'] at ht
    simpa [toNode] using ht
  · rintro hsame ⟨path, x⟩ hm
    obtain he | ⟨hx, _⟩ := encryptField_alike hprev c.rnd path x
    · simp only [Walk.Guide.valueAt, he]
    · obtain rfl : x = .str RedactedSentinel := hx
      have ⟨v, hl, hr⟩ := resolve_sentinel h hm
      have ⟨v', hl', hr'⟩ := resolve_sentinel h' hm
      rw [hr, hr', hsame path v v' hm hl hl']

theorem savedResponse_eq_iff (hs : SchemaIgnoresPasswords) (ho : OtelcolIgnoresPasswords)
    (h : SameButSecrets s.cipher db db') (hprev : Option.Rel (Graph.Alike (SameSecret s.cipher)) c.prev prev')
    (hyaml : ∀ plain plain', resolve s c = some plain → resolve s { c with prev := prev' } = some plain' →
      Set.InjOn Runtime.marshalYAML {fragmentTreeOf c.targetClass (c.render plain),
        fragmentTreeOf c.targetClass (c.render plain')}) (pipelineID : Store.UUID) :
    savedResponse c.versionID (save s db c fun nv =>
        db.createPipelineVersion { nv with pipelineID := pipelineID }) =
      savedResponse c.versionID (save s db' { c with prev := prev' } fun nv =>
        db'.createPipelineVersion { nv with pipelineID := pipelineID }) ↔
    ¬∃ plain others, resolve s c = some plain ∧
      activeRenderPipelines s c.exclude (c.active db) = .ok others ∧
      Refused c.targetClass (c.render plain) others ∧
      ∃ path v v', (path, .str RedactedSentinel) ∈ c.graph.secrets ∧
        (secretsOf c.prev).reverse.lookup path = some v ∧
        (secretsOf prev').reverse.lookup path = some v' ∧
        plaintextOf s.cipher v ≠ plaintextOf s.cipher v' := by
  have hactive := h.listActivePipelines c.targetClass (customerScope c.cust c.targetClass)
  have hprep := prepare_alike hs ho hprev hactive
  have hrefused : ∀ plain others, resolve s c = some plain →
      activeRenderPipelines s c.exclude (c.active db) = .ok others →
      Refused c.targetClass (c.render plain) others → _ := fun _ _ => prepare_of_refused
  simp only [save, Candidate.active] at hrefused ⊢
  generalize prepare s c (db.listActivePipelines c.targetClass _) = r at hprep hrefused ⊢
  generalize prepare s { c with prev := prev' } (db'.listActivePipelines c.targetClass _) = r' at hprep ⊢
  cases hprep
  case error e =>
    refine iff_of_true rfl ?_
    rintro ⟨plain, others, hplain, hothers, hr, _⟩
    have ⟨_, he, _⟩ := hrefused plain others hplain hothers hr
    cases he
  case invalid res hnone =>
    refine iff_of_true rfl ?_
    rintro ⟨plain, others, hplain, hothers, hr, _⟩
    have ⟨_, he, hsome⟩ := hrefused plain others hplain hothers hr
    cases he
    exact hsome hnone
  case version nv _ hstored hstored' hid hr =>
    refine iff_of_true ?_ ?_
    · have hsaved := savedResponse_version h { nv with pipelineID := pipelineID } hr
      simpa only [hid] using hsaved
    · rintro ⟨plain, others, hplain, hothers, hr, _⟩
      have ⟨_, he, _⟩ := hrefused plain others hplain hothers hr
      cases he
  case refused plain plain' others res hplain hplain' hothers hr =>
    have halike : (c.render plain).Alike (c.render plain') :=
      ⟨rfl, rfl, rfl, resolve_alike hprev hplain hplain'⟩
    have hfragment : renderFragmentOf c.targetClass (c.render plain) =
        renderFragmentOf c.targetClass (c.render plain') ↔
        SameConfigs (c.render plain) (c.render plain') := by
      rw [renderFragmentOf_eq, renderFragmentOf_eq, ← fragmentTreeOf_eq_iff halike.sameShape c.targetClass]
      exact (hyaml plain plain' hplain hplain').eq_iff (by simp) (by simp)
    simp only [savedResponse, toValidationResult, Response.validation.injEq, true_and,
      ValidationResult.mk.injEq, Option.some.injEq, hfragment, sameConfigs_resolve_iff hprev hplain hplain']
    constructor
    · rintro hsame ⟨_, _, _, _, _, path, v, v', hm, hl, hl', hne⟩
      exact hne (hsame path v v' hm hl hl')
    · intro hnone path v v' hm hl hl'
      by_contra hne
      exact hnone ⟨plain, others, hplain, hothers, hr, path, v, v', hm, hl, hl', hne⟩

theorem createPipelineVersion_eq_iff (hs : SchemaIgnoresPasswords) (ho : OtelcolIgnoresPasswords)
    (h : SameButSecrets s.cipher db db') (who : Option Principal) (a : VersionArgs) (hyaml : PrintsApart s db db' a) :
    createPipelineVersion s db who a = createPipelineVersion s db' who a ↔
      ¬Discloses s db db' who a := by
  simp only [createPipelineVersion, Discloses, ← requirePipelineAccess_eq h]
  cases requirePipelineAccess who db a.pipelineID
  case false => simp
  case true =>
    simp only [createVersion, ← h.getPipeline, bind, Except.bind]
    cases hpipe : db.getPipeline a.pipelineID
    case error e => simp [ofStore]
    case ok pipe =>
      obtain ⟨e, he, he'⟩ | ⟨prev, prev', hp, hp', hprev⟩ := previousGraph_alike h pipe
      case inl => simp [ofStore, he, he']
      case inr =>
        have hyaml := fun plain plain' => hyaml pipe prev prev' plain plain' hpipe hp hp'
        have hsaved := savedResponse_eq_iff hs ho h (c := a.candidate pipe prev) hprev hyaml a.pipelineID
        simp only [ofStore, hp, hp', Bool.not_true, Bool.false_eq_true, if_false, Except.ok.injEq,
          true_and, existsAndEq]
        exact hsaved

end Saves

section Noninterference

variable [Runtime]

-- Databases that only differ in the plaintexts of stored secrets cannot be told apart by a client,
-- except through the fragment of a refused version.
theorem respond_eq_iff (s : Service) (db db' : DB) (who : Option Principal) (fresh : Fresh)
    (req : Request) (h : SameButSecrets s.cipher db db') (hs : SchemaIgnoresPasswords) (ho : OtelcolIgnoresPasswords)
    (hyaml : ∀ pipelineID g, req = .createPipelineVersion pipelineID g →
      PrintsApart s db db' (versionArgs who fresh pipelineID g)) :
    respond s db who fresh req = respond s db' who fresh req ↔
      ∀ pipelineID g, req = .createPipelineVersion pipelineID g →
        ¬Discloses s db db' who (versionArgs who fresh pipelineID g) := by
  cases req
  case createPipeline customerID name targetClass g =>
    simp only [respond, createPipeline_eq hs ho h, reduceCtorEq, false_imp_iff, implies_true]
  case createPipelineVersion pipelineID g =>
    rw [respond, respond, createPipelineVersion_eq_iff hs ho h who _ (hyaml pipelineID g rfl)]
    simp
  case getPipelineVersion pipelineID version =>
    simp only [respond, getPipelineVersion_eq h, reduceCtorEq, false_imp_iff, implies_true]
  case validatePipeline targetClass g =>
    simp only [respond, validatePipeline_eq hs ho h, reduceCtorEq, false_imp_iff, implies_true]

end Noninterference

section Sample

def sampleStore (password : String) : DB where
  users := []
  customers := [{
    id := 1, name := "Acme Corp", slug := "acme-corp", clientID := "cust_aaaa1111", status := .active }]
  pipelines := [{
    id := 10, customerID := 1, name := "Backup", targetClass := .forwarding, activeVersionID := none }]
  versions := [{
    id := 20
    pipelineID := 10
    version := 1
    graph := .graph (sampleGraph [clickhouse (sampleSecret password)])
    renderedYAML := ""
    configHash := []
    validationStatus := .valid
    validationOutput := none
    createdBy := none }]

theorem sampleStore_same : SameButSecrets (some .sample) (sampleStore "alpha") (sampleStore "beta") := by
  refine ⟨rfl, rfl, rfl, .cons ⟨.graph ?_, rfl⟩ .nil⟩
  refine ⟨sampleGraph [clickhouse .null], fun _ _ => sampleSecret "alpha", fun _ _ => sampleSecret "beta",
    rfl, rfl, fun _ _ => .inr ⟨⟨_, "alpha", rfl, rfl⟩, ⟨_, "beta", rfl, rfl⟩⟩⟩

def sampleRequest (password : String) : Request :=
  .createPipelineVersion 10 {
    signals := ["logs"]
    processors := [{ type := "transform", config := some [("log_statements", .arr [.str "drop("])] }]
    exporters := [clickhouse (.str password)] }

def sampleFresh : Fresh :=
  { pipelineID := 30, versionID := 40, rnd := sampleEntropy }

@[reducible]
def rejecting : Runtime :=
  { Runtime.sample with otelcolValidate := some fun _ => some "Error: invalid configuration" }

theorem rejecting_ignores_passwords :
    letI := rejecting
    SchemaIgnoresPasswords ∧ OtelcolIgnoresPasswords := by
  let _ := rejecting
  refine ⟨fun _ _ _ _ _ _ => rfl, ?_⟩
  rintro run ⟨⟩ _ _ _ _ _ _ _ _
  rfl

-- A new password may be refused without a trace of the stored one.
theorem refused_discloses_nothing_new :
    letI := rejecting
    respond sampleService (sampleStore "alpha") none sampleFresh (sampleRequest "gamma") =
      respond sampleService (sampleStore "beta") none sampleFresh (sampleRequest "gamma") := by
  let _ := rejecting
  have ⟨hs, ho⟩ := rejecting_ignores_passwords
  refine (respond_eq_iff sampleService _ _ none sampleFresh _ sampleStore_same hs ho ?_).mpr ?_
  · rintro _ _ ⟨⟩ _ _ _ _ _ ⟨⟩ ⟨⟩ ⟨⟩ ⟨⟩ ⟨⟩
    exact Set.injOn_pair.mpr fun _ => rfl
  · rintro _ _ ⟨⟩ ⟨_, _, _, _, _, _, _, _, _, _, _, _, path, _, _, hm, _⟩
    obtain he | ⟨_, ⟨⟩⟩ := List.mem_cons.mp hm
    exact absurd (Value.str.inj (congrArg Prod.snd he)) (by decide)

def sampleFragment [Runtime] (password : String) : Yaml.Node :=
  fragmentTreeOf .forwarding {
    customerSlug := "acme-corp"
    clientID := "cust_aaaa1111"
    pipelineSlug := "backup"
    graph := {
      signals := ["logs"]
      processors := [{ type := "transform", config := some [("log_statements", .arr [.str "drop("])] }]
      exporters := [clickhouse (.str password)] } }

theorem sampleFragment_ne :
    rejecting.marshalYAML (@sampleFragment rejecting "alpha") ≠
      rejecting.marshalYAML (@sampleFragment rejecting "beta") := by
  refine @Runtime.sample_marshalYAML_ne (@sampleFragment rejecting "alpha")
    (@sampleFragment rejecting "beta") 7 rfl rfl _ _ rfl rfl ?_
  decide

-- The stored password comes back to a client that only knows the sentinel.
theorem refused_discloses_password :
    letI := rejecting
    SchemaIgnoresPasswords ∧ OtelcolIgnoresPasswords ∧
      SameButSecrets sampleService.cipher (sampleStore "alpha") (sampleStore "beta") ∧
      respond sampleService (sampleStore "alpha") none sampleFresh (sampleRequest RedactedSentinel) ≠
        respond sampleService (sampleStore "beta") none sampleFresh (sampleRequest RedactedSentinel) := by
  let _ := rejecting
  have ⟨hs, ho⟩ := rejecting_ignores_passwords
  refine ⟨hs, ho, sampleStore_same, fun he => ?_⟩
  let shown (password : String) : Response := .validation 400 {
    valid := false
    errors := [⟨none, "otelcol validate failed: " ++ "Error: invalid configuration"⟩]
    renderedYAML := some (Runtime.marshalYAML (sampleFragment password)) }
  have halpha : respond sampleService (sampleStore "alpha") none sampleFresh
    (sampleRequest RedactedSentinel) = shown "alpha" := rfl
  have hbeta : respond sampleService (sampleStore "beta") none sampleFresh
    (sampleRequest RedactedSentinel) = shown "beta" := rfl
  rw [halpha, hbeta] at he
  have hyaml := congrArg ValidationResult.renderedYAML (Response.validation.inj he).right
  exact sampleFragment_ne (Option.some.inj hyaml)

end Sample

end Api
