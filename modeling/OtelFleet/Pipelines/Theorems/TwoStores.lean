import OtelFleet.Pipelines.Operations
import OtelFleet.Pipelines.Theorems.Alike

-- What the service makes of two databases that differ in the plaintexts of stored secrets alone.
namespace Pipelines

open Json (Value)
open Crypto (Cipher)
open Walk.Guide (valueAt)
open Store (UUID DB VersionRow ActivePipeline PipelineVersion NewPipelineVersion TargetClass)

inductive Document.Alike (c : Cipher) : Document → Document → Prop
  | graph {g g' : Graph} (h : g.Alike (SameSecret c) g') : Alike c (.graph g) (.graph g')
  | malformed (reason : String) : Alike c (.malformed reason) (.malformed reason)

structure VersionAlike (c : Cipher) (v v' : VersionRow) : Prop where
  graph : v.graph.Alike c v'.graph
  others : v' = { v with graph := v'.graph }

structure ActiveAlike (c : Cipher) (ap ap' : ActivePipeline) : Prop where
  graph : ap.graph.Alike c ap'.graph
  others : ap' = { ap with graph := ap'.graph }

-- The databases are identical, except for the plaintexts behind the markers in stored graphs.
structure SameButSecrets (c : Cipher) (db db' : DB) : Prop where
  users : db.users = db'.users
  customers : db.customers = db'.customers
  pipelines : db.pipelines = db'.pipelines
  versions : List.Forall₂ (VersionAlike c) db.versions db'.versions

namespace VersionAlike

theorem id (h : VersionAlike c v v') : v.id = v'.id := by rw [h.others]

theorem pipelineID (h : VersionAlike c v v') : v.pipelineID = v'.pipelineID := by rw [h.others]

theorem version (h : VersionAlike c v v') : v.version = v'.version := by rw [h.others]

end VersionAlike

namespace SameButSecrets

theorem customer? (h : SameButSecrets c db db') (id : UUID) : db.customer? id = db'.customer? id := by
  rw [DB.customer?, h.customers, DB.customer?]

theorem pipeline? (h : SameButSecrets c db db') (id : UUID) : db.pipeline? id = db'.pipeline? id := by
  rw [DB.pipeline?, h.pipelines, DB.pipeline?]

theorem version? (h : SameButSecrets c db db') (id : UUID) :
    (db.version? id = none ∧ db'.version? id = none) ∨
      ∃ v v', db.version? id = some v ∧ db'.version? id = some v' ∧ VersionAlike c v v' :=
  h.versions.find_rel fun _ _ hv => by rw [hv.id]

theorem latest (h : SameButSecrets c db db') (pipelineID : UUID) : db.latest pipelineID = db'.latest pipelineID := by
  have hof : List.Forall₂ (VersionAlike c) (db.versionsOf pipelineID) (db'.versionsOf pipelineID) :=
    List.rel_filter (fun _ _ hv => by simp only [hv.pipelineID]) h.versions
  rw [DB.latest, hof.map_eq fun _ _ => VersionAlike.version, DB.latest]

theorem readPipeline (h : SameButSecrets c db db') : db.readPipeline = db'.readPipeline := by
  have hactive : ∀ id, (db.version? id).map (·.version) = (db'.version? id).map (·.version) := by
    intro id
    obtain ⟨he, he'⟩ | ⟨v, v', he, he', hv⟩ := h.version? id
    · rw [he, he']
    · simp only [he, he', Option.map_some, hv.version]
  funext p
  have hversion : (p.activeVersionID.bind db.version?).map (·.version) =
      (p.activeVersionID.bind db'.version?).map (·.version) := by
    cases p.activeVersionID
    case none => rfl
    case some id => exact hactive id
  simp only [DB.readPipeline, h.customer?, h.latest, hversion]

theorem getCustomer (h : SameButSecrets c db db') (id : UUID) : db.getCustomer id = db'.getCustomer id := by
  rw [DB.getCustomer, h.customer?, DB.getCustomer]

theorem getPipeline (h : SameButSecrets c db db') (id : UUID) : db.getPipeline id = db'.getPipeline id := by
  rw [DB.getPipeline, h.pipeline?, h.readPipeline, DB.getPipeline]

theorem listPipelines (h : SameButSecrets c db db') (customerID : Option UUID) :
    db.listPipelines customerID = db'.listPipelines customerID := by
  simp only [DB.listPipelines, h.pipelines, h.customer?, h.readPipeline]

theorem getPipelineVersion (h : SameButSecrets c db db') (pipelineID : UUID) (version : Nat) :
    (db.getPipelineVersion pipelineID version = .error .notFound ∧
      db'.getPipelineVersion pipelineID version = .error .notFound) ∨
    ∃ v v', db.getPipelineVersion pipelineID version = .ok v ∧
      db'.getPipelineVersion pipelineID version = .ok v' ∧
      v.graph.Alike c v'.graph ∧ v' = { v with graph := v'.graph } := by
  have hrow := h.versions.find_rel (p := fun v => v.pipelineID = pipelineID ∧ v.version = version)
    (q := fun v => v.pipelineID = pipelineID ∧ v.version = version)
    fun _ _ hv => by rw [hv.pipelineID, hv.version]
  simp only [DB.getPipelineVersion]
  obtain ⟨he, he'⟩ | ⟨v, v', he, he', hv⟩ := hrow
  case inl => exact .inl ⟨by rw [he]; rfl, by rw [he']; rfl⟩
  case inr =>
    obtain ⟨doc, hdoc⟩ : ∃ doc, v' = { v with graph := doc } := ⟨_, hv.others⟩
    have hgraph := hv.graph
    subst hdoc
    simp only [he, he', Option.bind_some, DB.readVersion, h.pipeline?, h.users]
    cases db'.pipeline? v.pipelineID
    case none => exact .inl ⟨rfl, rfl⟩
    case some p => exact .inr ⟨_, _, rfl, rfl, hgraph, rfl⟩

theorem activePipeline (h : SameButSecrets c db db') (p : Store.PipelineRow) :
    Option.Rel (ActiveAlike c) (db.activePipeline p) (db'.activePipeline p) := by
  unfold DB.activePipeline
  rw [h.customer?]
  cases db'.customer? p.customerID
  case none => exact .none
  case some cust =>
    cases p.activeVersionID
    case none => exact .none
    case some id =>
      simp only [Option.bind_eq_bind, Option.bind_some]
      obtain ⟨he, he'⟩ | ⟨v, v', he, he', hv⟩ := h.version? id
      · simp only [he, he']
        exact .none
      · simp only [he, he', Option.bind_some]
        split_ifs
        · exact .some ⟨hv.graph, rfl⟩
        · exact .none

theorem listActivePipelines (h : SameButSecrets c db db') (targetClass : TargetClass) (customerID : Option UUID) :
    List.Forall₂ (ActiveAlike c) (db.listActivePipelines targetClass customerID)
      (db'.listActivePipelines targetClass customerID) := by
  unfold DB.listActivePipelines
  refine List.Forall₂.insertionSort ?_ fun a b a' b' hab hab' => by rw [hab.others, hab'.others]
  rw [h.pipelines]
  have hrefl : List.Forall₂ Eq (db'.pipelines.filter fun p =>
      p.targetClass = targetClass ∧ customerID.all (· = p.customerID)) _ := List.forall₂_refl _
  exact List.rel_filterMap (fun p p' hp => hp ▸ h.activePipeline p) hrefl

theorem exists_version_iff (h : SameButSecrets c db db') (pipelineID : UUID) (version : Nat) :
    (∃ w ∈ db.versions, w.pipelineID = pipelineID ∧ w.version = version) ↔
      ∃ w ∈ db'.versions, w.pipelineID = pipelineID ∧ w.version = version := by
  have hmap := h.versions.map_eq (f := fun v => (v.pipelineID, v.version))
    (g := fun v => (v.pipelineID, v.version)) fun _ _ hv => by rw [hv.pipelineID, hv.version]
  simpa using congrArg ((pipelineID, version) ∈ ·) hmap

theorem insertPipelineVersion (h : SameButSecrets c db db') (v : NewPipelineVersion) (doc : Document) (version : Nat) :
    (∃ e, db.insertPipelineVersion v version = .error e ∧
      db'.insertPipelineVersion { v with graph := doc } version = .error e) ∨
    ∃ row : VersionRow, row.id = v.id ∧ row.graph = v.graph ∧
      db.version? v.id = none ∧ db'.version? v.id = none ∧
      db.insertPipelineVersion v version = .ok { db with versions := db.versions ++ [row] } ∧
      db'.insertPipelineVersion { v with graph := doc } version =
        .ok { db' with versions := db'.versions ++ [{ row with graph := doc }] } := by
  have hid : (db.version? v.id).isSome = (db'.version? v.id).isSome := by
    obtain ⟨he, he'⟩ | ⟨_, _, he, he', _⟩ := h.version? v.id <;> simp only [he, he', Option.isSome]
  simp only [DB.insertPipelineVersion, hid, h.pipeline?, h.exists_version_iff]
  split_ifs with hc
  case pos => exact .inl ⟨_, rfl, rfl⟩
  case neg =>
    simp only [not_or, Bool.not_eq_true, Option.isSome_eq_false_iff, Option.isNone_iff_eq_none] at hc
    have hnone : db.version? v.id = none := by
      rw [← Option.isNone_iff_eq_none, ← Option.isSome_eq_false_iff, hid, hc.left]
      rfl
    exact .inr ⟨_, rfl, rfl, hnone, hc.left, rfl, rfl⟩

end SameButSecrets

theorem SameSecret.refl (c : Cipher) (v : Value) : SameSecret c v v :=
  .inl rfl

theorem Document.Alike.refl (c : Cipher) (doc : Document) : doc.Alike c doc := by
  cases doc
  case graph g => exact .graph (.refl (SameSecret.refl c) g)
  case malformed reason => exact .malformed reason

theorem SameButSecrets.createPipeline (h : SameButSecrets c db db') (p : Store.NewPipeline) (v : NewPipelineVersion) :
    (∃ e, db.createPipeline p v = .error e ∧ db'.createPipeline p v = .error e) ∨
      ∃ db₁ db₁', db.createPipeline p v = .ok db₁ ∧ db'.createPipeline p v = .ok db₁' ∧
        SameButSecrets c db₁ db₁' := by
  simp only [DB.createPipeline, h.customer?, h.pipeline?, h.pipelines]
  split_ifs
  · exact .inl ⟨_, rfl, rfl⟩
  · exact .inl ⟨_, rfl, rfl⟩
  · have hrow : SameButSecrets c
        { db with pipelines := db'.pipelines ++ [⟨p.id, p.customerID, p.name, p.targetClass, none⟩] }
        { db' with pipelines := db'.pipelines ++ [⟨p.id, p.customerID, p.name, p.targetClass, none⟩] } :=
      ⟨h.users, h.customers, rfl, h.versions⟩
    obtain he | ⟨row, _, hg, _, _, hi, hi'⟩ := hrow.insertPipelineVersion v v.graph 1
    · exact .inl he
    · refine .inr ⟨_, _, hi, hi', h.users, h.customers, rfl, ?_⟩
      exact List.rel_append h.versions (.cons ⟨hg ▸ .refl c _, rfl⟩ .nil)
  · exact .inl ⟨_, rfl, rfl⟩

section Rendering

theorem toRender_alike (h : ActiveAlike s.cipher ap ap') :
    (∃ e, toRender s ap = .error e ∧ toRender s ap' = .error e) ∨
      ∃ rp rp', toRender s ap = .ok rp ∧ toRender s ap' = .ok rp' ∧ rp.Alike rp' := by
  obtain ⟨doc, hdoc⟩ : ∃ doc, ap' = { ap with graph := doc } := ⟨_, h.others⟩
  have hgraph := h.graph
  subst hdoc
  cases hg : ap.graph
  case malformed reason =>
    rw [hg] at hgraph
    cases hgraph
    exact .inl ⟨_, by simp only [toRender, hg, parseGraph], rfl⟩
  case graph g =>
    rw [hg] at hgraph
    cases hgraph
    case graph g' hg' =>
      simp only [toRender, hg, parseGraph]
      obtain ⟨e, he, he'⟩ | ⟨plain, plain', hp, hp', halike⟩ := decryptGraphSecrets_alike hg'
      · simp only [he, he']
        exact .inl ⟨_, rfl, rfl⟩
      · simp only [hp, hp']
        exact .inr ⟨_, _, rfl, rfl, rfl, rfl, rfl, halike⟩

theorem activeRenderPipelines_alike (h : List.Forall₂ (ActiveAlike s.cipher) aps aps') (exclude : Option UUID) :
    (∃ e, activeRenderPipelines s exclude aps = .error e ∧
      activeRenderPipelines s exclude aps' = .error e) ∨
    ∃ rps rps', activeRenderPipelines s exclude aps = .ok rps ∧
      activeRenderPipelines s exclude aps' = .ok rps' ∧
      List.Forall₂ RenderPipeline.Alike rps rps' := by
  induction h
  case nil => exact .inr ⟨[], [], rfl, rfl, .nil⟩
  case cons ap ap' aps aps' hap _ hi =>
    have hid : ap'.pipelineID = ap.pipelineID := by rw [hap.others]
    simp only [activeRenderPipelines, hid]
    split_ifs
    case pos => exact hi
    case neg =>
      obtain ⟨e, he, he'⟩ | ⟨rp, rp', hr, hr', halike⟩ := toRender_alike hap
      · exact .inl ⟨e, by rw [he], by rw [he']⟩
      · obtain ⟨e, he, he'⟩ | ⟨rps, rps', hrs, hrs', hall⟩ := hi
        · exact .inl ⟨e, by rw [hr, he], by rw [hr', he']⟩
        · exact .inr ⟨_, _, by rw [hr, hrs], by rw [hr', hrs'], .cons halike hall⟩

end Rendering

section Preparing

variable {s : Service} {c : Candidate} {prev' : Option Graph} {active active' : List ActivePipeline}

def resolve (s : Service) (c : Candidate) : Option Graph :=
  match encryptGraphSecrets c.graph s.cipher c.rnd c.prev with
  | .error _ => none
  | .ok stored => (decryptGraphSecrets stored s.cipher).toOption

theorem resolve_eq_some (h : resolve s c = some plain) :
    ∃ stored, encryptGraphSecrets c.graph s.cipher c.rnd c.prev = .ok stored ∧
      decryptGraphSecrets stored s.cipher = .ok plain := by
  unfold resolve at h
  split at h
  case _ => cases h
  case _ stored hs =>
    cases hd : decryptGraphSecrets stored s.cipher
    case error => simp [hd, Except.toOption] at h
    case ok g =>
      obtain rfl : g = plain := by simpa [hd, Except.toOption] using h
      exact ⟨stored, hs, hd⟩

theorem resolve_sentinel (h : resolve s c = some plain) (hm : (path, .str RedactedSentinel) ∈ c.graph.secrets) :
    ∃ v, (secretsOf c.prev).reverse.lookup path = some v ∧
      revealed s.cipher (valueAt (encryptField s.cipher c.rnd (secretsOf c.prev).reverse) path
        (.str RedactedSentinel)) = .str (plaintextOf s.cipher v) := by
  obtain ⟨stored, henc, hdec⟩ := resolve_eq_some h
  obtain ⟨hok, hstored⟩ := encryptGraphSecrets_eq_ok.mp henc
  obtain ⟨hread, _⟩ := decryptGraphSecrets_eq_ok.mp hdec
  obtain ⟨w, hw⟩ := hok _ hm
  obtain ⟨ct, he, _, hold⟩ := encryptField_str hw
  obtain ⟨v, hl, hp⟩ := hold rfl
  have hmem : (path, w) ∈ stored.secrets := by
    rw [hstored, Graph.secrets_mapSecrets]
    exact List.mem_map.mpr ⟨_, hm, by simp [valueAt, hw]⟩
  obtain ⟨plaintext, hd⟩ := hread _ hmem ct he
  refine ⟨v, hl, ?_⟩
  simp only [valueAt, hw]
  rw [revealed_of_decrypt he hd, hp plaintext hd]

theorem resolve_alike (hprev : Option.Rel (Graph.Alike (SameSecret s.cipher)) c.prev prev')
    (h : resolve s c = some plain)
    (h' : resolve s { c with prev := prev' } = some plain') : plain.Alike SameText plain' := by
  have ⟨stored, henc, hdec⟩ := resolve_eq_some h
  have ⟨stored', henc', hdec'⟩ := resolve_eq_some h'
  obtain ⟨e, he, _⟩ | ⟨_, _, hs, hs', hstored⟩ := encryptGraphSecrets_alike hprev c.rnd c.graph
  · cases henc.symm.trans he
  · obtain rfl := Except.ok.inj (henc.symm.trans hs)
    obtain rfl := Except.ok.inj (henc'.symm.trans hs')
    obtain ⟨e, he, _⟩ | ⟨_, _, hp, hp', hplain⟩ := decryptGraphSecrets_alike hstored
    · cases hdec.symm.trans he
    · obtain rfl := Except.ok.inj (hdec.symm.trans hp)
      obtain rfl := Except.ok.inj (hdec'.symm.trans hp')
      exact hplain

variable [Runtime]

-- The outcomes for two previous versions that are alike. Only the fragment of a refused candidate
-- and the graph of a new version tell them apart.
inductive PrepareAlike (s : Service) (c : Candidate) (prev' : Option Graph)
    (active : List ActivePipeline) : Except String Prepared → Except String Prepared → Prop
  | error (e : String) : PrepareAlike s c prev' active (.error e) (.error e)
  | invalid (res : Result) (hyaml : res.renderedYAML = none) :
      PrepareAlike s c prev' active (.ok (.invalid res)) (.ok (.invalid res))
  | refused {plain plain' : Graph} {others : List RenderPipeline} (res : Result)
      (hplain : resolve s c = some plain) (hplain' : resolve s { c with prev := prev' } = some plain')
      (hothers : activeRenderPipelines s c.exclude active = .ok others)
      (hrefused : Refused c.targetClass (c.render plain) others) :
      PrepareAlike s c prev' active
        (.ok (.invalid { res with renderedYAML := some (renderFragmentOf c.targetClass (c.render plain)) }))
        (.ok (.invalid { res with renderedYAML := some (renderFragmentOf c.targetClass (c.render plain')) }))
  | version {stored stored' : Graph} (nv : Store.NewPipelineVersion) (res : Result)
      (hstored : encryptGraphSecrets c.graph s.cipher c.rnd c.prev = .ok stored)
      (hstored' : encryptGraphSecrets c.graph s.cipher c.rnd prev' = .ok stored')
      (hid : nv.id = c.versionID)
      (hredacted : redactGraphSecrets stored = redactGraphSecrets stored') :
      PrepareAlike s c prev' active
        (.ok (.version { nv with graph := marshalGraph stored } res))
        (.ok (.version { nv with graph := marshalGraph stored' } res))

theorem prepare_alike (hs : SchemaIgnoresPasswords) (ho : OtelcolIgnoresPasswords)
    (hprev : Option.Rel (Graph.Alike (SameSecret s.cipher)) c.prev prev')
    (hactive : List.Forall₂ (ActiveAlike s.cipher) active active') :
    PrepareAlike s c prev' active (prepare s c active) (prepare s { c with prev := prev' } active') := by
  unfold prepare
  obtain ⟨e, he, he'⟩ | ⟨stored, stored', henc, henc', hstored⟩ :=
    encryptGraphSecrets_alike hprev c.rnd c.graph
  case inl =>
    simp only [he, he']
    cases e
    case failed => exact .error _
    case issues => exact .invalid _ rfl
  case inr =>
    simp only [henc, henc']
    obtain ⟨e, he, he'⟩ | ⟨plain, plain', hdec, hdec', hplain⟩ := decryptGraphSecrets_alike hstored
    case inl =>
      simp only [he, he']
      exact .error e
    case inr =>
      simp only [hdec, hdec']
      obtain ⟨e, he, he'⟩ | ⟨others, others', hr, hr', hothers⟩ :=
        activeRenderPipelines_alike hactive c.exclude
      case inl =>
        simp only [he, he']
        exact .error e
      case inr =>
        have hrender : (c.render plain).Alike (c.render plain') := ⟨rfl, rfl, rfl, hplain⟩
        have hval := validate_alike hs ho hrender hothers s.binPath c.targetClass
        have hredacted : redactGraphSecrets stored = redactGraphSecrets stored' := by
          rw [redactGraphSecrets_eq, redactGraphSecrets_eq]
          exact hstored.mapSecrets_eq fun _ _ _ => SameSecret.redacted_eq
        have hplain : resolve s c = some plain := by simp [resolve, henc, hdec, Except.toOption]
        have hplain' : resolve s { c with prev := prev' } = some plain' := by
          simp [resolve, henc', hdec', Except.toOption]
        have hc' : ∀ g, Candidate.render { c with prev := prev' } g = c.render g := fun _ => rfl
        simp only [hr, hr', hc', hval]
        generalize hv : validate s.binPath c.targetClass (c.render plain) others = res
        obtain ⟨valid, issues, yaml⟩ := res
        cases valid
        case true =>
          simp only [Bool.not_true, Bool.false_eq_true, if_false, ← hredacted]
          exact .version { id := c.versionID, graph := marshalGraph stored, .. } _ henc henc' rfl hredacted
        case false =>
          simp only [Bool.not_false, if_true]
          have hinvalid := validate_invalid (congrArg Result.valid hv)
          rw [hv] at hinvalid
          obtain ⟨rfl, _⟩ | ⟨rfl, hrefused⟩ := hinvalid
          · exact .invalid _ rfl
          · exact .refused ⟨false, issues, none⟩ hplain hplain' hr hrefused

theorem prepare_of_refused (hplain : resolve s c = some plain)
    (hothers : activeRenderPipelines s c.exclude active = .ok others)
    (h : Refused c.targetClass (c.render plain) others) :
    ∃ res, prepare s c active = .ok (.invalid res) ∧ res.renderedYAML ≠ none := by
  have ⟨stored, henc, hdec⟩ := resolve_eq_some hplain
  obtain ⟨hi, ⟨e, he⟩ | ⟨full, run, out, hf, hr, ho⟩⟩ := h
  · simp [prepare, henc, hdec, hothers, validate, hi, he]
  · simp [prepare, henc, hdec, hothers, validate, hi, hf, hr, ho]

end Preparing

theorem previousGraph_alike (h : SameButSecrets c db db') (pipe : Store.Pipeline) :
    (∃ e, previousGraph db pipe = .error e ∧ previousGraph db' pipe = .error e) ∨
      ∃ prev prev', previousGraph db pipe = .ok prev ∧ previousGraph db' pipe = .ok prev' ∧
        Option.Rel (Graph.Alike (SameSecret c)) prev prev' := by
  unfold previousGraph
  cases pipe.latestVersion
  case none => exact .inr ⟨_, _, rfl, rfl, .none⟩
  case some version =>
    obtain ⟨he, he'⟩ | ⟨v, v', hv, hv', hdoc, _⟩ := h.getPipelineVersion pipe.id version
    · simp only [he, he']
      exact .inl ⟨_, rfl, rfl⟩
    · simp only [hv, hv']
      generalize v.graph = doc at hdoc
      generalize v'.graph = doc' at hdoc
      cases hdoc
      case malformed reason => exact .inl ⟨_, rfl, rfl⟩
      case graph g g' hg => exact .inr ⟨_, _, rfl, rfl, .some hg⟩

end Pipelines
