import OtelFleet.Pipelines.Secrets

open Store (UUID TargetClass Customer ActivePipeline NewPipelineVersion)

namespace Pipelines

structure Service where
  cipher : Crypto.Cipher
  binPath : String

variable [Runtime]

section Rendering

def pipelineError (id : UUID) (message : String) : String :=
  "pipeline " ++ Strconv.itoa id ++ ": " ++ message

def toRender (s : Service) (ap : ActivePipeline) : Except String RenderPipeline :=
  match parseGraph ap.graph with
  | .error e => .error (pipelineError ap.pipelineID e)
  | .ok g =>
    match decryptGraphSecrets g s.cipher with
    | .error e => .error (pipelineError ap.pipelineID e)
    | .ok g =>
      .ok {
        customerSlug := ap.customerSlug
        clientID := ap.clientID
        pipelineSlug := pipelineSlug ap.pipelineName
        graph := g }

def activeRenderPipelines (s : Service) (exclude : Option UUID) :
    List ActivePipeline → Except String (List RenderPipeline)
  | [] => .ok []
  | ap :: aps =>
    if exclude = some ap.pipelineID then activeRenderPipelines s exclude aps
    else
      match toRender s ap with
      | .error e => .error e
      | .ok rp =>
        match activeRenderPipelines s exclude aps with
        | .error e => .error e
        | .ok rps => .ok (rp :: rps)

def renderCurrent (s : Service) (db : Store.DB) : Except String String :=
  match activeRenderPipelines s none (db.listActivePipelines .forwarding none) with
  | .error e => .error e
  | .ok inputs => renderForwardingConfig inputs

def renderEdgeCurrent (s : Service) (db : Store.DB) (customerID : UUID) : Except String String :=
  match activeRenderPipelines s none (db.listActivePipelines .edge (some customerID)) with
  | .error e => .error e
  | .ok inputs => renderEdgeConfig inputs

def validateDraft (s : Service) (db : Store.DB) (targetClass : TargetClass) (g : Graph) : Result :=
  let candidate := {
    customerSlug := "draft-validation"
    clientID := "cust_draft_validation"
    pipelineSlug := "draft"
    graph := g }
  let others :=
    match targetClass with
    | .edge => []
    | .forwarding =>
      match activeRenderPipelines s none (db.listActivePipelines .forwarding none) with
      | .error _ => []
      | .ok others => others
  validate s.binPath targetClass candidate others

end Rendering

section Preparing

structure Owner where
  id : UUID
  slug : String
  clientID : String

def Owner.of (c : Customer) : Owner :=
  { id := c.id, slug := c.slug, clientID := c.clientID }

def customerScope (cust : Owner) : TargetClass → Option UUID
  | .edge => some cust.id
  | .forwarding => none

structure Candidate where
  cust : Owner
  name : String
  targetClass : TargetClass
  exclude : Option UUID
  graph : Graph
  prev : Option Graph
  actor : Option UUID
  versionID : UUID
  rnd : Entropy

def Candidate.render (c : Candidate) (g : Graph) : RenderPipeline :=
  { customerSlug := c.cust.slug
    clientID := c.cust.clientID
    pipelineSlug := pipelineSlug c.name
    graph := g }

inductive Prepared where
  | invalid (res : Result)
  | version (nv : NewPipelineVersion) (res : Result)

def validationOutput (issues : List Issue) : Option String :=
  if issues = [] then none else some ("\n".intercalate (issues.map (·.message)))

-- Validates a graph on its plaintext and builds the version to insert, where the graph is encrypted
-- and the fragment redacted. The active pipelines of the class are what the store lists meanwhile.
def prepare (s : Service) (c : Candidate) (active : List ActivePipeline) : Except String Prepared :=
  match encryptGraphSecrets c.graph s.cipher c.rnd c.prev with
  | .error (.failed e) => .error e
  | .error (.issues issues) =>
    .ok (.invalid { valid := false, issues := issues, renderedYAML := none })
  | .ok stored =>
    match decryptGraphSecrets stored s.cipher with
    | .error e => .error e
    | .ok plain =>
      match activeRenderPipelines s c.exclude active with
      | .error e => .error e
      | .ok others =>
        let res := validate s.binPath c.targetClass (c.render plain) others
        if !res.valid then .ok (.invalid res)
        else
          let fragment := renderFragmentOf c.targetClass (c.render (redactGraphSecrets stored))
          .ok (.version {
              id := c.versionID
              pipelineID := 0
              graph := marshalGraph stored
              renderedYAML := fragment
              configHash := Runtime.sha256 fragment
              validationStatus := .valid
              validationOutput := validationOutput res.issues
              createdBy := c.actor }
            { res with renderedYAML := some fragment })

end Preparing

end Pipelines
