import OtelFleet.Pipelines.Operations

open Store (UUID TargetClass DB)
open Pipelines (Graph Issue Result Service Saved OpError)

-- The HTTP handlers around pipelines.
namespace Api

structure Principal where
  userID : Option UUID
  allCustomers : Bool
  allowedCustomers : List UUID

def Principal.canAccessCustomer (p : Principal) (id : UUID) : Bool :=
  p.allCustomers || p.allowedCustomers.contains id

def actorID (p : Option Principal) : Option UUID :=
  p.bind (·.userID)

structure Fresh where
  pipelineID : UUID
  versionID : UUID
  rnd : Pipelines.Entropy

inductive Request where
  | createPipeline (customerID : UUID) (name : String) (targetClass : Option TargetClass) (graph : Graph)
  | createPipelineVersion (pipelineID : UUID) (graph : Graph)
  | getPipelineVersion (pipelineID : UUID) (version : Nat)
  | validatePipeline (targetClass : Option TargetClass) (graph : Graph)

structure Pipeline where
  id : UUID
  customerID : UUID
  customerName : String
  name : String
  targetClass : TargetClass
  activeVersion : Option Nat
  latestVersion : Option Nat

structure PipelineVersion where
  version : Nat
  validationStatus : Store.ValidationStatus
  active : Bool
  createdBy : Option String
  graph : Graph
  renderedYAML : String
  configHash : List UInt8

structure ValidationResult where
  valid : Bool
  errors : List Issue
  renderedYAML : Option String

inductive Response where
  | pipeline (status : Nat) (p : Pipeline)
  | version (status : Nat) (v : PipelineVersion)
  | validation (status : Nat) (r : ValidationResult)
  | error (status : Nat) (code message : String)

def badRequest (message : String) : Response :=
  .error 400 "bad_request" message

def forbidden : Response :=
  .error 403 "forbidden" "you do not have access to this customer"

def notFound (message : String) : Response :=
  .error 404 "not_found" message

def conflict (message : String) : Response :=
  .error 409 "conflict" message

def internalError : Response :=
  .error 500 "internal" "internal server error"

section Mapping

def toPipeline (p : Store.Pipeline) : Pipeline where
  id := p.id
  customerID := p.customerID
  customerName := p.customerName
  name := p.name
  targetClass := p.targetClass
  activeVersion := p.activeVersion
  latestVersion := p.latestVersion

-- Graphs leaving the backend never carry secrets.
def toVersion (v : Store.PipelineVersion) : Except String PipelineVersion :=
  match Pipelines.parseGraph v.graph with
  | .error e => .error e
  | .ok g =>
    .ok {
      version := v.version
      validationStatus := v.validationStatus
      active := v.active
      createdBy := v.createdByEmail
      graph := Pipelines.redactGraphSecrets g
      renderedYAML := v.renderedYAML
      configHash := v.configHash }

def toValidationResult (r : Result) : ValidationResult where
  valid := r.valid
  errors := r.issues
  renderedYAML := r.renderedYAML

def firstIssueMessage (r : Result) : String :=
  match r.issues with
  | [] => "pipeline graph is invalid"
  | { path := none, message } :: _ => message
  | { path := some path, message } :: _ => path ++ ": " ++ message

def versionResponse (status : Nat) (v : Store.PipelineVersion) : Response :=
  match toVersion v with
  | .error _ => internalError
  | .ok out => .version status out

def savedResponse (versionID : UUID) : Except OpError Saved → Response
  | .error (.store .notFound) => notFound "pipeline not found"
  | .error _ => internalError
  | .ok (.invalid res) => .validation 400 (toValidationResult res)
  | .ok (.stored db') =>
    match db'.versionByID versionID with
    | none => internalError
    | some v => versionResponse 201 v

end Mapping

section Access

def requireCustomerAccess (who : Option Principal) (customerID : UUID) : Bool :=
  who.all (·.canAccessCustomer customerID)

-- A missing pipeline passes, and the handler itself reports it.
def requirePipelineAccess (who : Option Principal) (db : DB) (pipelineID : UUID) : Bool :=
  match db.getPipeline pipelineID with
  | .error _ => true
  | .ok pipe => requireCustomerAccess who pipe.customerID

end Access

variable [Runtime]

def createArgs (who : Option Principal) (fresh : Fresh) (customerID : UUID) (name : String)
    (targetClass : Option TargetClass) (graph : Graph) : Pipelines.CreateArgs where
  actor := actorID who
  customerID := customerID
  name := name
  targetClass := targetClass.getD .forwarding
  graph := graph
  pipelineID := fresh.pipelineID
  versionID := fresh.versionID
  rnd := fresh.rnd

def versionArgs (who : Option Principal) (fresh : Fresh) (pipelineID : UUID) (graph : Graph) :
    Pipelines.VersionArgs where
  actor := actorID who
  pipelineID := pipelineID
  graph := graph
  versionID := fresh.versionID
  rnd := fresh.rnd

def createPipeline (s : Service) (db : DB) (who : Option Principal) (a : Pipelines.CreateArgs) : Response :=
  if !requireCustomerAccess who a.customerID then forbidden
  else
    match Pipelines.create s db a with
    | .error .invalidName => badRequest "invalid pipeline name"
    | .error .slugTaken => conflict "a pipeline with an equivalent name already exists"
    | .error (.store .nameExists) => conflict "name already exists"
    | .error (.store .notFound) => notFound "customer not found"
    | .error _ => internalError
    -- The contract only knows a plain error here.
    | .ok (.invalid res) => badRequest (firstIssueMessage res)
    | .ok (.stored db') =>
      match db'.getPipeline a.pipelineID with
      | .error _ => internalError
      | .ok pipe => .pipeline 201 (toPipeline pipe)

def createPipelineVersion (s : Service) (db : DB) (who : Option Principal) (a : Pipelines.VersionArgs) : Response :=
  if !requirePipelineAccess who db a.pipelineID then forbidden
  else savedResponse a.versionID (Pipelines.createVersion s db a)

def getPipelineVersion (db : DB) (who : Option Principal) (pipelineID : UUID) (version : Nat) : Response :=
  if !requirePipelineAccess who db pipelineID then forbidden
  else
    match db.getPipelineVersion pipelineID version with
    | .error .notFound => notFound "version not found"
    | .error _ => internalError
    | .ok v => versionResponse 200 v

def validatePipeline (s : Service) (db : DB) (targetClass : Option TargetClass) (graph : Graph) : Response :=
  .validation 200 (toValidationResult (Pipelines.validateDraft s db (targetClass.getD .forwarding) graph))

def respond (s : Service) (db : DB) (who : Option Principal) (fresh : Fresh) : Request → Response
  | .createPipeline customerID name targetClass graph =>
    createPipeline s db who (createArgs who fresh customerID name targetClass graph)
  | .createPipelineVersion pipelineID graph =>
    createPipelineVersion s db who (versionArgs who fresh pipelineID graph)
  | .getPipelineVersion pipelineID version => getPipelineVersion db who pipelineID version
  | .validatePipeline targetClass graph => validatePipeline s db targetClass graph

end Api
