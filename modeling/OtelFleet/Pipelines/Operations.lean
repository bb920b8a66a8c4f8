import OtelFleet.Lib.Strings
import OtelFleet.Pipelines.Service

open Store (UUID TargetClass Customer Pipeline NewPipeline Error DB)

namespace Pipelines

inductive OpError where
  | invalidName
  | slugTaken
  | store (e : Error)
  | failed (message : String)

inductive Saved where
  | invalid (res : Result)
  | stored (db : DB)

def ofStore {α : Type} : Except Error α → Except OpError α
  | .ok x => .ok x
  | .error e => .error (.store e)

def inserted : Except Error DB → Except OpError Saved
  | .ok db => .ok (.stored db)
  | .error e => .error (.store e)

section Create

structure CreateArgs where
  actor : Option UUID
  customerID : UUID
  name : String
  targetClass : TargetClass
  graph : Graph
  pipelineID : UUID
  versionID : UUID
  rnd : Entropy

def checkName (name : String) : Except OpError String :=
  let name := Strings.trimSpace name
  if name = "" ∨ 200 < name.utf8ByteSize ∨ pipelineSlug name = "" then .error .invalidName
  else .ok name

def checkCustomer : Except Error Customer → Except OpError Customer
  | .error e => .error (.store e)
  | .ok cust => if cust.status = .deleted then .error (.store .notFound) else .ok cust

-- Distinct names can derive the same slug, and component IDs would collide.
def checkSlug (name : String) (existing : List Pipeline) : Except OpError Unit :=
  match existing.find? (pipelineSlug ·.name = pipelineSlug name) with
  | none => .ok ()
  | some p => if p.name = name then .error (.store .nameExists) else .error .slugTaken

def CreateArgs.candidate (a : CreateArgs) (name : String) (cust : Customer) : Candidate where
  cust := .of cust
  name := name
  targetClass := a.targetClass
  exclude := none
  graph := a.graph
  prev := none
  actor := a.actor
  versionID := a.versionID
  rnd := a.rnd

def CreateArgs.newPipeline (a : CreateArgs) (name : String) : NewPipeline where
  id := a.pipelineID
  customerID := a.customerID
  name := name
  targetClass := a.targetClass

end Create

section CreateVersion

structure VersionArgs where
  actor : Option UUID
  pipelineID : UUID
  graph : Graph
  versionID : UUID
  rnd : Entropy

def previousGraph (db : DB) (pipe : Pipeline) : Except OpError (Option Graph) :=
  match pipe.latestVersion with
  | none => .ok none
  | some version =>
    match db.getPipelineVersion pipe.id version with
    | .error e => .error (.store e)
    | .ok v =>
      match parseGraph v.graph with
      | .error e => .error (.failed e)
      | .ok g => .ok (some g)

def VersionArgs.candidate (a : VersionArgs) (pipe : Pipeline) (prev : Option Graph) : Candidate where
  cust := { id := pipe.customerID, slug := pipe.customerSlug, clientID := pipe.clientID }
  name := pipe.name
  targetClass := pipe.targetClass
  exclude := some a.pipelineID
  graph := a.graph
  prev := prev
  actor := a.actor
  versionID := a.versionID
  rnd := a.rnd

end CreateVersion

def Candidate.active (c : Candidate) (db : DB) : List Store.ActivePipeline :=
  db.listActivePipelines c.targetClass (customerScope c.cust c.targetClass)

variable [Runtime]

def save (s : Service) (db : DB) (c : Candidate)
    (insert : Store.NewPipelineVersion → Except Error DB) : Except OpError Saved :=
  match prepare s c (c.active db) with
  | .error e => .error (.failed e)
  | .ok (.invalid res) => .ok (.invalid res)
  | .ok (.version nv _) => inserted (insert nv)

def create (s : Service) (db : DB) (a : CreateArgs) : Except OpError Saved := do
  let name ← checkName a.name
  let cust ← checkCustomer (db.getCustomer a.customerID)
  checkSlug name (db.listPipelines (some a.customerID))
  save s db (a.candidate name cust) fun nv =>
    db.createPipeline (a.newPipeline name) { nv with pipelineID := a.pipelineID }

def createVersion (s : Service) (db : DB) (a : VersionArgs) : Except OpError Saved := do
  let pipe ← ofStore (db.getPipeline a.pipelineID)
  let prev ← previousGraph db pipe
  save s db (a.candidate pipe prev) fun nv =>
    db.createPipelineVersion { nv with pipelineID := a.pipelineID }

end Pipelines
