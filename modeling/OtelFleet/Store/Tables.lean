import OtelFleet.Pipelines.Graph

open Pipelines (Document)

-- The tables of the database, and the queries and transactions on them.
namespace Store

-- Identifiers are only ever compared.
abbrev UUID := Nat

inductive CustomerStatus where
  | active
  | suspended
  | deleted
deriving DecidableEq

inductive TargetClass where
  | forwarding
  | edge
deriving DecidableEq

def TargetClass.name : TargetClass → String
  | forwarding => "forwarding"
  | edge => "edge"

inductive ValidationStatus where
  | valid
  | invalid
deriving DecidableEq

structure Customer where
  id : UUID
  name : String
  slug : String
  clientID : String
  status : CustomerStatus

structure PipelineRow where
  id : UUID
  customerID : UUID
  name : String
  targetClass : TargetClass
  activeVersionID : Option UUID

structure VersionRow where
  id : UUID
  pipelineID : UUID
  version : Nat
  graph : Document
  renderedYAML : String
  configHash : List UInt8
  validationStatus : ValidationStatus
  validationOutput : Option String
  createdBy : Option UUID

structure DB where
  users : List (UUID × String)
  customers : List Customer
  pipelines : List PipelineRow
  versions : List VersionRow

inductive Error where
  | notFound
  | nameExists
  | conflict (message : String)
  | failed (message : String)

-- A pipeline joined with its customer and its version numbers.
structure Pipeline where
  id : UUID
  customerID : UUID
  customerName : String
  customerSlug : String
  clientID : String
  name : String
  targetClass : TargetClass
  activeVersionID : Option UUID
  activeVersion : Option Nat
  latestVersion : Option Nat

-- A version, whether it is active, and the email address of its author.
structure PipelineVersion extends VersionRow where
  createdByEmail : Option String
  active : Bool

structure NewPipeline where
  id : UUID
  customerID : UUID
  name : String
  targetClass : TargetClass

structure NewPipelineVersion where
  id : UUID
  pipelineID : UUID
  graph : Document
  renderedYAML : String
  configHash : List UInt8
  validationStatus : ValidationStatus
  validationOutput : Option String
  createdBy : Option UUID

def NewPipeline.row (p : NewPipeline) : PipelineRow where
  id := p.id
  customerID := p.customerID
  name := p.name
  targetClass := p.targetClass
  activeVersionID := none

def NewPipelineVersion.row (v : NewPipelineVersion) (version : Nat) : VersionRow where
  id := v.id
  pipelineID := v.pipelineID
  version := version
  graph := v.graph
  renderedYAML := v.renderedYAML
  configHash := v.configHash
  validationStatus := v.validationStatus
  validationOutput := v.validationOutput
  createdBy := v.createdBy

structure CustomerUpdate where
  name : Option String := none
  status : Option CustomerStatus := none

structure ActivePipeline where
  pipelineID : UUID
  pipelineName : String
  customerID : UUID
  customerSlug : String
  clientID : String
  graph : Document

namespace DB

def customer? (db : DB) (id : UUID) : Option Customer :=
  db.customers.find? (·.id = id)

def pipeline? (db : DB) (id : UUID) : Option PipelineRow :=
  db.pipelines.find? (·.id = id)

def version? (db : DB) (id : UUID) : Option VersionRow :=
  db.versions.find? (·.id = id)

def versionsOf (db : DB) (pipelineID : UUID) : List VersionRow :=
  db.versions.filter (·.pipelineID = pipelineID)

def latest (db : DB) (pipelineID : UUID) : Option Nat :=
  ((db.versionsOf pipelineID).map (·.version)).max?

section Queries

def readPipeline (db : DB) (p : PipelineRow) : Option Pipeline :=
  (db.customer? p.customerID).map fun c => {
    id := p.id
    customerID := p.customerID
    customerName := c.name
    customerSlug := c.slug
    clientID := c.clientID
    name := p.name
    targetClass := p.targetClass
    activeVersionID := p.activeVersionID
    activeVersion := (p.activeVersionID.bind db.version?).map (·.version)
    latestVersion := db.latest p.id }

def readVersion (db : DB) (v : VersionRow) : Option PipelineVersion :=
  (db.pipeline? v.pipelineID).map fun p => {
    toVersionRow := v
    createdByEmail := v.createdBy.bind fun user => db.users.lookup user
    active := p.activeVersionID = some v.id }

def versionByID (db : DB) (id : UUID) : Option PipelineVersion :=
  (db.version? id).bind db.readVersion

def rowLe (a b : String × String × UUID) : Prop :=
  a.1 < b.1 ∨ a.1 = b.1 ∧ (a.2.1 < b.2.1 ∨ a.2.1 = b.2.1 ∧ a.2.2 ≤ b.2.2)

instance : DecidableRel rowLe :=
  fun _ _ => inferInstanceAs <| Decidable <| _ ∨ _ ∧ (_ ∨ _ ∧ _)

def getCustomer (db : DB) (id : UUID) : Except Error Customer :=
  ((db.customer? id).filter (·.status ≠ .deleted)).elim (.error .notFound) .ok

def getPipeline (db : DB) (id : UUID) : Except Error Pipeline :=
  ((db.pipeline? id).bind db.readPipeline).elim (.error .notFound) .ok

def listPipelines (db : DB) (customerID : Option UUID) : List Pipeline :=
  let rows := db.pipelines.filter fun p =>
    (db.customer? p.customerID).any (·.status ≠ .deleted) ∧ customerID.all (· = p.customerID)
  (rows.filterMap db.readPipeline).insertionSort fun a b =>
    rowLe (a.customerSlug, a.name, a.id) (b.customerSlug, b.name, b.id)

def getPipelineVersion (db : DB) (pipelineID : UUID) (version : Nat) : Except Error PipelineVersion :=
  let row := db.versions.find? fun v => v.pipelineID = pipelineID ∧ v.version = version
  (row.bind db.readVersion).elim (.error .notFound) .ok

def listPipelineVersions (db : DB) (pipelineID : UUID) : List PipelineVersion :=
  (((db.versionsOf pipelineID).filterMap db.readVersion).insertionSort fun v w => w.version ≤ v.version)

def activePipeline (db : DB) (p : PipelineRow) : Option ActivePipeline := do
  let c ← db.customer? p.customerID
  let id ← p.activeVersionID
  let v ← db.version? id
  if c.status = .active then
    some {
      pipelineID := p.id
      pipelineName := p.name
      customerID := p.customerID
      customerSlug := c.slug
      clientID := c.clientID
      graph := v.graph }
  else none

-- The pipelines of a target class with an active version, owned by an active customer.
def listActivePipelines (db : DB) (targetClass : TargetClass) (customerID : Option UUID) : List ActivePipeline :=
  let rows := db.pipelines.filter fun p =>
    p.targetClass = targetClass ∧ customerID.all (· = p.customerID)
  (rows.filterMap db.activePipeline).insertionSort fun a b =>
    rowLe (a.customerSlug, a.pipelineName, a.pipelineID) (b.customerSlug, b.pipelineName, b.pipelineID)

end Queries

section Transactions

def insertPipelineVersion (db : DB) (v : NewPipelineVersion) (version : Nat) : Except Error DB :=
  if (db.version? v.id).isSome ∨ (db.pipeline? v.pipelineID).isNone ∨
      ∃ w ∈ db.versions, w.pipelineID = v.pipelineID ∧ w.version = version then
    .error (.failed "insert pipeline version")
  else
    .ok { db with versions := db.versions ++ [{
      id := v.id
      pipelineID := v.pipelineID
      version := version
      graph := v.graph
      renderedYAML := v.renderedYAML
      configHash := v.configHash
      validationStatus := v.validationStatus
      validationOutput := v.validationOutput
      createdBy := v.createdBy }] }

def createPipeline (db : DB) (p : NewPipeline) (v : NewPipelineVersion) : Except Error DB :=
  if ¬(db.customer? p.customerID).any (·.status ≠ .deleted) then .error .notFound
  else if ∃ q ∈ db.pipelines, q.customerID = p.customerID ∧ q.name = p.name then .error .nameExists
  else if (db.pipeline? p.id).isSome then .error (.failed "insert pipeline")
  else
    insertPipelineVersion
      { db with pipelines := db.pipelines ++ [{
          id := p.id
          customerID := p.customerID
          name := p.name
          targetClass := p.targetClass
          activeVersionID := none }] }
      v 1

def createPipelineVersion (db : DB) (v : NewPipelineVersion) : Except Error DB :=
  if (db.pipeline? v.pipelineID).isNone then .error .notFound
  else insertPipelineVersion db v ((db.latest v.pipelineID).getD 0 + 1)

def setActive (db : DB) (pipelineID versionID : UUID) : DB :=
  { db with pipelines := db.pipelines.map fun p =>
      if p.id = pipelineID then { p with activeVersionID := some versionID } else p }

def activatePipelineVersion (db : DB) (pipelineID : UUID) (version : Nat) : Except Error DB :=
  match db.getPipelineVersion pipelineID version with
  | .error e => .error e
  | .ok v =>
    if v.validationStatus ≠ .valid then
      .error (.conflict ("version " ++ version.repr ++ " is invalid"))
    else .ok (db.setActive pipelineID v.id)

def deletePipeline (db : DB) (id : UUID) : Except Error DB :=
  if (db.pipeline? id).isNone then .error .notFound
  else
    .ok { db with
      pipelines := db.pipelines.filter (·.id ≠ id)
      versions := db.versions.filter (·.pipelineID ≠ id) }

def modifyCustomer (db : DB) (id : UUID) (f : Customer → Customer) : Except Error DB :=
  if (db.customer? id).any (·.status ≠ .deleted) then
    .ok { db with customers := db.customers.map fun c => if c.id = id then f c else c }
  else .error .notFound

def updateCustomer (db : DB) (id : UUID) (upd : CustomerUpdate) : Except Error DB :=
  db.modifyCustomer id fun c =>
    { c with name := upd.name.getD c.name, status := upd.status.getD c.status }

def softDeleteCustomer (db : DB) (id : UUID) : Except Error DB :=
  db.modifyCustomer id fun c => { c with status := .deleted }

end Transactions

end DB
end Store
