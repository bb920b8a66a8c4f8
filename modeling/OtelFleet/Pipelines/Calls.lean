import OtelFleet.Lib.Interleave
import OtelFleet.Pipelines.Operations

open Store (UUID DB Customer Pipeline NewPipelineVersion ActivePipeline)

-- Calls of the service that run side by side, where each operation on the store is atomic.
namespace Pipelines

-- What the calls share: the database, the config that was most recently handed to the distributor,
-- and, for the record, what the versions in the database have been saved with.
structure World where
  db : DB
  handed : Option String := none
  saved : List VersionArgs := []

inductive Op where
  | create (a : CreateArgs)
  | createVersion (a : VersionArgs)
  | activate (pipelineID : UUID) (version : Nat)
  | delete (pipelineID : UUID)

inductive Call where
  | idle
  -- `Create` reads the customer, lists its pipelines, lists the active ones, and inserts.
  | create (a : CreateArgs)
  | createSlug (a : CreateArgs) (name : String) (cust : Customer)
  | createPrepare (a : CreateArgs) (name : String) (cust : Customer) (existing : List Pipeline)
  | createInsert (a : CreateArgs) (name : String) (existing : List Pipeline) (nv : NewPipelineVersion)
  -- `CreateVersion` reads the pipeline and its latest version, lists the active ones, and inserts.
  | version (a : VersionArgs)
  | versionPrevious (a : VersionArgs) (pipe : Pipeline)
  | versionPrepare (a : VersionArgs) (pipe : Pipeline) (prev : Option Graph)
  | versionInsert (a : VersionArgs) (pipe : Pipeline) (prev : Option Graph) (nv : NewPipelineVersion)
  | activate (pipelineID : UUID) (version : Nat)
  -- `Delete` reads the pipeline and deletes it.
  | delete (pipelineID : UUID)
  | deleteRow (pipe : Pipeline)
  -- Both of them render the current config of the forwarding tier in the end, and hand it over.
  | render
  | distribute (active : List ActivePipeline) (full : String)

def Call.isIdle : Call → Bool
  | idle => true
  | _ => false

def Op.begin : Op → Call
  | create a => .create a
  | createVersion a => .version a
  | activate pipelineID version => .activate pipelineID version
  | delete pipelineID => .delete pipelineID

variable [Runtime]

def Call.step (s : Service) (w : World) : Call → Call × World
  | .idle => (.idle, w)
  | .create a =>
    match checkName a.name, checkCustomer (w.db.getCustomer a.customerID) with
    | .ok name, .ok cust => (.createSlug a name cust, w)
    | _, _ => (.idle, w)
  | .createSlug a name cust =>
    let existing := w.db.listPipelines (some a.customerID)
    match checkSlug name existing with
    | .ok _ => (.createPrepare a name cust existing, w)
    | .error _ => (.idle, w)
  | .createPrepare a name cust existing =>
    match prepare s (a.candidate name cust) ((a.candidate name cust).active w.db) with
    | .ok (.version nv _) => (.createInsert a name existing nv, w)
    | _ => (.idle, w)
  | .createInsert a name _ nv =>
    match w.db.createPipeline (a.newPipeline name) { nv with pipelineID := a.pipelineID } with
    | .ok db => (.idle, { w with db := db })
    | .error _ => (.idle, w)
  | .version a =>
    match w.db.getPipeline a.pipelineID with
    | .ok pipe => (.versionPrevious a pipe, w)
    | .error _ => (.idle, w)
  | .versionPrevious a pipe =>
    match previousGraph w.db pipe with
    | .ok prev => (.versionPrepare a pipe prev, w)
    | .error _ => (.idle, w)
  | .versionPrepare a pipe prev =>
    match prepare s (a.candidate pipe prev) ((a.candidate pipe prev).active w.db) with
    | .ok (.version nv _) => (.versionInsert a pipe prev nv, w)
    | _ => (.idle, w)
  | .versionInsert a _ _ nv =>
    match w.db.createPipelineVersion { nv with pipelineID := a.pipelineID } with
    | .ok db => (.idle, { w with db := db, saved := a :: w.saved })
    | .error _ => (.idle, w)
  | .activate pipelineID number =>
    match w.db.activatePipelineVersion pipelineID number with
    | .error _ => (.idle, w)
    | .ok db =>
      match db.getPipeline pipelineID with
      | .error _ => (.idle, w)
      -- The agents of an edge pipeline are notified instead.
      | .ok pipe => (if pipe.targetClass = .edge then .idle else .render, { w with db := db })
  | .delete pipelineID =>
    match w.db.getPipeline pipelineID with
    | .ok pipe => (.deleteRow pipe, w)
    | .error _ => (.idle, w)
  | .deleteRow pipe =>
    match w.db.deletePipeline pipe.id with
    | .error _ => (.idle, w)
    | .ok db =>
      (if pipe.activeVersionID.isSome ∧ pipe.targetClass ≠ .edge then .render else .idle,
        { w with db := db, saved := w.saved.filter (·.pipelineID ≠ pipe.id) })
  | .render =>
    let active := w.db.listActivePipelines .forwarding none
    match activeRenderPipelines s none active with
    | .error _ => (.idle, w)
    | .ok inputs =>
      match renderForwardingConfig inputs with
      | .error _ => (.idle, w)
      | .ok full => (.distribute active full, w)
  | .distribute _ full => (.idle, { w with handed := some full })

def calls (s : Service) : Interleave.System Op Call World Unit where
  idle := .idle
  isIdle := Call.isIdle
  begin := Op.begin
  step _ w k := k.step s w

def after (s : Service) (db : DB) (events : List (Interleave.Event Op Unit)) : Interleave.Config Call World :=
  (calls s).run ((calls s).init { db := db }) events

end Pipelines
