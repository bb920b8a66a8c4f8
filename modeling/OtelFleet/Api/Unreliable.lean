import OtelFleet.Api.Pipelines
import OtelFleet.Pipelines.Unreliable

open Store (UUID DB)
open Pipelines (Graph Service Outside Rollout VersionArgs OpError)
open Pipelines.Unreliable (Calls Versioned)
open Faults (ask)

-- The handlers that name a pipeline, over a store that may fail.
namespace Api.Unreliable

structure VersionSummary where
  version : Nat
  validationStatus : Store.ValidationStatus
  active : Bool
  createdBy : Option String

structure PipelineDetail extends Pipeline where
  versions : List VersionSummary

structure ReceivedStage where
  items : Int
  signal : String

structure ExporterStage where
  name : String
  type : String
  sent : Int
  sendFailed : Int
  enqueueFailed : Int
  queueSize : Float32
  queueCapacity : Float32

structure StageStats where
  received : List ReceivedStage := []
  exporters : List ExporterStage := []

inductive Reply where
  | basic (r : Response)
  | detail (d : PipelineDetail)
  | noContent
  | rollout (activeVersion : Nat) (r : Rollout)
  | stageStats (s : StageStats)

def Reply.isError : Reply → Bool
  | basic (.error _ _ _) => true
  | _ => false

section Stats

structure PipelineStageQuery where
  clientID : String
  signals : List String
  exporterRegex : String
  fromTime : Int
  toTime : Int

structure ExporterCounters where
  sent : Int := 0
  sendFailed : Int := 0
  enqueueFailed : Int := 0
  queueSize : Float := 0
  queueCapacity : Float := 0

structure PipelineFlow where
  received : List (String × Int)
  exporters : List (String × ExporterCounters)
  exporterNames : List String

inductive StatsError where
  | upstreamUnavailable
  | failed (message : String)

def exporterStage (flow : PipelineFlow) (name : String) : ExporterStage :=
  let e := (flow.exporters.lookup name).getD {}
  { name := name
    type := Pipelines.componentType name
    sent := e.sent
    sendFailed := e.sendFailed
    enqueueFailed := e.enqueueFailed
    queueSize := e.queueSize.toFloat32
    queueCapacity := e.queueCapacity.toFloat32 }

-- The exporters of the graph come first, and then those that only the telemetry knows.
def stageStats (p : Store.Pipeline) (g : Graph) (flow : PipelineFlow) : StageStats :=
  let expected := g.exporters.mapIdx fun i n =>
    Pipelines.componentID n i p.customerSlug (Pipelines.pipelineSlug p.name)
  let further := flow.exporterNames.filter (· ∉ expected)
  { received := g.signals.map fun sig => { items := (flow.received.lookup sig).getD 0, signal := sig }
    exporters := (expected ++ further).map (exporterStage flow) }

def stageQuery (p : Store.Pipeline) (g : Graph) (fromTime toTime : Int) : PipelineStageQuery where
  clientID := p.clientID
  signals := g.signals
  exporterRegex := Pipelines.exporterLabelRegex p.customerSlug (Pipelines.pipelineSlug p.name)
  fromTime := fromTime
  toTime := toTime

end Stats

structure Server where
  service : Service
  outside : Outside
  stats : PipelineStageQuery → Except StatsError PipelineFlow

inductive Request where
  | getPipeline (pipelineID : UUID)
  | deletePipeline (pipelineID : UUID)
  | createPipelineVersion (a : VersionArgs)
  | getPipelineVersion (pipelineID : UUID) (version : Nat)
  | activatePipelineVersion (pipelineID : UUID) (version : Nat)
  | getPipelineStageStats (pipelineID : UUID) (fromTime toTime : Int)

def Request.pipelineID : Request → UUID
  | getPipeline id => id
  | deletePipeline id => id
  | createPipelineVersion a => a.pipelineID
  | getPipelineVersion id _ => id
  | activatePipelineVersion id _ => id
  | getPipelineStageStats id _ _ => id

section Handlers

variable (who : Option Principal)

def requirePipelineAccess (pipelineID : UUID) : Calls Bool :=
  if who.all (·.allCustomers) then return true
  else do
    match ← ask (·.getPipeline pipelineID) with
    | .error _ => return true
    | .ok pipe => return requireCustomerAccess who pipe.customerID

def toVersionSummary (v : Store.PipelineVersion) : VersionSummary where
  version := v.version
  validationStatus := v.validationStatus
  active := v.active
  createdBy := v.createdByEmail

-- Loads a pipeline that the principal has access to, and goes on with it.
def withPipeline (pipelineID : UUID) (next : Store.Pipeline → Calls Reply) : Calls Reply := do
  match ← ask (·.getPipeline pipelineID) with
  | .error .notFound => return .basic (notFound "pipeline not found")
  | .error _ => return .basic internalError
  | .ok p => if !requireCustomerAccess who p.customerID then return .basic forbidden else next p

def getPipeline (pipelineID : UUID) : Calls Reply :=
  withPipeline who pipelineID fun p => do
    match ← ask fun db => .ok (db.listPipelineVersions pipelineID) with
    | .error _ => return .basic internalError
    | .ok versions =>
      return .detail { toPipeline := toPipeline p, versions := versions.map toVersionSummary }

def getPipelineVersion (pipelineID : UUID) (version : Nat) : Calls Reply := do
  match ← ask (·.getPipelineVersion pipelineID version) with
  | .error .notFound => return .basic (notFound "version not found")
  | .error _ => return .basic internalError
  | .ok v => return .basic (versionResponse 200 v)

def getPipelineStageStats (stats : PipelineStageQuery → Except StatsError PipelineFlow) (pipelineID : UUID)
    (fromTime toTime : Int) : Calls Reply :=
  if ¬fromTime < toTime then return .basic (badRequest "'to' must be after 'from'")
  else
    withPipeline who pipelineID fun p =>
      match p.activeVersion.or p.latestVersion with
      -- Without any version there is no graph, and nothing to show.
      | none => return .stageStats {}
      | some version => do
        match ← ask (·.getPipelineVersion p.id version) with
        | .error _ => return .basic internalError
        | .ok ver =>
          match Pipelines.parseGraph ver.graph with
          | .error _ => return .basic internalError
          | .ok g =>
            match stats (stageQuery p g fromTime toTime) with
            | .error .upstreamUnavailable =>
              return .basic (.error 503 "upstream_unavailable" "stats backend unavailable")
            | .error _ => return .basic internalError
            | .ok flow => return .stageStats (stageStats p g flow)

def deleteReply : Except OpError Unit → Reply
  | .error (.store .notFound) => .basic (notFound "pipeline not found")
  | .error _ => .basic internalError
  | .ok _ => .noContent

def versionReply : Except OpError Versioned → Reply
  | .error (.store .notFound) => .basic (notFound "pipeline not found")
  | .error _ => .basic internalError
  | .ok (.invalid res) => .basic (.validation 400 (toValidationResult res))
  | .ok (.stored v) => .basic (versionResponse 201 v)

def activateReply (version : Nat) : Except OpError (Store.Pipeline × Rollout) → Reply
  | .error (.store .notFound) => .basic (notFound "version not found")
  | .error (.store (.conflict _)) => .basic (badRequest "version is not valid and cannot be activated")
  | .error _ => .basic internalError
  | .ok (_, rollout) => .rollout version rollout

variable [Runtime] (s : Service) (out : Outside)

def deletePipeline (pipelineID : UUID) : Calls Reply :=
  return deleteReply (← Pipelines.Unreliable.delete s out pipelineID)

def createPipelineVersion (a : VersionArgs) : Calls Reply :=
  return versionReply (← Pipelines.Unreliable.createVersion s a)

def activatePipelineVersion (pipelineID : UUID) (version : Nat) : Calls Reply :=
  return activateReply version (← Pipelines.Unreliable.activate s out pipelineID version)

def checked (pipelineID : UUID) (op : Calls Reply) : Calls Reply := do
  if !(← requirePipelineAccess who pipelineID) then return .basic forbidden
  else op

def respond (srv : Server) : Request → Calls Reply
  | .getPipeline id => getPipeline who id
  | .deletePipeline id => checked who id (deletePipeline srv.service srv.outside id)
  | .createPipelineVersion a => checked who a.pipelineID (createPipelineVersion srv.service a)
  | .getPipelineVersion id version => checked who id (getPipelineVersion id version)
  | .activatePipelineVersion id version =>
    checked who id (activatePipelineVersion srv.service srv.outside id version)
  | .getPipelineStageStats id fromTime toTime => getPipelineStageStats who srv.stats id fromTime toTime

end Handlers

end Api.Unreliable
