import OtelFleet.Lib.Faults
import OtelFleet.Pipelines.Activation

open Store (UUID DB Pipeline PipelineVersion ActivePipeline)
open Faults (ask call change)

-- The operations of the service, call by call, over a store that may fail.
namespace Pipelines.Unreliable

abbrev Calls := Faults.Calls DB Store.Error

def previousGraph (pipe : Pipeline) : Calls (Except OpError (Option Graph)) :=
  match pipe.latestVersion with
  | none => return .ok none
  | some version => do
    match ← ask (·.getPipelineVersion pipe.id version) with
    | .error e => return .error (.store e)
    | .ok v =>
      match parseGraph v.graph with
      | .error e => return .error (.failed e)
      | .ok g => return .ok (some g)

def insertVersion (nv : Store.NewPipelineVersion) (db : DB) : Except Store.Error (PipelineVersion × DB) :=
  match db.createPipelineVersion nv with
  | .error e => .error e
  | .ok db' => (db'.versionByID nv.id).elim (.error .notFound) fun v => .ok (v, db')

def activateVersion (pipelineID : UUID) (version : Nat) (db : DB) : Except Store.Error (Pipeline × DB) :=
  match db.activatePipelineVersion pipelineID version with
  | .error e => .error e
  | .ok db' => (db'.getPipeline pipelineID).map (·, db')

def countEdgeAgents (out : Outside) (customerID : UUID) : Calls (Nat × Nat) := do
  match ← ask fun _ => .ok (out.edgeAgents customerID) with
  | .error _ => return (0, 0)
  | .ok counts => return counts

def notifyEdge (out : Outside) (customerID : UUID) : Calls (Except String Rollout) :=
  match out.notifier customerID with
  | some e => return .error e
  | none => do
    let (connected, offline) ← countEdgeAgents out customerID
    return .ok {
      state := StateApplied
      detail := "rollout queued: " ++ Strconv.itoa connected ++ " connected agent(s) update now, " ++
        Strconv.itoa offline ++ " offline update on reconnect" }

section Service

variable [Runtime] (s : Service)

-- A graph whose secrets cannot be stored is refused before the active pipelines are listed.
def lists (c : Candidate) : Bool :=
  match encryptGraphSecrets c.graph s.cipher c.rnd c.prev with
  | .error _ => false
  | .ok stored => (decryptGraphSecrets stored s.cipher).isOk

def listed (c : Candidate) : Calls (Except Store.Error (List ActivePipeline)) :=
  if lists s c then ask fun db => .ok (c.active db) else return .ok []

def prepare (c : Candidate) : Calls (Except OpError Prepared) := do
  match ← listed s c with
  | .error e => return .error (.store e)
  | .ok active =>
    match Pipelines.prepare s c active with
    | .error e => return .error (.failed e)
    | .ok prepared => return .ok prepared

inductive Versioned where
  | invalid (res : Result)
  | stored (v : PipelineVersion)

def createVersion (a : VersionArgs) : Calls (Except OpError Versioned) := do
  match ← ask (·.getPipeline a.pipelineID) with
  | .error e => return .error (.store e)
  | .ok pipe =>
    match ← previousGraph pipe with
    | .error e => return .error e
    | .ok prev =>
      match ← prepare s (a.candidate pipe prev) with
      | .error e => return .error e
      | .ok (.invalid res) => return .ok (.invalid res)
      | .ok (.version nv _) =>
        match ← call (insertVersion { nv with pipelineID := a.pipelineID }) with
        | .error e => return .error (.store e)
        | .ok v => return .ok (.stored v)

def distribute (out : Outside) : Calls (Except String Rollout) := do
  match ← ask fun db => .ok (db.listActivePipelines .forwarding none) with
  | .error _ => return .error "list active pipelines"
  | .ok active =>
    match activeRenderPipelines s none active with
    | .error e => return .error e
    | .ok inputs =>
      match renderForwardingConfig inputs with
      | .error e => return .error e
      | .ok full => return out.distributor full

def rollOut (out : Outside) (pipe : Pipeline) : Calls (Except String Rollout) :=
  if pipe.targetClass = .edge then notifyEdge out pipe.customerID else distribute s out

def activate (out : Outside) (pipelineID : UUID) (version : Nat) :
    Calls (Except OpError (Pipeline × Rollout)) := do
  match ← call (activateVersion pipelineID version) with
  | .error e => return .error (.store e)
  | .ok pipe =>
    match ← rollOut s out pipe with
    | .error e =>
      return .error (.failed ("version " ++ Strconv.itoa version ++
        " activated, but distributing the config failed: " ++ e))
    | .ok rollout => return .ok (pipe, rollout)

def redistribute (out : Outside) (pipe : Pipeline) : Calls Unit :=
  if pipe.activeVersionID.isSome then discard (rollOut s out pipe) else return ()

def delete (out : Outside) (pipelineID : UUID) : Calls (Except OpError Unit) := do
  match ← ask (·.getPipeline pipelineID) with
  | .error e => return .error (.store e)
  | .ok pipe =>
    match ← change (·.deletePipeline pipelineID) with
    | .error e => return .error (.store e)
    | .ok _ =>
      redistribute s out pipe
      return .ok ()

end Service

end Pipelines.Unreliable
