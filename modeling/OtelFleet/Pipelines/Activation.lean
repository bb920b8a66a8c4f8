import OtelFleet.Pipelines.Calls
import OtelFleet.Pipelines.Distributor

open Store (UUID DB Pipeline)

-- The operations of the service that roll a config out.
namespace Pipelines

structure Outside where
  distributor : String → Except String Rollout
  notifier : UUID → Option String
  edgeAgents : UUID → Nat × Nat

structure Effects where
  handed : Option String := none
  notified : Option UUID := none

structure Outcome (α : Type) where
  result : Except OpError α
  db : DB
  effects : Effects := {}

def notifyEdge (out : Outside) (customerID : UUID) : Except String Rollout × Effects :=
  match out.notifier customerID with
  | some e => (.error e, {})
  | none =>
    let (connected, offline) := out.edgeAgents customerID
    (.ok {
        state := StateApplied
        detail := "rollout queued: " ++ Strconv.itoa connected ++ " connected agent(s) update now, " ++
          Strconv.itoa offline ++ " offline update on reconnect" },
      { notified := some customerID })

variable [Runtime]

def distribute (s : Service) (out : Outside) (db : DB) : Except String Rollout × Effects :=
  match renderCurrent s db with
  | .error e => (.error e, {})
  | .ok full => (out.distributor full, { handed := some full })

def rollOut (s : Service) (out : Outside) (db : DB) (pipe : Pipeline) : Except String Rollout × Effects :=
  if pipe.targetClass = .edge then notifyEdge out pipe.customerID else distribute s out db

def activate (s : Service) (out : Outside) (db : DB) (pipelineID : UUID) (version : Nat) :
    Outcome (Pipeline × Rollout) :=
  match db.activatePipelineVersion pipelineID version with
  | .error e => { result := .error (.store e), db := db }
  | .ok db' =>
    -- The transaction reads the pipeline back before it commits.
    match db'.getPipeline pipelineID with
    | .error e => { result := .error (.store e), db := db }
    | .ok pipe =>
      let (rollout, effects) := rollOut s out db' pipe
      { result :=
          match rollout with
          | .ok rollout => .ok (pipe, rollout)
          | .error e =>
            .error (.failed ("version " ++ Strconv.itoa version ++
              " activated, but distributing the config failed: " ++ e))
        db := db'
        effects := effects }

def delete (s : Service) (out : Outside) (db : DB) (pipelineID : UUID) : Outcome Unit :=
  match db.getPipeline pipelineID with
  | .error e => { result := .error (.store e), db := db }
  | .ok pipe =>
    match db.deletePipeline pipelineID with
    | .error e => { result := .error (.store e), db := db }
    | .ok db' =>
      { result := .ok ()
        db := db'
        effects := if pipe.activeVersionID.isSome then (rollOut s out db' pipe).2 else {} }

end Pipelines
