import OtelFleet.Pipelines.Activation
import OtelFleet.Tenants.Customers

open Store (UUID DB CustomerUpdate)
open Pipelines (Service Outside Effects CreateArgs VersionArgs)

-- Histories of operations that change what is to be rendered, one after the other.
namespace Api

inductive Change where
  | createPipeline (a : CreateArgs)
  | createVersion (a : VersionArgs)
  | activate (pipelineID : UUID) (version : Nat)
  | deletePipeline (pipelineID : UUID)
  | updateCustomer (id : UUID) (upd : CustomerUpdate)
  | deleteCustomer (id : UUID)

structure Plane where
  db : DB
  handed : Option String

variable [Runtime]

def Change.perform (s : Service) (out : Outside) (db : DB) : Change → Option (DB × Effects)
  | .createPipeline a =>
    match Pipelines.create s db a with
    | .ok (.stored db') => some (db', {})
    | _ => none
  | .createVersion a =>
    match Pipelines.createVersion s db a with
    | .ok (.stored db') => some (db', {})
    | _ => none
  | .activate pipelineID version =>
    let r := Pipelines.activate s out db pipelineID version
    if r.result.isOk then some (r.db, r.effects) else none
  | .deletePipeline pipelineID =>
    let r := Pipelines.delete s out db pipelineID
    if r.result.isOk then some (r.db, r.effects) else none
  | .updateCustomer id upd => (Tenants.updateCustomer db id upd).toOption.map (·, {})
  | .deleteCustomer id => (Tenants.deleteCustomer db id).toOption.map (·, {})

-- A successful operation, with what it has handed over and published.
inductive Change.Step (s : Service) (out : Outside) (w : Plane) (change : Change) (effects : Effects) :
    Plane → Prop
  | perform {db' : DB} (h : change.perform s out w.db = some (db', effects)) :
    Change.Step s out w change effects { db := db', handed := effects.handed.or w.handed }

inductive Reached (s : Service) (start : Plane) : Plane → Prop
  | start : Reached s start start
  | step {w w' : Plane} {out : Outside} {change : Change} {effects : Effects} (h : Reached s start w)
    (hs : change.Step s out w effects w') : Reached s start w'

end Api
