import OtelFleet.Lib.Interleave
import OtelFleet.Store.Tables

-- The transactions on the tables statement by statement, as they interleave at READ COMMITTED: every
-- statement reads what is committed by then, and its own writes are seen by others once they are
-- committed.
namespace Store

-- What a transaction keeps others from touching.
inductive Lock where
  -- An identifier that was drawn for a version. Identifiers are drawn once.
  | version (id : UUID)
  -- A pipeline that was selected for update, updated or deleted.
  | row (pipelineID : UUID)
  -- The keys of rows that are inserted, but not committed yet.
  | pipeline (id : UUID)
  | name (customerID : UUID) (name : String)
  | number (pipelineID : UUID) (version : Nat)
deriving DecidableEq

structure Server where
  db : DB
  held : List Lock

inductive Request where
  | create (p : NewPipeline) (v : NewPipelineVersion)
  | version (v : NewPipelineVersion)
  | activate (pipelineID : UUID) (version : Nat)
  | delete (id : UUID)

-- The statement that a transaction executes next, and what it has learned by then.
inductive Txn where
  | idle
  | create (p : NewPipeline) (v : NewPipelineVersion)
  | createSelect (p : NewPipeline) (v : NewPipelineVersion)
  | createInsert (p : NewPipeline) (v : NewPipelineVersion)
  | createVersionRow (p : NewPipeline) (v : NewPipelineVersion)
  | createCommit (p : NewPipeline) (v : NewPipelineVersion)
  | version (v : NewPipelineVersion)
  | versionLock (v : NewPipelineVersion)
  | versionMax (v : NewPipelineVersion)
  | versionInsert (v : NewPipelineVersion) (next : Nat)
  | versionCommit (v : NewPipelineVersion) (next : Nat)
  | activate (pipelineID : UUID) (version : Nat)
  | activateUpdate (pipelineID versionID : UUID)
  | activateRead (pipelineID versionID : UUID) (updated : Bool)
  | activateCommit (pipelineID versionID : UUID) (updated : Bool)
  | delete (id : UUID)
  | deleteCommit (id : UUID) (victims : List UUID)

namespace Txn

def isIdle : Txn → Bool
  | idle => true
  | _ => false

def locks : Txn → List Lock
  | createVersionRow p _ => [.pipeline p.id, .name p.customerID p.name]
  | createCommit p v => [.pipeline p.id, .name p.customerID p.name, .number v.pipelineID 1]
  | versionMax v => [.row v.pipelineID]
  | versionInsert v _ => [.row v.pipelineID]
  | versionCommit v next => [.row v.pipelineID, .number v.pipelineID next]
  | activateRead pipelineID _ updated => if updated then [.row pipelineID] else []
  | activateCommit pipelineID _ updated => if updated then [.row pipelineID] else []
  | deleteCommit id _ => [.row id]
  | _ => []

end Txn

def Request.begin : Request → Txn
  | create p v => .create p v
  | version v => .version v
  | activate pipelineID number => .activate pipelineID number
  | delete id => .delete id

namespace Server

def acquire (s : Server) (locks : List Lock) : Server :=
  { s with held := locks ++ s.held }

def release (s : Server) (t : Txn) : Server :=
  { s with held := s.held.filter (· ∉ t.locks) }

def commit (s : Server) (t : Txn) (db : DB) : Server :=
  { s.release t with db := db }

end Server

-- The next statement. A transaction that waits for a lock stays where it is.
def Txn.next (s : Server) (t : Txn) : Txn × Server :=
  match t with
  | .idle => (.idle, s)
  | .create p v =>
    if .version v.id ∈ s.held then (.idle, s) else (.createSelect p v, s.acquire [.version v.id])
  | .createSelect p v =>
    if (s.db.customer? p.customerID).any (·.status ≠ .deleted) then (.createInsert p v, s) else (.idle, s)
  | .createInsert p v =>
    if .pipeline p.id ∈ s.held ∨ .name p.customerID p.name ∈ s.held then (t, s)
    else if (∃ q ∈ s.db.pipelines, q.customerID = p.customerID ∧ q.name = p.name) ∨
        (s.db.pipeline? p.id).isSome then
      (.idle, s)
    else (.createVersionRow p v, s.acquire [.pipeline p.id, .name p.customerID p.name])
  | .createVersionRow p v =>
    if .number v.pipelineID 1 ∈ s.held ∨ v.pipelineID ≠ p.id ∧ .row v.pipelineID ∈ s.held then (t, s)
    else if (s.db.version? v.id).isSome ∨
        (∃ w ∈ s.db.versions, w.pipelineID = v.pipelineID ∧ w.version = 1) ∨
        v.pipelineID ≠ p.id ∧ (s.db.pipeline? v.pipelineID).isNone then
      (.idle, s.release t)
    else (.createCommit p v, s.acquire [.number v.pipelineID 1])
  | .createCommit p v =>
    (.idle, s.commit t { s.db with
      pipelines := s.db.pipelines ++ [p.row], versions := s.db.versions ++ [v.row 1] })
  | .version v =>
    if .version v.id ∈ s.held then (.idle, s) else (.versionLock v, s.acquire [.version v.id])
  | .versionLock v =>
    if .row v.pipelineID ∈ s.held then (t, s)
    else if (s.db.pipeline? v.pipelineID).isNone then (.idle, s)
    else (.versionMax v, s.acquire [.row v.pipelineID])
  | .versionMax v => (.versionInsert v ((s.db.latest v.pipelineID).getD 0 + 1), s)
  | .versionInsert v next =>
    if .number v.pipelineID next ∈ s.held then (t, s)
    else if (s.db.version? v.id).isSome ∨ (s.db.pipeline? v.pipelineID).isNone ∨
        ∃ w ∈ s.db.versions, w.pipelineID = v.pipelineID ∧ w.version = next then
      (.idle, s.release t)
    else (.versionCommit v next, s.acquire [.number v.pipelineID next])
  | .versionCommit v next =>
    (.idle, s.commit t { s.db with versions := s.db.versions ++ [v.row next] })
  | .activate pipelineID number =>
    match s.db.getPipelineVersion pipelineID number with
    | .error _ => (.idle, s)
    | .ok v => if v.validationStatus = .valid then (.activateUpdate pipelineID v.id, s) else (.idle, s)
  | .activateUpdate pipelineID versionID =>
    if .row pipelineID ∈ s.held then (t, s)
    -- An update of no row is not an error.
    else if (s.db.pipeline? pipelineID).isNone then (.activateRead pipelineID versionID false, s)
    else (.activateRead pipelineID versionID true, s.acquire [.row pipelineID])
  | .activateRead pipelineID versionID updated =>
    match s.db.getPipeline pipelineID with
    | .error _ => (.idle, s.release t)
    | .ok _ => (.activateCommit pipelineID versionID updated, s)
  | .activateCommit pipelineID versionID updated =>
    -- The foreign key of the active version is checked last.
    if updated ∧ (s.db.version? versionID).isSome then
      (.idle, s.commit t (s.db.setActive pipelineID versionID))
    else (.idle, s.release t)
  | .delete id =>
    if .row id ∈ s.held then (t, s)
    else if (s.db.pipeline? id).isNone then (.idle, s)
    else (.deleteCommit id ((s.db.versionsOf id).map (·.id)), s.acquire [.row id])
  | .deleteCommit id victims =>
    if ∃ q ∈ s.db.pipelines, q.id ≠ id ∧ q.activeVersionID.any (· ∈ victims) then (.idle, s.release t)
    else
      (.idle, s.commit t { s.db with
        pipelines := s.db.pipelines.filter (·.id ≠ id)
        versions := s.db.versions.filter (·.id ∉ victims) })

-- A transaction may also be aborted at any time.
def Txn.step (abort : Bool) (s : Server) (t : Txn) : Txn × Server :=
  if abort then (.idle, s.release t) else t.next s

def transactions : Interleave.System Request Txn Server Bool where
  idle := .idle
  isIdle := Txn.isIdle
  begin := Request.begin
  step := Txn.step

def Server.of (db : DB) : Server :=
  { db := db, held := db.versions.map fun v => .version v.id }

end Store
