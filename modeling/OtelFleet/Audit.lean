import OtelFleet.Store.Tables
import OtelFleet.Lib.Histories
import OtelFleet.Lib.Paging

open Store (UUID)
open Paging (Descending)

-- The audit log, and the pages in which it is listed.
namespace Audit

structure Entry where
  actorUserID : Option UUID := none
  actorType : String := ""
  action : String
  entityType : String
  entityID : String
  customerID : Option UUID := none
  payload : Option Json.Value := none

structure Row extends Entry where
  id : Int
  createdAt : Int

section Writes

-- An ID is taken from a sequence when a row is inserted. The row can be seen when its transaction is
-- over.
structure Log where
  lastID : Int := 0
  pending : List (Nat × Row) := []
  rows : List Row := []

inductive Event where
  | write (tx : Nat) (now : Int) (entries : List Entry)
  | commit (tx : Nat)
  | rollback (tx : Nat)

def Entry.row (e : Entry) (id now : Int) : Row where
  toEntry := { e with actorType := if e.actorType = "" then "user" else e.actorType }
  id := id
  createdAt := now

namespace Log

def insert (tx : Nat) (now : Int) (log : Log) (e : Entry) : Log where
  lastID := log.lastID + 1
  pending := log.pending ++ [(tx, e.row (log.lastID + 1) now)]
  rows := log.rows

def write (log : Log) (tx : Nat) (now : Int) (entries : List Entry) : Log :=
  entries.foldl (insert tx now) log

def commit (log : Log) (tx : Nat) : Log where
  lastID := log.lastID
  pending := log.pending.filter (·.1 ≠ tx)
  rows := log.rows ++ (log.pending.filter (·.1 = tx)).map (·.2)

-- The IDs are not given back.
def rollback (log : Log) (tx : Nat) : Log :=
  { log with pending := log.pending.filter (·.1 ≠ tx) }

def step (log : Log) : Event → Log
  | .write tx now entries => log.write tx now entries
  | .commit tx => log.commit tx
  | .rollback tx => log.rollback tx

end Log

end Writes

section Listing

structure AuditFilter where
  action : Option String := none
  entityType : Option String := none
  customerID : Option UUID := none
  actorUserID : Option UUID := none
  start : Option Int := none
  stop : Option Int := none
  limit : Nat
  beforeID : Option Int := none

def AuditFilter.selects (f : AuditFilter) (r : Row) : Bool :=
  (∀ a ∈ f.action, r.action = a) ∧ (∀ t ∈ f.entityType, r.entityType = t) ∧
    (∀ c ∈ f.customerID, r.customerID = some c) ∧ (∀ u ∈ f.actorUserID, r.actorUserID = some u) ∧
    (∀ t ∈ f.start, t ≤ r.createdAt) ∧ (∀ t ∈ f.stop, r.createdAt ≤ t) ∧ ∀ id ∈ f.beforeID, r.id < id

structure Directory where
  email : UUID → Option String
  customerName : UUID → Option String

structure AuditRow extends Row where
  actorEmail : Option String
  customerName : Option String

def Row.join (dir : Directory) (r : Row) : AuditRow where
  toRow := r
  actorEmail := r.actorUserID.bind dir.email
  customerName := r.customerID.bind dir.customerName

def listRows (log : Log) (dir : Directory) (f : AuditFilter) : List AuditRow :=
  (((Descending.stable Row.id).sort (log.rows.filter f.selects)).take f.limit).map (·.join dir)

structure Params where
  action : Option String := none
  entityType : Option String := none
  customerID : Option UUID := none
  actorUserID : Option UUID := none
  start : Option Int := none
  stop : Option Int := none
  limit : Option Int := none
  beforeID : Option Int := none

def Params.pageSize (p : Params) : Nat :=
  let limit := p.limit.getD 50
  if limit < 1 then 1 else if 200 < limit then 200 else limit.toNat

def Params.filter (p : Params) : AuditFilter where
  action := p.action
  entityType := p.entityType
  customerID := p.customerID
  actorUserID := p.actorUserID
  start := p.start
  stop := p.stop
  limit := p.pageSize
  beforeID := p.beforeID

structure AuditEntry where
  id : Int
  actorType : String
  actorUserID : Option UUID
  actorEmail : Option String
  action : String
  entityType : String
  entityID : String
  customerID : Option UUID
  customerName : Option String
  payload : Option Json.Value
  createdAt : Int

def payloadOf : Option Json.Value → Option Json.Value
  | some (.obj fields) => some (.obj fields)
  | some .null => some .null
  | _ => none

def AuditRow.entry (r : AuditRow) : AuditEntry where
  id := r.id
  actorType := r.actorType
  actorUserID := r.actorUserID
  actorEmail := r.actorEmail
  action := r.action
  entityType := r.entityType
  entityID := r.entityID
  customerID := r.customerID
  customerName := r.customerName
  payload := payloadOf r.payload
  createdAt := r.createdAt

structure Response where
  entries : List AuditEntry
  nextBeforeID : Option Int

def listAuditLog (log : Log) (dir : Directory) (p : Params) : Response :=
  let rows := listRows log dir p.filter
  { entries := rows.map (·.entry)
    nextBeforeID := if rows.length = p.pageSize then rows.getLast?.map (·.id) else none }

end Listing

section Reading

structure Reader where
  log : Log
  entries : List AuditEntry := []
  cursor : Option Int := none
  finished : Bool := false

inductive Action where
  | event (e : Event)
  | request (dir : Directory)

def Action.isRequest : Action → Bool
  | event _ => false
  | request _ => true

def Reader.request (p : Params) (r : Reader) (dir : Directory) : Reader :=
  if r.finished then r
  else
    let reply := listAuditLog r.log dir { p with beforeID := r.cursor }
    { r with
      entries := r.entries ++ reply.entries
      cursor := reply.nextBeforeID
      finished := reply.nextBeforeID.isNone }

def Reader.step (p : Params) (r : Reader) : Action → Reader
  | .event e => { r with log := r.log.step e }
  | .request dir => r.request p dir

end Reading

end Audit
