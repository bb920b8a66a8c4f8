import OtelFleet.Store.Tables
import OtelFleet.Lib.Grouping
import OtelFleet.Lib.Sorting

open Store (UUID DB Customer)
open Grouping (groupBy)
open Sorting (sortBy)

-- The usage numbers of the dashboard.
namespace Stats

structure IngestCount where
  tenantID : String
  signal : String
  minute : Int
  items : UInt64
  bytes : UInt64

structure CustomerRef where
  id : UUID
  name : String
  clientID : String

-- The entries of a map come in any order.
structure Iteration where
  order {α : Type} : List α → List α
  perm {α : Type} (l : List α) : (order l).Perm l

def inRange (counts : List IngestCount) (start stop : Int) : List IngestCount :=
  counts.filter fun c => start ≤ c.minute ∧ c.minute < stop

def sum (ns : List Int64) : Int64 :=
  ns.foldl (· + ·) 0

section Customers

def countActiveCustomers (db : DB) : Nat :=
  db.customers.countP (·.status = .active)

def customerRef (c : Customer) : CustomerRef where
  id := c.id
  name := c.name
  clientID := c.clientID

def listCustomerRefs (db : DB) : List CustomerRef :=
  db.customers.map customerRef

def byClientID (refs : List CustomerRef) (clientID : String) : Option CustomerRef :=
  refs.reverse.find? (·.clientID = clientID)

end Customers

section Overview

structure TopCustomer where
  customerID : UUID
  name : String
  items : Int64
deriving DecidableEq

structure Overview where
  activeCustomers : Nat
  totals : String → Int64
  refusedRequests : Int64
  topCustomers : List TopCustomer

def topCustomersLimit : Nat :=
  5

structure SignalCount where
  tenantID : String
  signal : String
  items : UInt64

def queryOverview (counts : List IngestCount) (start stop : Int) : List SignalCount :=
  (groupBy (fun c => (c.tenantID, c.signal)) (inRange counts start stop)).map fun g => {
    tenantID := g.1.1
    signal := g.1.2
    items := g.2.foldl (fun n c => n + c.items) 0 }

def perTenantSignal (rows : List SignalCount) : List (String × List (String × Int64)) :=
  (groupBy (·.tenantID) rows).map fun g =>
    (g.1, (groupBy (·.signal) g.2).map fun s => (s.1, sum (s.2.map (·.items.toInt64))))

structure Tally where
  totals : String → Int64
  top : List TopCustomer

def addTotal (totals : String → Int64) (s : String × Int64) : String → Int64 :=
  Function.update totals s.1 (totals s.1 + s.2)

def Tally.add (t : Tally) (ref : CustomerRef) (bySignal : List (String × Int64)) : Tally where
  totals := bySignal.foldl addTotal t.totals
  top := t.top ++ [{ customerID := ref.id, name := ref.name, items := sum (bySignal.map (·.2)) }]

def tallyTenant (it : Iteration) (refs : List CustomerRef) (allowed : Option (List UUID)) (t : Tally)
    (tenant : String × List (String × Int64)) : Tally :=
  match byClientID refs tenant.1 with
  -- Data of tenants that the control plane does not know.
  | none => t
  | some ref => if allowed.all (ref.id ∈ ·) then t.add ref (it.order tenant.2) else t

def tally (it : Iteration) (refs : List CustomerRef) (allowed : Option (List UUID))
    (tenants : List (String × List (String × Int64))) : Tally :=
  (it.order tenants).foldl (tallyTenant it refs allowed) { totals := fun _ => 0, top := [] }

def topKey (c : TopCustomer) : Lex (Int × String) :=
  toLex (-c.items.toInt, c.name)

-- A caller with a scope sees nothing of the refused requests, which are counted for the whole fleet.
def getOverview (it : Iteration) (db : DB) (counts : List IngestCount) (refusedRequests : Int64)
    (start stop : Int) (allowed : Option (List UUID)) : Overview :=
  let t := tally it (listCustomerRefs db) allowed (perTenantSignal (queryOverview counts start stop))
  { activeCustomers := allowed.elim (countActiveCustomers db) (·.dedup.length)
    totals := t.totals
    refusedRequests := if allowed.isNone then refusedRequests else 0
    topCustomers := (sortBy topKey t.top).take topCustomersLimit }

end Overview

section Cost

structure CostDay where
  date : Int
  items : Int64
  bytes : Int64
deriving DecidableEq

structure CustomerCost where
  customerID : UUID
  name : String
  items : Int64
  bytes : Int64
  days : List CostDay
deriving DecidableEq

structure CostRow where
  tenantID : String
  date : Int
  items : UInt64
  bytes : UInt64

def toDate (time : Int) : Int :=
  time / 86400

def queryCost (counts : List IngestCount) (start stop : Int) : List CostRow :=
  let groups := groupBy (fun c => (c.tenantID, toDate c.minute)) (inRange counts start stop)
  let rows := groups.map fun g => {
    tenantID := g.1.1
    date := g.1.2
    items := g.2.foldl (fun n c => n + c.items) 0
    bytes := g.2.foldl (fun n c => n + c.bytes) 0 }
  sortBy (fun r : CostRow => toLex (r.tenantID, r.date)) rows

def CostRow.day (r : CostRow) : CostDay where
  date := r.date
  items := r.items.toInt64
  bytes := r.bytes.toInt64

def customerCost (ref : CustomerRef) (rows : List CostRow) : CustomerCost where
  customerID := ref.id
  name := ref.name
  items := sum (rows.map (·.items.toInt64))
  bytes := sum (rows.map (·.bytes.toInt64))
  days := rows.map CostRow.day

def costKey (c : CustomerCost) : Lex (Int × String) :=
  toLex (-c.bytes.toInt, c.name)

def getCost (db : DB) (counts : List IngestCount) (start stop : Int) : List CustomerCost :=
  let perTenant := groupBy (·.tenantID) (queryCost counts start stop)
  let costs := perTenant.filterMap fun g =>
    (byClientID (listCustomerRefs db) g.1).map fun ref => customerCost ref g.2
  sortBy costKey costs

end Cost

end Stats
