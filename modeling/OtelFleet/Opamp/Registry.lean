import OtelFleet.Store.Fleet
import Mathlib.Logic.Function.Basic

-- The connected agents, as the OpAMP server knows them.
namespace Opamp

open Store (UUID Hash InstanceUID RemoteConfigStatus)

-- Connections are only ever compared.
abbrev ConnID := Nat

structure AgentConn where
  conn : ConnID
  instanceUID : InstanceUID
  agentID : UUID
  customerID : UUID
  capabilities : UInt64
  lastAckedHash : Hash
  remoteConfigStatus : RemoteConfigStatus
  healthy : Option Bool
  lastSeen : Int
  dirtySeen : Bool
  tokenOffered : Bool
deriving DecidableEq, Inhabited

def AgentConn.accepts (st : AgentConn) (capability : UInt64) : Bool :=
  st.capabilities &&& capability ≠ 0

abbrev Ref := Nat

-- The registry holds pointers to states, which the handlers of messages go on using, hence the heap.
structure Registry where
  heap : Ref → AgentConn
  next : Ref
  byUID : List (InstanceUID × Ref)
  byConn : ConnID → Option InstanceUID

def newRegistry : Registry :=
  { heap := fun _ => default, next := 0, byUID := [], byConn := fun _ => none }

namespace Registry

def ref? (r : Registry) (uid : InstanceUID) : Option Ref :=
  r.byUID.lookup uid

def live? (r : Registry) (uid : InstanceUID) : Option AgentConn :=
  (r.ref? uid).map r.heap

def new (r : Registry) (st : AgentConn) : Ref × Registry :=
  (r.next, { r with heap := Function.update r.heap r.next st, next := r.next + 1 })

def modify (r : Registry) (ref : Ref) (f : AgentConn → AgentConn) : Registry :=
  { r with heap := Function.update r.heap ref (f (r.heap ref)) }

def put (r : Registry) (ref : Ref) : Registry :=
  let st := r.heap ref
  let byConn :=
    match r.live? st.instanceUID with
    | some prev => if prev.conn ≠ st.conn then Function.update r.byConn prev.conn none else r.byConn
    | none => r.byConn
  { r with
    byUID := (st.instanceUID, ref) :: r.byUID.filter (·.1 ≠ st.instanceUID)
    byConn := Function.update byConn st.conn (some st.instanceUID) }

def update (r : Registry) (uid : InstanceUID) (f : AgentConn → AgentConn) : Registry :=
  match r.ref? uid with
  | some ref => r.modify ref f
  | none => r

-- Changes a state and, if the registry has another one by now, that one too.
def modifyBoth (r : Registry) (ref : Ref) (f : AgentConn → AgentConn) : Registry :=
  (r.modify ref f).update (r.heap ref).instanceUID f

def removeConn (r : Registry) (conn : ConnID) : Option AgentConn × Registry :=
  match r.byConn conn with
  | none => (none, r)
  | some uid =>
    let r := { r with byConn := Function.update r.byConn conn none }
    match r.live? uid with
    | none => (none, r)
    | some st =>
      if st.conn = conn then (some st, { r with byUID := r.byUID.filter (·.1 ≠ uid) })
      else (none, r)

def conns (r : Registry) : List AgentConn :=
  r.byUID.map fun e => r.heap e.2

def connsForCustomer (r : Registry) (customerID : UUID) : List AgentConn :=
  r.conns.filter fun st => st.customerID = customerID ∧ st.agentID ≠ Store.nilUUID

-- Collects the times that have not been written yet.
def drainDirtySeen (r : Registry) : List (UUID × Int) × Registry :=
  let dirty := r.byUID.filter fun e => (r.heap e.2).dirtySeen ∧ (r.heap e.2).agentID ≠ Store.nilUUID
  (dirty.map fun e => ((r.heap e.2).agentID, (r.heap e.2).lastSeen),
    dirty.foldl (fun r e => r.modify e.2 fun st => { st with dirtySeen := false }) r)

end Registry
end Opamp
