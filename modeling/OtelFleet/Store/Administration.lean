import OtelFleet.Lib.Interleave
import OtelFleet.Store.Users

-- The transactions of user administration statement by statement, as they interleave at READ COMMITTED:
-- every statement reads the rows that are committed by then, with the writes of its own transaction.
namespace Store.Administration

structure Server where
  users : List User
  locked : List UUID

inductive Request where
  | updateUserAdmin (now : Int) (id : UUID) (upd : UserUpdate)
  | deleteUser (id : UUID)
  -- The switch of SCIM, which goes through the update.
  | setActive (now : Int) (id : UUID) (active : Bool)

-- The row that a transaction has locked, and what it has made of it. Nothing is left of a deleted row.
structure Write where
  old : User
  new : Option User

namespace Write

def apply (w : Write) (users : List User) : List User :=
  users.filterMap fun u => if u.id = w.old.id then w.new else some u

def takes (w : Write) : Bool :=
  w.old.isEnabledAdmin && !w.new.any (·.isEnabledAdmin)

end Write

-- The statement that a transaction executes next, and what it has learned by then. The statements on
-- other tables are left out.
inductive Txn where
  | idle
  | select (now : Int) (id : UUID) (upd : UserUpdate)
  | updateRole (now : Int) (upd : UserUpdate) (old : User)
  | updateDisabled (now : Int) (upd : UserUpdate) (old u : User)
  | delete (id : UUID)
  | count (w : Write)
  | commit (w : Write)

namespace Txn

def isIdle : Txn → Bool
  | idle => true
  | _ => false

def row? : Txn → Option User
  | updateRole _ _ old => some old
  | updateDisabled _ _ old _ => some old
  | count w => some w.old
  | commit w => some w.old
  | _ => none

def takes : Txn → Bool
  | commit w => w.takes
  | _ => false

end Txn

def Request.begin : Request → Txn
  | updateUserAdmin now id upd => .select now id upd
  | deleteUser id => .delete id
  | setActive now id active => .select now id { disabled := some !active }

namespace Server

def lock (s : Server) (id : UUID) : Server :=
  { s with locked := id :: s.locked }

def release (s : Server) (t : Txn) : Server :=
  { s with locked := s.locked.filter fun id => t.row?.all (·.id ≠ id) }

end Server

-- Locks a row once it is free. A transaction that waits for a lock stays where it is.
def lockRow (s : Server) (t : Txn) (id : UUID) (locked : User → Txn) : Txn × Server :=
  if id ∈ s.locked then (t, s)
  else
    match s.users.find? (·.id = id) with
    | none => (.idle, s)
    | some u => (locked u, s.lock id)

-- The next statement.
def Txn.next (s : Server) (t : Txn) : Txn × Server :=
  match t with
  | .idle => (.idle, s)
  | .select now id upd => lockRow s t id (.updateRole now upd)
  | .updateRole now upd old =>
    (.updateDisabled now upd old (upd.role.elim old fun role => { old with role := role }), s)
  | .updateDisabled now upd old u =>
    (.count { old := old, new := some (upd.disabled.elim u (u.setDisabled now)) }, s)
  | .delete id => lockRow s t id fun u => .count { old := u, new := none }
  -- The check that an enabled admin remains.
  | .count w =>
    if (w.apply s.users).any (·.isEnabledAdmin) then (.commit w, s) else (.idle, s.release t)
  | .commit w => (.idle, { s.release t with users := w.apply s.users })

-- A transaction may also be aborted at any time.
def Txn.step (abort : Bool) (s : Server) (t : Txn) : Txn × Server :=
  if abort then (.idle, s.release t) else t.next s

def transactions : Interleave.System Request Txn Server Bool where
  idle := .idle
  isIdle := Txn.isIdle
  begin := Request.begin
  step := Txn.step

def Server.of (users : List User) : Server :=
  { users := users, locked := [] }

end Store.Administration
