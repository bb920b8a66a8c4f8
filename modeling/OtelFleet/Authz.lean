import Mathlib.Tactic.Common

-- The roles of the control plane: viewers only read, and mutations take an operator or an admin.
namespace Authz

inductive Role where
  | viewer
  | operator
  | admin
deriving DecidableEq

namespace Role

def name : Role → String
  | viewer => "viewer"
  | operator => "operator"
  | admin => "admin"

def level : Role → Nat
  | viewer => 1
  | operator => 2
  | admin => 3

def atLeast (role min : Role) : Bool :=
  min.level ≤ role.level

def canMutate (role : Role) : Bool :=
  role.atLeast operator

def ofName (name : String) : Option Role :=
  [viewer, operator, admin].find? (·.name = name)

end Role

end Authz
