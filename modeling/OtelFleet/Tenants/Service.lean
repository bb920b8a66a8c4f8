import OtelFleet.Lib.Strconv
import OtelFleet.Lib.Strings
import OtelFleet.Tenants.Slug

-- How customers come by their slugs.
namespace Tenants

inductive Insert where
  | created
  | slugExists
  -- The client ID is taken.
  | conflict
  | failed (message : String)

inductive CreateError where
  | invalidName
  | invalidSlug
  | slugExists
  | noFreeSlug (baseSlug : String)
  | failed (message : String)
deriving DecidableEq

-- The attempts that are left. A derived slug gets a suffix when it is taken; a client ID that is taken
-- is drawn again.
def tryCreate (baseSlug : String) (derived : Bool) (insert : Nat → String → Insert) :
    Nat → Nat → String → Except CreateError String
  | 0, _, _ => .error (.noFreeSlug baseSlug)
  | left + 1, attempt, trySlug =>
    match insert attempt trySlug with
    | .created => .ok trySlug
    | .slugExists =>
      if derived then
        tryCreate baseSlug derived insert left (attempt + 1) (baseSlug ++ "-" ++ Strconv.itoa (attempt + 1))
      else .error .slugExists
    | .conflict => tryCreate baseSlug derived insert left (attempt + 1) trySlug
    | .failed message => .error (.failed message)

def maxAttempts : Nat :=
  10

def createCustomer (name : String) (slug : Option String) (insert : Nat → String → Insert) :
    Except CreateError String :=
  let name := Strings.trimSpace name
  if name = "" ∨ 200 < name.utf8ByteSize then .error .invalidName
  else
    match slug with
    | none => tryCreate (deriveSlug name) true insert maxAttempts 1 (deriveSlug name)
    | some slug =>
      if validSlug slug then tryCreate slug false insert maxAttempts 1 slug else .error .invalidSlug

inductive Producible : String → Prop where
  | accepted {s : String} (h : validSlug s) : Producible s
  | derived (name : String) : Producible (deriveSlug name)
  | created {name s : String} {slug : Option String} {insert : Nat → String → Insert}
      (h : createCustomer name slug insert = .ok s) : Producible s

end Tenants
