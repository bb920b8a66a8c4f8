import OtelFleet.Api.Pipelines
import OtelFleet.Tenants.Accounts

open Store (UUID CustomerStatus)
open Store.Keys (Database Customer)
open Strings (Casing equalFold)

-- The handler that patches a customer.
namespace Api.Customers

section Body

-- The value of a field, as far as the fields of the request tell values apart. Numbers with a fraction or
-- an exponent are not integers.
inductive Given where
  | null
  | int (n : Int)
  | str (s : String)
  | other
deriving DecidableEq

-- What a text starts with: null, an object, whose keys may repeat, or nothing that the request is read from.
inductive First where
  | null
  | object (fields : List (String × Given))
  | other
deriving DecidableEq

-- A text, with the number of bytes of the value that it starts with, and the bytes after it.
structure Text where
  first : First
  size : Nat
  rest : List UInt8
deriving DecidableEq

def rawBodyLimit : Nat :=
  1048576

def captureRawBody (t : Text) : Text :=
  if t.size ≤ rawBodyLimit then { t with rest := t.rest.take (rawBodyLimit - t.size) }
  else { first := .other, size := rawBodyLimit, rest := [] }

def Text.fields (t : Text) : Option (List (String × Given)) :=
  match t.first with
  | .null => some []
  | .object fields => some fields
  | .other => none

def isSpace (b : UInt8) : Bool :=
  b = 0x20 || b = 0x09 || b = 0x0a || b = 0x0d

-- Whether json.Unmarshal reads the text: it takes only blanks after the value.
def Text.ended (t : Text) : Bool :=
  t.rest.all isSpace

variable [Casing]

def lastGiven (fields : List (String × Given)) (key : String) : Option Given :=
  (fields.reverse.find? fun f => equalFold f.1 key).map (·.2)

def Given.isInt : Given → Bool
  | .null => true
  | .int n => -2 ^ 63 ≤ n && n < 2 ^ 63
  | _ => false

def Given.isStr : Given → Bool
  | .null | .str _ => true
  | _ => false

def Given.int? : Given → Option Int
  | .int n => some n
  | _ => none

def Given.str? : Given → Option String
  | .str s => some s
  | _ => none

structure UpdateBody where
  name : Option String
  rateLimitItemsPerSec : Option Int
  retentionDays : Option Int
  status : Option String
deriving DecidableEq

def typed (fields : List (String × Given)) (isType : Given → Bool) (key : String) : Bool :=
  fields.all fun f => !equalFold f.1 key || isType f.2

-- What the decoder makes of a text. It stops at the end of the first value; a value of another type is an error.
def decode (t : Text) : Option UpdateBody := do
  let fields ← t.fields
  if typed fields Given.isStr "name" && typed fields Given.isInt "rateLimitItemsPerSec" &&
      typed fields Given.isInt "retentionDays" && typed fields Given.isStr "status" then
    some {
      name := (lastGiven fields "name").bind Given.str?
      rateLimitItemsPerSec := (lastGiven fields "rateLimitItemsPerSec").bind Given.int?
      retentionDays := (lastGiven fields "retentionDays").bind Given.int?
      status := (lastGiven fields "status").bind Given.str? }
  else none

end Body

section Handler

abbrev OptionalInt := Option (Option Int)

-- Key presence comes from a second reading of the body, by keys as they are written.
def quotaRetentionUpdate (raw : Option Text) (body : UpdateBody) : OptionalInt × OptionalInt :=
  match raw with
  | none => (body.rateLimitItemsPerSec.map some, body.retentionDays.map some)
  | some t =>
    match t.fields with
    | none => (none, none)
    | some fields =>
      let present (key : String) : Bool := t.ended && fields.any (·.1 = key)
      (if present "rateLimitItemsPerSec" then some body.rateLimitItemsPerSec else none,
        if present "retentionDays" then some body.retentionDays else none)

structure State where
  accounts : Database
  retentionDays : UUID → Option Int

def CustomerStatus.ofName (name : String) : Option CustomerStatus :=
  match name with
  | "active" => some .active
  | "suspended" => some .suspended
  | "deleted" => some .deleted
  | _ => none

def storeCustomer (s : State) (id : UUID) (name status : Option String) (rateLimit retention : OptionalInt) :
    Except Tenants.Accounts.Error State :=
  match status.map CustomerStatus.ofName with
  | some none =>
    match Tenants.Accounts.updateCustomer s.accounts id { name := name } with
    | .error e => .error e
    | .ok _ => .error (.store (.failed "update customer"))
  | st =>
    match Tenants.Accounts.updateCustomer s.accounts id {
        name := name
        status := st.bind (·)
        rateLimitItemsPerSec := rateLimit.map (·.map Int.toNat) } with
    | .error e => .error e
    | .ok accounts =>
      .ok { accounts := accounts, retentionDays := retention.elim s.retentionDays (Function.update s.retentionDays id) }

def update (who : Option Principal) (s : State) (id : UUID) (raw : Option Text) (body : UpdateBody) :
    Except Response State :=
  if !requireCustomerAccess who id then .error forbidden
  else
    let (rateLimit, retention) := quotaRetentionUpdate raw body
    if ∃ value ∈ rateLimit, ∃ n ∈ value, n < 1 then
      .error (badRequest "rateLimitItemsPerSec must be >= 1 (or null for unlimited)")
    else if ∃ value ∈ retention, ∃ n ∈ value, n < 1 ∨ 30 < n then
      .error (badRequest "retentionDays must be between 1 and 30 (or null for the global TTL)")
    else
      match storeCustomer s id body.name body.status rateLimit retention with
      | .error .invalidName => .error (badRequest "name must be 1-200 characters")
      | .error (.store .notFound) => .error (notFound "customer not found")
      | .error _ => .error internalError
      | .ok s' => .ok s'

def updateCustomer [Casing] (who : Option Principal) (s : State) (id : UUID) (t : Text) : Except Response State :=
  let raw := captureRawBody t
  match decode raw with
  | none => .error (badRequest "can't decode JSON body")
  | some body => update who s id (some raw) body

end Handler

end Api.Customers
