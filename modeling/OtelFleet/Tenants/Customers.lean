import OtelFleet.Lib.Strings
import OtelFleet.Store.Tables

open Store (UUID DB CustomerUpdate)

-- The service behind the endpoints of customers.
namespace Tenants

inductive Error where
  | invalidName
  | store (e : Store.Error)

def ofStore {α : Type} : Except Store.Error α → Except Error α
  | .ok x => .ok x
  | .error e => .error (.store e)

def checkName : Option String → Except Error (Option String)
  | none => .ok none
  | some name =>
    let trimmed := Strings.trimSpace name
    if trimmed = "" ∨ 200 < trimmed.utf8ByteSize then .error .invalidName else .ok (some trimmed)

def updateCustomer (db : DB) (id : UUID) (upd : CustomerUpdate) : Except Error DB := do
  let name ← checkName upd.name
  ofStore (db.updateCustomer id { upd with name := name })

def deleteCustomer (db : DB) (id : UUID) : Except Error DB :=
  ofStore (db.softDeleteCustomer id)

end Tenants
