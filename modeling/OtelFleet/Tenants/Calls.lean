import OtelFleet.Lib.Interleave
import OtelFleet.Tenants.Accounts

open Store (UUID)
open Store.Keys (Database Customer)

-- Calls that create customers side by side. Every attempt is a transaction of its own.
namespace Tenants.Accounts

variable [Runtime]

structure Asked where
  name : String
  slug : Option String

structure Loop where
  asked : Option String
  name : String
  baseSlug : String
  attempt : Nat
  trySlug : String

structure Input where
  draw : Draw
  fault : Option String := none

structure Created where
  customer : Customer
  issued : Issued

inductive Call where
  | idle
  | begun (asked : Asked)
  | trying (l : Loop)
  | inserting (l : Loop) (x : Input)
  | done (asked : Option String) (result : Except Error Created)

def Call.isIdle : Call → Bool
  | idle | done _ _ => true
  | _ => false

def check (asked : Asked) : Call :=
  let name := Strings.trimSpace asked.name
  if name = "" ∨ 200 < name.utf8ByteSize then .done asked.slug (.error .invalidName)
  else
    match asked.slug with
    | none =>
      .trying { asked := none, name := name, baseSlug := deriveSlug name, attempt := 1, trySlug := deriveSlug name }
    | some slug =>
      if validSlug slug then
        .trying { asked := some slug, name := name, baseSlug := slug, attempt := 1, trySlug := slug }
      else .done (some slug) (.error .invalidSlug)

def Loop.newCustomer (l : Loop) (d : Draw) : Store.Keys.NewCustomer :=
  d.newCustomer l.name l.trySlug

def Loop.insert (db : Database) (l : Loop) (x : Input) : Except Store.Keys.Error Database :=
  match x.fault with
  | some message => .error (.failed message)
  | none => db.createCustomer (l.newCustomer x.draw) x.draw.newKey

def Loop.created (l : Loop) (d : Draw) : Created where
  customer := (l.newCustomer d).row
  issued := d.issued

def step (x : Input) (db : Database) : Call → Call × Database
  | .begun asked => (check asked, db)
  | .trying l =>
    if l.attempt ≤ maxAttempts then (.inserting l x, db)
    else (.done l.asked (.error (.noFreeSlug l.baseSlug)), db)
  | .inserting l x =>
    match l.insert db x with
    | .ok db' => (.done l.asked (.ok (l.created x.draw)), db')
    | .error .slugExists =>
      if l.asked.isNone then
        (.trying { l with
          attempt := l.attempt + 1
          trySlug := l.baseSlug ++ "-" ++ Strconv.itoa (l.attempt + 1) }, db)
      else (.done l.asked (.error (.store .slugExists)), db)
    | .error .conflict => (.trying { l with attempt := l.attempt + 1 }, db)
    | .error e => (.done l.asked (.error (.store e)), db)
  | k => (k, db)

def calls : Interleave.System Asked Call Database Input where
  idle := .idle
  isIdle := Call.isIdle
  begin := .begun
  step := step

def stored (_ : Input) (db : Database) : Call → List (Option String × String)
  | .inserting l x =>
    match l.insert db x with
    | .ok _ => [(l.asked, l.trySlug)]
    | .error _ => []
  | _ => []

end Tenants.Accounts
