import Mathlib.Data.List.Infix
import OtelFleet.Store.Users

-- The deletion of a user, with all tables that refer to users.
namespace Store.Deletion

-- The tables with a column that names the user who made the row, or changed it last. None of these
-- references says what is to happen to the row when the user is deleted.
inductive Table where
  | apiKeys
  | pipelineVersions
  | bootstrapTokens
  | webhooks
  | apiTokens
  | billingSettings
deriving DecidableEq

structure Attributed (α : Type) where
  createdBy : Option UUID
  columns : α

structure Session where
  token : String
  data : List UInt8
  expiry : Int
deriving DecidableEq

structure AuditEntry where
  actorUserID : Option UUID
  action : String
  entityType : String
  entityID : String
deriving DecidableEq

-- The encoding of session data, in which the identifier of the user appears as its text.
class SessionCodec where
  text : UUID → List UInt8
  userOf : List UInt8 → Option UUID
  text_mem : ∀ data id, userOf data = some id → text id <:+: data

structure Database (κ : Table → Type) where
  accounts : Accounts
  rows : (t : Table) → List (Attributed (κ t))
  sessions : List Session
  audit : List AuditEntry

variable {κ : Table → Type}

def Attributed.detach {α : Type} (id : UUID) (r : Attributed α) : Attributed α :=
  { r with createdBy := if r.createdBy = some id then none else r.createdBy }

namespace Database

def detach (id : UUID) (db : Database κ) (t : Table) : Database κ :=
  { db with rows := Function.update db.rows t ((db.rows t).map (·.detach id)) }

def detached : List Table :=
  [.apiKeys, .pipelineVersions, .bootstrapTokens]

def Referenced (db : Database κ) (id : UUID) : Prop :=
  ∃ t, ∃ r ∈ db.rows t, r.createdBy = some id

instance (db : Database κ) (id : UUID) : Decidable (db.Referenced id) :=
  decidable_of_iff (∃ t ∈ [Table.apiKeys, .pipelineVersions, .bootstrapTokens, .webhooks, .apiTokens, .billingSettings],
      ∃ r ∈ db.rows t, r.createdBy = some id)
    ⟨fun ⟨t, _, h⟩ => ⟨t, h⟩, fun ⟨t, h⟩ => ⟨t, by cases t <;> simp, h⟩⟩

def deleteSessionsByUser [SessionCodec] (db : Database κ) (id : UUID) : Database κ :=
  { db with sessions := db.sessions.filter fun s => !decide (SessionCodec.text id <:+: s.data) }

-- A user that some row still refers to is not deleted. Identities and grants go with the user.
def deleteUserRow (db : Database κ) (id : UUID) : Except UserError (Database κ) :=
  if (db.accounts.user? id).isNone then .error .notFound
  else if db.Referenced id then .error (.failed "delete user")
  else .ok { db with accounts := db.accounts.removeUser id }

def deleteUser [SessionCodec] (db : Database κ) (id : UUID) (entries : List AuditEntry) :
    Except UserError (Database κ) := do
  let db ← (detached.foldl (detach id) db).deleteUserRow id
  let accounts ← db.accounts.ensureEnabledAdminRemains
  let db := { db with accounts := accounts }.deleteSessionsByUser id
  return { db with audit := db.audit ++ entries }

end Database
end Store.Deletion
