import OtelFleet.Api.Users
import OtelFleet.Auth.Login
import OtelFleet.Lib.Histories

open Store (UUID Accounts UserError)
open Strings (Casing)

-- Histories of accounts and login providers.
namespace Auth

section SCIM

structure SCIMEmail where
  value : String
  isPrimary : Bool := false

structure SCIMPayload where
  userName : String
  externalID : String := ""
  displayName : String := ""
  formattedName : Option String := none
  emails : List SCIMEmail := []

def SCIMPayload.primaryEmail (p : SCIMPayload) : String :=
  let name := Strings.trimSpace p.userName
  if name ≠ "" then name
  else (((p.emails.find? fun e => e.isPrimary && e.value ≠ "") <|> p.emails.head?).map (·.value)).getD ""

def SCIMPayload.display (p : SCIMPayload) : String :=
  if p.displayName ≠ "" then p.displayName else p.formattedName.getD ""

def SCIMPayload.email? [Casing] (p : SCIMPayload) : Option String :=
  let email := Strings.toLower (Strings.trimSpace p.primaryEmail)
  if email = "" ∨ '@' ∉ email.toList then none else some email

def scimCreateUser [Casing] (cfg : Config) (newID : UUID) (p : SCIMPayload) (a : Accounts) : Accounts :=
  match p.email? with
  | none => a
  | some email =>
    ((a.createSCIMUser newID email cfg.defaultRole (nonEmpty p.display) (nonEmpty p.externalID)).toOption).getD a

end SCIM

def deleteUser (id : UUID) (a : Accounts) : Accounts :=
  if (a.user? id).isNone then a else ((a.removeUser id).ensureEnabledAdminRemains.toOption).getD a

structure SignIn where
  identityKey : String
  issuer : String
  subject : String
  userID : UUID
deriving DecidableEq

structure State where
  accounts : Accounts
  providers : List AuthProvider := []
  -- The logins so far that were let in.
  signIns : List SignIn := []

inductive Event where
  -- Invitations and changes by admins, with the failures of the store on the way.
  | administer (faults : List (Option UserError)) (request : Api.Users.Request)
  | deleteUser (id : UUID)
  | scimCreate (newID : UUID) (p : SCIMPayload)
  | scimUpdate (id : UUID) (displayName externalID : Option String)
  | scimSetActive (now : Int) (id : UUID) (active : Bool)
  | createProvider (newID : UUID) (body : CreateBody)
  | updateProvider (id : UUID) (body : UpdateBody)
  | deleteProvider (id : UUID)
  | devLogin (now : Int) (newID : UUID) (email : String)
  | login (now : Int) (newID : UUID) (name : String) (report : Report)

structure Attempt where
  now : Int
  newID : UUID
  identityKey : String
  verified : Verified

structure Setup where
  config : Config
  out : Outside

variable [Casing] (env : Setup)

def State.attempt? (s : State) : Event → Option Attempt
  | .devLogin now newID email =>
    if env.config.devLogin then
      (verifyDev email).toOption.map fun v => { now := now, newID := newID, identityKey := "dev", verified := v }
    else none
  | .login now newID name report =>
    (resolve env.out env.config.oidcProviders s.providers name).bind fun info =>
      (report.verify env.out info).toOption.map fun v =>
        { now := now, newID := newID, identityKey := info.identityKey, verified := v }
  | _ => none

def Attempt.finish (l : Attempt) (a : Accounts) : Outcome × Accounts :=
  Auth.finish env.config l.now l.newID l.identityKey l.verified a

-- What events other than logins do to the accounts, and to the providers.
def Event.accounts (a : Accounts) : Event → Accounts
  | .administer faults request => (Api.Users.respond request { state := a, faults := faults }).2.state
  | .deleteUser id => Auth.deleteUser id a
  | .scimCreate newID p => scimCreateUser env.config newID p a
  | .scimUpdate id displayName externalID => ((a.updateSCIMUser id displayName externalID).toOption).getD a
  | .scimSetActive now id active => ((a.updateUserAdmin now id { disabled := some !active }).toOption).getD a
  | _ => a

def Event.providers (providers : List AuthProvider) : Event → List AuthProvider
  | .createProvider newID body => ((createAuthProviderConfig env.out newID body providers).toOption).getD providers
  | .updateProvider id body => ((updateAuthProviderConfig env.out id body providers).toOption).getD providers
  | .deleteProvider id => ((deleteAuthProviderConfig id providers).toOption).getD providers
  | _ => providers

def Attempt.signIn (l : Attempt) : Outcome → List SignIn
  | .signedIn id =>
    [{ identityKey := l.identityKey, issuer := l.verified.issuer, subject := l.verified.subject, userID := id }]
  | _ => []

def State.step (s : State) (e : Event) : State :=
  match s.attempt? env e with
  | some l =>
    let r := l.finish env s.accounts
    { s with accounts := r.2, signIns := s.signIns ++ l.signIn r.1 }
  | none => { s with accounts := e.accounts env s.accounts, providers := e.providers env s.providers }

end Auth
