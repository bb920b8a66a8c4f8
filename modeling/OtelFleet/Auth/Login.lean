import OtelFleet.Auth.Providers
import OtelFleet.Store.Users

open Authz (Role)
open Store (UUID Accounts)
open Strings (Casing)

-- What providers report about a login, and how it ends.
namespace Auth

structure Config where
  adminEmails : List String := []
  devLogin : Bool := false
  oidcProviders : List OIDCProvider := []
  -- The role of users that come in through SCIM.
  defaultRole : Role := .viewer

def Config.isAdminEmail [Casing] (cfg : Config) (email : String) : Bool :=
  cfg.adminEmails.contains (Strings.toLower (Strings.trimSpace email))

structure OIDCClaims where
  issuer : String
  subject : String
  email : String
  emailVerified : Option Bool := none
  name : String := ""

structure GitHubUser where
  id : Int
  login : String
  name : String := ""

structure GitHubEmail where
  email : String
  isPrimary : Bool
  verified : Bool

structure Assertion where
  nameID : String
  values : List (String × String) := []

inductive Report where
  | oidc (claims : OIDCClaims)
  | github (user : GitHubUser) (emails : List GitHubEmail)
  | saml (assertion : Assertion)

structure Verified where
  issuer : String
  subject : String
  email : String
  displayName : Option String := none

def nonEmpty (s : String) : Option String :=
  if s = "" then none else some s

section OIDC

-- ^https://login\.microsoftonline\.com/[0-9a-fA-F-]+/v2\.0$
def matchesMicrosoftIssuer (issuer : String) : Bool :=
  (Strings.cutPrefix issuer "https://login.microsoftonline.com/").any fun rest =>
    let tenant := rest.toList.takeWhile fun c => c.isDigit || 'a' ≤ c && c ≤ 'f' || 'A' ≤ c && c ≤ 'F' || c = '-'
    tenant ≠ [] && rest.toList.drop tenant.length = "/v2.0".toList

def checkIssuer (out : Outside) (info : ProviderInfo) (claims : OIDCClaims) : Except String Unit :=
  if info.type = .microsoft then
    if matchesMicrosoftIssuer claims.issuer then .ok () else .error "invalid id_token issuer"
  else if out.acceptsIssuer info.issuer claims.issuer then .ok ()
  else .error "invalid id_token"

def OIDCClaims.verify (claims : OIDCClaims) (out : Outside) (info : ProviderInfo) : Except String Verified := do
  checkIssuer out info claims
  if claims.email = "" then .error "id_token contains no email"
  if claims.emailVerified = some false then .error "email not verified at identity provider"
  return {
    issuer := claims.issuer
    subject := claims.subject
    email := claims.email
    displayName := nonEmpty claims.name }

end OIDC

section GitHub

def primaryVerifiedEmail (emails : List GitHubEmail) : String :=
  let verified := emails.filter (·.verified)
  (((verified.find? (·.isPrimary)) <|> verified.find? (·.email ≠ "")).map (·.email)).getD ""

def GitHubUser.verify (user : GitHubUser) (emails : List GitHubEmail) : Except String Verified := do
  if user.id = 0 then .error "GitHub profile has no id"
  let email := primaryVerifiedEmail emails
  if email = "" then .error "GitHub account has no verified primary email"
  return {
    issuer := ProviderType.github.name
    subject := toString user.id
    email := email
    displayName := nonEmpty user.name <|> nonEmpty user.login }

end GitHub

section SAML

def emailAttributeNames : List String := [
  "email",
  "mail",
  "emailAddress",
  "User.email",
  "http://schemas.xmlsoap.org/ws/2005/05/identity/claims/emailaddress",
  "urn:oid:0.9.2342.19200300.100.1.3"]

def nameAttributeNames : List String := [
  "displayName",
  "name",
  "cn",
  "http://schemas.xmlsoap.org/ws/2005/05/identity/claims/name",
  "http://schemas.xmlsoap.org/ws/2005/05/identity/claims/displayname",
  "urn:oid:2.16.840.1.113730.3.1.241",
  "urn:oid:2.5.4.3"]

def Assertion.firstOf (a : Assertion) (names : List String) : String :=
  (names.findSome? fun n => (a.values.lookup n).bind nonEmpty).getD ""

def samlEmail (a : Assertion) : String :=
  if '@' ∈ a.nameID.toList then a.nameID else a.firstOf emailAttributeNames

-- The address is the only thing that is lowered.
def Assertion.verify [Casing] (a : Assertion) (config : SAMLConfig) : Except String Verified :=
  let email := samlEmail a
  if email = "" then .error "the SAML assertion carries no email address"
  else .ok {
    issuer := config.idpEntityID
    subject := if a.nameID = "" then email else a.nameID
    email := Strings.toLower email
    displayName := nonEmpty (a.firstOf nameAttributeNames) }

end SAML

-- A report reaches the flow of the provider, which answers to its own kind only.
def Report.verify [Casing] (r : Report) (out : Outside) (info : ProviderInfo) : Except String Verified :=
  match info.type, r with
  | .github, .github user emails => user.verify emails
  | .saml, .saml assertion => info.saml.elim (.error "identity provider misconfigured") assertion.verify
  | .google, .oidc claims => claims.verify out info
  | .microsoft, .oidc claims => claims.verify out info
  | .oidc, .oidc claims => claims.verify out info
  | _, _ => .error "404 page not found"

def verifyDev [Casing] (email : String) : Except String Verified :=
  let email := Strings.toLower (Strings.trimSpace email)
  if email = "" ∨ '@' ∉ email.toList then .error "invalid email"
  else .ok { issuer := "dev", subject := email, email := email }

inductive Outcome where
  | failed
  | disabled (userID : UUID)
  | signedIn (userID : UUID)
deriving DecidableEq

def Outcome.signedIn? : Outcome → Option UUID
  | signedIn id => some id
  | _ => none

def finish [Casing] (cfg : Config) (now : Int) (newID : UUID) (identityKey : String) (v : Verified) (a : Accounts) :
    Outcome × Accounts :=
  let role := if cfg.isAdminEmail v.email then .admin else .viewer
  match a.upsertUserByIdentity now newID identityKey v.subject v.email v.displayName role with
  | .error _ => (.failed, a)
  | .ok (u, a) => (if u.disabledAt.isSome then .disabled u.id else .signedIn u.id, a)

end Auth
