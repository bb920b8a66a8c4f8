import OtelFleet.Api.Pipelines

open Api (Response badRequest conflict notFound)
open Strings (trimSpace hasPrefix)
open Store (UUID)

-- The login providers: those of the environment, and those that admins keep in the database.
namespace Auth

inductive ProviderType where
  | google
  | microsoft
  | github
  | oidc
  | saml
deriving DecidableEq

def ProviderType.name : ProviderType → String
  | google => "google"
  | microsoft => "microsoft"
  | github => "github"
  | oidc => "oidc"
  | saml => "saml"

def ProviderType.ofName (name : String) : Option ProviderType :=
  [google, microsoft, github, oidc, saml].find? (·.name = name)

structure SAMLConfig where
  idpEntityID : String := ""
  idpSSOURL : String := ""
  idpCertificate : String := ""
deriving DecidableEq

structure AuthProvider where
  id : UUID
  type : ProviderType
  name : String
  displayName : String
  clientID : String := ""
  clientSecretEnc : List UInt8 := []
  issuer : Option String := none
  samlConfig : Option SAMLConfig := none
  enabled : Bool := true
deriving DecidableEq

structure OIDCProvider where
  name : String
  displayName : String
  issuer : String
  clientID : String
  clientSecret : String

structure ProviderInfo where
  type : ProviderType
  name : String
  displayName : String
  issuer : String
  clientID : String
  clientSecret : String := ""
  saml : Option SAMLConfig := none

structure Outside where
  encryptClientSecret : String → Except Response (List UInt8)
  decrypt : List UInt8 → Option String
  certificateError : String → Option String
  -- Whether the verifier takes the issuer of a token for the configured one.
  acceptsIssuer : String → String → Bool

section Resolve

def googleIssuer : String :=
  "https://accounts.google.com"

def microsoftIssuer : String :=
  "https://login.microsoftonline.com/common/v2.0"

def effectiveIssuer (type : ProviderType) (issuer : String) : String :=
  match type with
  | .google => googleIssuer
  | .microsoft => microsoftIssuer
  | .github => ""
  | _ => issuer

def ProviderInfo.identityKey (p : ProviderInfo) : String :=
  match p.type with
  | .oidc => "oidc:" ++ p.name
  | .saml => "saml:" ++ p.name
  | type => type.name

def AuthProvider.info (out : Outside) (p : AuthProvider) : Option ProviderInfo :=
  let info : ProviderInfo :=
    { type := p.type
      name := p.name
      displayName := p.displayName
      issuer := effectiveIssuer p.type (p.issuer.getD "")
      clientID := p.clientID }
  if p.type = .saml then p.samlConfig.map fun c => { info with saml := some c }
  else (out.decrypt p.clientSecretEnc).map fun secret => { info with clientSecret := secret }

def OIDCProvider.info (e : OIDCProvider) : ProviderInfo where
  type := .oidc
  name := e.name
  displayName := e.displayName
  issuer := e.issuer
  clientID := e.clientID
  clientSecret := e.clientSecret

-- The provider behind a name. One of the database hides one of the environment, also while it is disabled.
def resolve (out : Outside) (env : List OIDCProvider) (providers : List AuthProvider) (name : String) :
    Option ProviderInfo :=
  match providers.find? (·.name = name) with
  | some p => if p.enabled then p.info out else none
  | none => (env.find? (·.name = name)).map (·.info)

end Resolve

section Table

structure AuthProviderUpdate where
  displayName : Option String := none
  clientID : Option String := none
  clientSecretEnc : Option (List UInt8) := none
  issuer : Option String := none
  samlConfig : Option SAMLConfig := none
  enabled : Option Bool := none

inductive ProviderError where
  | notFound
  | nameExists

variable (providers : List AuthProvider)

def createAuthProvider (p : AuthProvider) : Except ProviderError (List AuthProvider) :=
  if ∃ q ∈ providers, q.name = p.name then .error .nameExists else .ok (providers ++ [p])

def AuthProvider.update (p : AuthProvider) (upd : AuthProviderUpdate) : AuthProvider :=
  { p with
    displayName := upd.displayName.getD p.displayName
    clientID := upd.clientID.getD p.clientID
    clientSecretEnc := upd.clientSecretEnc.getD p.clientSecretEnc
    issuer := upd.issuer <|> p.issuer
    samlConfig := upd.samlConfig <|> p.samlConfig
    enabled := upd.enabled.getD p.enabled }

def updateAuthProvider (id : UUID) (upd : AuthProviderUpdate) : Except ProviderError (List AuthProvider) :=
  if providers.all (·.id ≠ id) then .error .notFound
  else .ok (providers.map fun p => if p.id = id then p.update upd else p)

def deleteAuthProvider (id : UUID) : Except ProviderError (List AuthProvider) :=
  if providers.all (·.id ≠ id) then .error .notFound else .ok (providers.filter (·.id ≠ id))

end Table

section Settings

structure CreateBody where
  type : String
  name : String
  displayName : String
  enabled : Option Bool := none
  clientID : Option String := none
  clientSecret : Option String := none
  issuer : Option String := none
  idpEntityID : Option String := none
  idpSSOURL : Option String := none
  idpCertificate : Option String := none

structure UpdateBody where
  displayName : Option String := none
  enabled : Option Bool := none
  clientID : Option String := none
  clientSecret : Option String := none
  issuer : Option String := none
  idpEntityID : Option String := none
  idpSSOURL : Option String := none
  idpCertificate : Option String := none

variable (out : Outside)

def isNameChar (c : Char) : Bool :=
  c.isLower || c.isDigit

-- ^[a-z0-9][a-z0-9-]{1,30}$
def matchesProviderName (name : String) : Bool :=
  match name.toList with
  | [] => false
  | c :: cs => isNameChar c && 1 ≤ cs.length && cs.length ≤ 30 && cs.all fun c => isNameChar c || c = '-'

def checkDisplayName (name : String) : Except Response String :=
  let displayName := trimSpace name
  if displayName = "" ∨ displayName.utf8ByteSize > 100 then
    .error (badRequest "displayName must be 1-100 characters")
  else .ok displayName

def validateSAMLConfig (c : SAMLConfig) : Option String :=
  if trimSpace c.idpEntityID = "" then some "idpEntityId is required"
  else if !hasPrefix c.idpSSOURL "https://" then some "idpSsoUrl must be an https:// URL"
  else (out.certificateError c.idpCertificate).map ("idpCertificate: " ++ ·)

def buildSAMLConfig (entityID ssoURL cert : Option String) : Except Response SAMLConfig :=
  let c : SAMLConfig :=
    { idpEntityID := (entityID.map trimSpace).getD ""
      idpSSOURL := (ssoURL.map trimSpace).getD ""
      idpCertificate := (cert.map trimSpace).getD "" }
  (validateSAMLConfig out c).elim (.ok c) fun message => .error (badRequest ("type saml: " ++ message))

def trimIssuer (issuer : String) : String :=
  if issuer.toList.getLast? = some '/' then .ofList issuer.toList.dropLast else issuer

def CreateBody.row (body : CreateBody) (newID : UUID) : Except Response AuthProvider := do
  let type ← (ProviderType.ofName body.type).elim
    (.error (badRequest ("unknown provider type \"" ++ body.type ++ "\""))) .ok
  if !matchesProviderName body.name then .error (badRequest "name must match ^[a-z0-9][a-z0-9-]\x7b1,30\x7d$")
  let displayName ← checkDisplayName body.displayName
  let row : AuthProvider :=
    { id := newID, type := type, name := body.name, displayName := displayName, enabled := body.enabled.getD true }
  if type = .saml then
    let c ← buildSAMLConfig out body.idpEntityID body.idpSSOURL body.idpCertificate
    return { row with samlConfig := some c }
  let clientID := body.clientID.getD ""
  let clientSecret := body.clientSecret.getD ""
  if clientID = "" ∨ clientSecret = "" then .error (badRequest "clientId and clientSecret are required")
  let issuer := body.issuer.getD ""
  if type = .oidc ∧ !hasPrefix issuer "https://" then
    .error (badRequest "type oidc requires an https:// issuer")
  let enc ← out.encryptClientSecret clientSecret
  return { row with
    clientID := clientID
    clientSecretEnc := enc
    issuer := if type = .oidc then some (trimIssuer issuer) else none }

def createAuthProviderConfig (newID : UUID) (body : CreateBody) (providers : List AuthProvider) :
    Except Response (List AuthProvider) := do
  let row ← body.row out newID
  match createAuthProvider providers row with
  | .error _ => .error (conflict "a provider with this name already exists")
  | .ok providers => .ok providers

def UpdateBody.saml (body : UpdateBody) (id : UUID) (providers : List AuthProvider) :
    Except Response (Option SAMLConfig) :=
  if body.idpEntityID = none ∧ body.idpSSOURL = none ∧ body.idpCertificate = none then .ok none
  else
    match providers.find? (·.id = id) with
    | none => .error (notFound "provider not found")
    | some p =>
      let c := p.samlConfig.getD {}
      (buildSAMLConfig out (body.idpEntityID <|> some c.idpEntityID) (body.idpSSOURL <|> some c.idpSSOURL)
        (body.idpCertificate <|> some c.idpCertificate)).map some

def UpdateBody.update (body : UpdateBody) (id : UUID) (providers : List AuthProvider) :
    Except Response AuthProviderUpdate := do
  let displayName ←
    match body.displayName with
    | none => .ok none
    | some name => (checkDisplayName name).map some
  if body.clientID = some "" then .error (badRequest "clientId must not be empty")
  if body.issuer.any fun issuer => !hasPrefix issuer "https://" then
    .error (badRequest "issuer must be an https:// URL")
  if body.clientSecret = some "" then
    .error (badRequest "clientSecret must not be empty (omit it to keep the stored one)")
  let enc ←
    match body.clientSecret with
    | none => .ok none
    | some secret => (out.encryptClientSecret secret).map some
  let saml ← body.saml out id providers
  return {
    displayName := displayName
    clientID := body.clientID
    clientSecretEnc := enc
    issuer := body.issuer.map trimIssuer
    samlConfig := saml
    enabled := body.enabled }

def updateAuthProviderConfig (id : UUID) (body : UpdateBody) (providers : List AuthProvider) :
    Except Response (List AuthProvider) := do
  let upd ← body.update out id providers
  match updateAuthProvider providers id upd with
  | .error _ => .error (notFound "provider not found")
  | .ok providers => .ok providers

def deleteAuthProviderConfig (id : UUID) (providers : List AuthProvider) : Except Response (List AuthProvider) :=
  match deleteAuthProvider providers id with
  | .error _ => .error (notFound "provider not found")
  | .ok providers => .ok providers

end Settings

end Auth
