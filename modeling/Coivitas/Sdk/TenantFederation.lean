import Coivitas.Foundation.Program
import Coivitas.Sdk.UserClaims

/-! # Tenant federation

The model of `packages/sdk/src/sso/tenant-federation.ts` and of the callbacks of `sdk-api.ts`. The
ports may answer or throw anything at every call. The events of a run are what the ports verified
and which row the identity provider was looked up to; the audit trail goes to the port that writes
it. The clock only dates that trail, and is left out with the fields it fills.
-/

namespace Coivitas.Sdk.Sso

open Foundation

/-! ## Errors -/

inductive FederationErrorCode where
  | tenantScopeMissing
  | tenantScopeInvalidType
  | tenantNotFound
  | crossTenantAssertion
  | identityRebindRejected
  | roleInvalid
  | idpNotRegistered
  | jitProvisioningFailed
  deriving DecidableEq, Repr

namespace FederationErrorCode

def text : FederationErrorCode → String
  | tenantScopeMissing => "FED_TENANT_SCOPE_MISSING"
  | tenantScopeInvalidType => "FED_TENANT_SCOPE_INVALID_TYPE"
  | tenantNotFound => "FED_TENANT_NOT_FOUND"
  | crossTenantAssertion => "FED_CROSS_TENANT_ASSERTION"
  | identityRebindRejected => "FED_IDENTITY_REBIND_REJECTED"
  | roleInvalid => "FED_ROLE_INVALID"
  | idpNotRegistered => "FED_IDP_NOT_REGISTERED"
  | jitProvisioningFailed => "FED_JIT_PROVISIONING_FAILED"

/-- `FEDERATION_SANITIZED_MESSAGES` -/
def sanitizedMessage : FederationErrorCode → String
  | tenantScopeMissing => "Federation rejected: tenant scope claim is missing from the assertion."
  | tenantScopeInvalidType =>
      "Federation rejected: tenant scope claim has an invalid type (must be string)."
  | tenantNotFound => "Federation rejected: the specified tenant was not found."
  | crossTenantAssertion =>
      "Federation rejected: cross-tenant assertion detected. IDP is not authorized for this tenant."
  | identityRebindRejected =>
      "Federation rejected: identity rebind detected. Tenant mismatch for existing user."
  | roleInvalid => "Federation rejected: role claim has an invalid value."
  | idpNotRegistered => "Federation rejected: the IDP is not registered in federation mapping."
  | jitProvisioningFailed => "Federation failed: JIT user provisioning encountered an error."

def httpStatus : FederationErrorCode → Nat
  | tenantScopeMissing | tenantScopeInvalidType | tenantNotFound | idpNotRegistered => 401
  | crossTenantAssertion | identityRebindRejected => 403
  | roleInvalid => 422
  | jitProvisioningFailed => 500

end FederationErrorCode

inductive SSOClientErrorCode where
  | samlCallbackFailed
  | oidcCallbackFailed
  | federationFailed
  deriving DecidableEq, Repr

/-- What is thrown: by the federation, by a parser, by the client, or by a port. A value out of a
port has a code when it is an error of the database. -/
inductive SsoError where
  | federation (message : String) (code : FederationErrorCode)
  | claims (error : ClaimsError)
  | client (message : String) (code : SSOClientErrorCode)
  | thrown (code : Option String) (message : String)
  deriving DecidableEq, Repr

namespace SsoError

/-- `err.message`, or the text of what is no error. -/
def message : SsoError → String
  | federation message _ => message
  | claims (.saml message _) => message
  | claims (.oidc message) => message
  | client message _ => message
  | thrown _ message => message

/-- `String(err)`; the text of a port's error comes with its name. -/
def text : SsoError → String
  | federation message _ => "FederationError: " ++ message
  | claims (.saml message _) => "SamlAuthError: " ++ message
  | claims (.oidc message) => "OidcAuthError: " ++ message
  | client message _ => "SSOClientError: " ++ message
  | thrown _ message => message

end SsoError

/-! ## Data -/

inductive Role where
  | admin
  | operator
  | viewer
  deriving DecidableEq, Repr

def Role.ofText (text : String) : Option Role :=
  if text = "admin" then some .admin
  else if text = "operator" then some .operator
  else if text = "viewer" then some .viewer
  else none

def Role.text : Role → String
  | .admin => "admin"
  | .operator => "operator"
  | .viewer => "viewer"

inductive IdpType where
  | saml
  | oidc
  deriving DecidableEq, Repr

structure Tenant where
  id : String
  deriving DecidableEq, Repr

structure IdpMapping where
  idpIdentifier : String
  idpType : IdpType
  allowedTenantIds : List String
  deriving DecidableEq, Repr

structure User where
  id : String
  tenantId : String
  role : Role
  externalSubject : String
  idpIdentifier : String
  deriving DecidableEq, Repr

structure NewUser where
  tenantId : String
  role : Role
  externalSubject : String
  idpIdentifier : String
  deriving DecidableEq, Repr

inductive FederationEventType where
  | newUser
  | existingUser
  | roleUpdated
  deriving DecidableEq, Repr

structure FederationAuditEvent where
  eventType : FederationEventType
  userId : String
  tenantId : String
  idpIdentifier : String
  externalSubject : String
  isNewUser : Bool
  roleUpdated : Bool
  details : Option (List (String × String)) := none
  raceRecovered : Bool := false
  previousRole : Option Role := none
  newRole : Option Role := none
  deriving DecidableEq, Repr

structure FederationResolution where
  userId : String
  tenantId : String
  role : Role
  isNewUser : Bool
  deriving DecidableEq, Repr

/-- The verified claims, by the protocol they came by. -/
inductive FederationClaims where
  | saml (claims : SamlUserClaims)
  | oidc (claims : OidcUserClaims)
  deriving DecidableEq

structure FederationInput where
  claims : FederationClaims
  idpIdentifier : String
  deriving DecidableEq

namespace FederationClaims

def idpType : FederationClaims → IdpType
  | saml _ => .saml
  | oidc _ => .oidc

def attributes : FederationClaims → Attributes
  | saml claims => claims.attributes
  | oidc claims => claims.attributes

/-- The entity id or the issuer. -/
def issuer : FederationClaims → String
  | saml claims => claims.idpEntityId
  | oidc claims => claims.issuer

end FederationClaims

/-- What a run shows: the answers of the verifying ports, and the row that was found for the
identifier of an identity provider. -/
inductive SsoEvent where
  | samlVerified (profile : Members)
  | oidcVerified (claims : Members)
  | mappingFound (idpIdentifier : String) (mapping : IdpMapping)

abbrev SsoProgram (ω α : Type) : Type := Program ω SsoEvent SsoError α

structure FederationPort (ω : Type) where
  findTenantById : String → Reply ω SsoError (Option Tenant)
  findIdpMapping : String → Reply ω SsoError (Option IdpMapping)
  findUserByExternalSubject : String → String → Reply ω SsoError (Option User)
  createUser : NewUser → Reply ω SsoError User
  updateUserRole : String → Role → Reply ω SsoError Unit
  writeAuditEvent : FederationAuditEvent → Reply ω SsoError Unit

/-! ## The provider -/

section Provider

variable {ω : Type} (port : FederationPort ω)

def federationError {α : Type} (message : String) (code : FederationErrorCode) : SsoProgram ω α :=
  throw (.federation message code)

/-- `value.toLowerCase()`, on the letters a role is written in. -/
def parseRole (raw : Option String) : Except SsoError Role :=
  match raw.filter fun text => trim text ≠ "" with
  | none => .error (.federation "Role claim is missing or not a string." .roleInvalid)
  | some raw =>
      let trimmed := String.ofList ((trim raw).toList.map Char.toLower)
      match Role.ofText trimmed with
      | some role => .ok role
      | none => .error (.federation ("Invalid role claim: \"" ++ slice 64 trimmed ++
          "\". Must be admin, operator, or viewer.") .roleInvalid)

def Attributes.get? (attributes : Attributes) (name : String) : Option String :=
  OrderedMap.lookupList name attributes

/-- An attribute is a text, so no claim has a wrong type. -/
def extractTenantClaim (claims : FederationClaims) : Except SsoError String :=
  match claims.attributes.get? "tenant_id" with
  | none => .error (.federation ("Federation assertion missing required \"tenant_id\" claim. " ++
      "Authentication rejected (fail-closed).") .tenantScopeMissing)
  | some rawTenantId =>
      if trim rawTenantId = "" then
        .error (.federation ("Federation assertion \"tenant_id\" claim is an empty string. " ++
          "Authentication rejected (fail-closed).") .tenantScopeMissing)
      else .ok (trim rawTenantId)

def extractRoleClaim (claims : FederationClaims) : Except SsoError Role :=
  parseRole (claims.attributes.get? "role")

def extractExternalSubject : FederationClaims → String
  | .saml claims => claims.nameId
  | .oidc claims => claims.sub

def validateIdpTenantScope (idpMapping : IdpMapping) (assertedTenantId : String) :
    Except SsoError Unit := do
  require (idpMapping.allowedTenantIds ≠ [])
    (.federation ("IDP has no allowed tenant_ids configured. " ++
      "Cross-tenant assertion rejected (fail-closed).") .crossTenantAssertion)
  require (assertedTenantId ∈ idpMapping.allowedTenantIds)
    (.federation ("Cross-tenant assertion detected: IDP is not authorized for the asserted " ++
      "tenant_id. Authentication rejected (fail-closed).") .crossTenantAssertion)

/-- A failed write of the audit trail is not noticed. -/
def safeWriteAuditEvent (event : FederationAuditEvent) : SsoProgram ω Unit :=
  tryCatch (Program.ask (port.writeAuditEvent event)) fun _ => pure ()

/-- `if (user.role !== role) await port.updateUserRole(user.id, role)` -/
def updateRole (user : User) (role : Role) : SsoProgram ω Unit :=
  if user.role ≠ role then Program.ask (port.updateUserRole user.id role) else pure ()

/-- The user of a request that lost the race, and the role it had if that was another one. -/
def recoverUser (externalSubject idpIdentifier tenantId : String) (role : Role) :
    SsoProgram ω (User × Option Role) := do
  match ← Program.ask (port.findUserByExternalSubject externalSubject idpIdentifier) with
  | none =>
      federationError "JIT provisioning failed: UNIQUE VIOLATION but user not found on retry."
        .jitProvisioningFailed
  | some recoveredUser =>
      if recoveredUser.tenantId ≠ tenantId then
        federationError "Identity rebind rejected after race recovery." .identityRebindRejected
      else do
        updateRole port recoveredUser role
        return (recoveredUser, if recoveredUser.role ≠ role then some recoveredUser.role else none)

/-- The handler of a failed creation. -/
def recoverCreation (externalSubject idpIdentifier tenantId : String) (role : Role)
    (err : SsoError) : SsoProgram ω (User × Bool × Option Role) :=
  match err with
  | .thrown (some "23505") _ => do
      let (user, previousRole) ← recoverUser port externalSubject idpIdentifier tenantId role
      return (user, false, previousRole)
  | .federation message code => throw (.federation message code)
  | err => federationError ("JIT provisioning failed: " ++ err.message) .jitProvisioningFailed

def provisionUser (externalSubject idpIdentifier tenantId : String) (role : Role) :
    SsoProgram ω FederationResolution := do
  let (user, isNewUser, racePreviousRole) ← tryCatch
    (do
      let user ← Program.ask (port.createUser ⟨tenantId, role, externalSubject, idpIdentifier⟩)
      return (user, true, none))
    (recoverCreation port externalSubject idpIdentifier tenantId role)
  safeWriteAuditEvent port {
    eventType := if isNewUser then .newUser else .existingUser
    userId := user.id
    tenantId := tenantId
    idpIdentifier := idpIdentifier
    externalSubject := externalSubject
    isNewUser := isNewUser
    roleUpdated := racePreviousRole.isSome
    raceRecovered := !isNewUser
    previousRole := racePreviousRole
    newRole := racePreviousRole.map fun _ => role }
  return ⟨user.id, tenantId, role, isNewUser⟩

def updateUser (existingUser : User) (externalSubject idpIdentifier tenantId : String)
    (role : Role) : SsoProgram ω FederationResolution :=
  if existingUser.tenantId ≠ tenantId then do
    safeWriteAuditEvent port {
      eventType := .existingUser
      userId := existingUser.id
      tenantId := existingUser.tenantId
      idpIdentifier := idpIdentifier
      externalSubject := externalSubject
      isNewUser := false
      roleUpdated := false
      details := some [("reason", "IDENTITY_REBIND_REJECTED"), ("assertedTenantId", "[REDACTED]")] }
    federationError ("Identity rebind rejected: existing user tenant_id does not match asserted " ++
      "tenant_id. Authentication rejected (fail-closed).") .identityRebindRejected
  else do
    updateRole port existingUser role
    safeWriteAuditEvent port {
      eventType := if existingUser.role ≠ role then .roleUpdated else .existingUser
      userId := existingUser.id
      tenantId := tenantId
      idpIdentifier := idpIdentifier
      externalSubject := externalSubject
      isNewUser := false
      roleUpdated := existingUser.role ≠ role }
    return ⟨existingUser.id, tenantId, role, false⟩

def provisionOrUpdateUser (externalSubject idpIdentifier tenantId : String) (role : Role) :
    SsoProgram ω FederationResolution := do
  match ← Program.ask (port.findUserByExternalSubject externalSubject idpIdentifier) with
  | none => provisionUser port externalSubject idpIdentifier tenantId role
  | some existingUser =>
      updateUser port existingUser externalSubject idpIdentifier tenantId role

/-- `findIdpMapping`, and the row it found shown. -/
def findIdpMapping (idpIdentifier : String) : SsoProgram ω IdpMapping := do
  match ← Program.ask (port.findIdpMapping idpIdentifier) with
  | none =>
      federationError ("IDP \"" ++ slice 256 idpIdentifier ++
        "\" is not registered in federation_mapping. Authentication rejected (fail-closed).")
        .idpNotRegistered
  | some idpMapping => do
      Program.emit (.mappingFound idpIdentifier idpMapping)
      return idpMapping

def findTenantById (tenantId : String) : SsoProgram ω Tenant := do
  match ← Program.ask (port.findTenantById tenantId) with
  | none =>
      federationError
        "Tenant not found in tenants table. Authentication rejected (fail-closed)." .tenantNotFound
  | some tenant => pure tenant

def resolveTenant (input : FederationInput) : SsoProgram ω FederationResolution := do
  let assertedTenantId ← Program.ofExcept (extractTenantClaim input.claims)
  let idpMapping ← findIdpMapping port input.idpIdentifier
  Program.ofExcept (validateIdpTenantScope idpMapping assertedTenantId)
  let _ ← findTenantById port assertedTenantId
  let role ← Program.ofExcept (extractRoleClaim input.claims)
  provisionOrUpdateUser port (extractExternalSubject input.claims) input.idpIdentifier
    assertedTenantId role

end Provider

/-! ## The client -/

/-- The binding body, or the callback and what it is expected to carry, is opaque to the client:
the port gets it as it came. -/
structure SSOClient (ω ρ : Type) where
  samlPort : Option (ρ → Reply ω SsoError Members)
  oidcPort : Option (ρ → Reply ω SsoError Members)
  federationPort : FederationPort ω

structure ResolveAuthenticationRequest (ρ : Type) where
  protocol : IdpType
  callback : ρ
  idpIdentifier : String

structure ResolveAuthenticationResult where
  resolution : FederationResolution
  protocol : IdpType
  deriving DecidableEq, Repr

section Client

variable {ω ρ : Type} (client : SSOClient ω ρ) (req : ResolveAuthenticationRequest ρ)

/-- `try { .. } catch (err) { throw new SSOClientError(..) }` -/
def wrapping {α : Type} (prefixText : String) (code : SSOClientErrorCode) (body : SsoProgram ω α) :
    SsoProgram ω α :=
  tryCatch body fun err => throw (.client (prefixText ++ err.text) code)

/-- The first audience that is a text and not blank. -/
def firstAud : Option Json → Option String
  | some (.arr items) => items.findSome? fun item => nonBlank? (some item)
  | value => nonBlank? value

/-- The issuer and the audience are taken from the verified claims as they are. -/
def normalizeOidc (rawClaims : Members) : Except ClaimsError OidcUserClaims := do
  let issClaim ← nonBlank (field rawClaims "iss")
    (.oidc ("OIDC id_token missing \"iss\" claim (verified by OidcPort);" ++
      " cannot proceed with claims normalization."))
  match firstAud (field rawClaims "aud") with
  | some firstAud => parseOidcClaims rawClaims issClaim firstAud
  | none =>
      .error (.oidc ("OIDC id_token missing valid \"aud\" claim (verified by OidcPort);" ++
        " cannot proceed with claims normalization."))

def liftClaims {α : Type} (value : Except ClaimsError α) : SsoProgram ω α :=
  Program.ofExcept (value.mapError .claims)

def resolveFederation (protocol : IdpType) (input : FederationInput) :
    SsoProgram ω ResolveAuthenticationResult := do
  let resolution ← wrapping "SSOClient: federation resolveTenant failed: " .federationFailed
    (resolveTenant client.federationPort input)
  return ⟨resolution, protocol⟩

def resolveSaml : SsoProgram ω ResolveAuthenticationResult := do
  match client.samlPort with
  | none =>
      throw (.client ("SSOClient: samlPort is not configured; cannot resolveAuthentication with " ++
        "protocol=saml") .samlCallbackFailed)
  | some verifyResponse => do
      let rawProfile ← wrapping "SSOClient: SAML verifyResponse failed: " .samlCallbackFailed
        (Program.ask (verifyResponse req.callback))
      Program.emit (.samlVerified rawProfile)
      let claims ← wrapping "SSOClient: parseSamlClaims failed: " .samlCallbackFailed
        (liftClaims (parseSamlClaims rawProfile req.idpIdentifier))
      resolveFederation client .saml ⟨.saml claims, req.idpIdentifier⟩

def resolveOidc : SsoProgram ω ResolveAuthenticationResult := do
  match client.oidcPort with
  | none =>
      throw (.client ("SSOClient: oidcPort is not configured; cannot resolveAuthentication with " ++
        "protocol=oidc") .oidcCallbackFailed)
  | some verifyCallback => do
      let rawClaims ← wrapping "SSOClient: OIDC verifyCallback failed: " .oidcCallbackFailed
        (Program.ask (verifyCallback req.callback))
      Program.emit (.oidcVerified rawClaims)
      let claims ← wrapping "SSOClient: parseOidcClaims failed: " .oidcCallbackFailed
        (liftClaims (normalizeOidc rawClaims))
      resolveFederation client .oidc ⟨.oidc claims, req.idpIdentifier⟩

def resolveAuthentication : SsoProgram ω ResolveAuthenticationResult :=
  match req.protocol with
  | .saml => resolveSaml client req
  | .oidc => resolveOidc client req

end Client

/-! ## The handler -/

/-- An answer: its status, and the resolution or the error and its message. -/
inductive FederationResponse where
  | resolved (resolution : FederationResolution)
  | refused (status : Nat) (error message : String)
  deriving DecidableEq, Repr

def handleFederationError : SsoError → FederationResponse
  | .federation _ code => .refused code.httpStatus code.text code.sanitizedMessage
  | _ => .refused 500 "FED_INTERNAL_ERROR" "Federation encountered an internal error."

section Handler

variable {ω : Type} (port : FederationPort ω)

def requestInvalid (message : String) : FederationResponse :=
  .refused 400 "FED_REQUEST_INVALID" message

def IdpType.ofText (text : String) : Option IdpType :=
  if text = "saml" then some .saml else if text = "oidc" then some .oidc else none

def required {α : Type} (value : Option α) (message : String) : Except String α :=
  match value with
  | some a => .ok a
  | none => .error message

/-- The protocol and the identifier of the request, and its claims, not yet read. -/
def checkBody (body : Option Json) : Except String (IdpType × String × Json) := do
  let members ← required (body.bind membersOf)
    "Request body is required and must be a JSON object."
  let type ← required ((text? (field members "type")).bind IdpType.ofText)
    "Request body.type must be \"saml\" or \"oidc\"."
  let idpIdentifier ← required (nonBlank? (field members "idpIdentifier"))
    "Request body.idpIdentifier must be a non-empty string."
  let claims ← required ((field members "claims").filter fun claims => (membersOf claims).isSome)
    "Request body.claims is required."
  return (type, trim idpIdentifier, claims)

def parseUserClaims (type : IdpType) (claims : Json) : Except ClaimsError FederationClaims :=
  match type with
  | .saml => (parseSamlUserClaims claims).map .saml
  | .oidc => (parseOidcUserClaims claims).map .oidc

def federationResolveHandler (body : Option Json) : SsoProgram ω FederationResponse :=
  match checkBody body with
  | .error message => pure (requestInvalid message)
  | .ok (type, idpIdentifier, claims) =>
      tryCatch
        (do
          let claims ← liftClaims (parseUserClaims type claims)
          let resolution ← resolveTenant port ⟨claims, idpIdentifier⟩
          return .resolved resolution)
        fun err => pure (handleFederationError err)

end Handler

end Coivitas.Sdk.Sso
