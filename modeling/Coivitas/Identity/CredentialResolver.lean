import Coivitas.Crypto.Encoding
import Coivitas.Foundation.CalendarText
import Coivitas.Foundation.Json
import Coivitas.Foundation.Outcome
import Coivitas.Identity.FederatedResolver

/-! # Resolved credentials

The model of `packages/identity/src/credentials/credential-resolver` with the proof
primitives of `packages/crypto/src/credential-resolver`. A proof is signed over a token
and a list of disclosed claims; the verifier reads these, the link of the credential and
its claims apart from each other.
-/

namespace Coivitas.Identity.Credentials

open Foundation Crypto Policy Federation

/-! ## Data -/

inductive CrErrorCode where
  | federationLinkInvalid
  | oidcClaimInvalid
  | samlClaimInvalid
  | fkViolation
  | portContractViolation
  | brandTypeMismatch
  | providerUnavailable
  | credentialRevoked
  | popBindingInvalid
  | versionUnsupported
  | integrityProofInvalid
  | freshnessInvalid
  | federationLinkDepthExceeded
  deriving DecidableEq, Repr

/-- A thrown `CrError` with its detail, or the `RangeError` of `toISOString`. -/
inductive CrFault where
  | cr (code : CrErrorCode) (detail : List (String × Json))
  | rangeError
  deriving DecidableEq

inductive FederationSource where
  | oidc
  | saml
  | did
  deriving DecidableEq, Repr

def FederationSource.text : FederationSource → String
  | .oidc => "oidc"
  | .saml => "saml"
  | .did => "did"

/-- Dates are their times. -/
structure NormalizedOidcClaims where
  issuer : String
  subject : String
  audience : List String
  expiresAt : Option Int
  issuedAt : Int
  nonce : Option String
  email : Option String
  emailVerified : Option Bool
  preferredUsername : Option String
  displayName : Option String
  deriving DecidableEq, Repr

structure NormalizedSamlClaims where
  issuer : String
  subject : String
  subjectFormat : String
  audience : List String
  notBefore : Option Int
  notOnOrAfter : Option Int
  sessionIndex : Option String
  attributes : List (String × List String)
  deriving DecidableEq, Repr

inductive NormalizedClaims where
  | oidc (claims : NormalizedOidcClaims)
  | saml (claims : NormalizedSamlClaims)
  deriving DecidableEq, Repr

namespace NormalizedClaims

def source : NormalizedClaims → FederationSource
  | .oidc _ => .oidc
  | .saml _ => .saml

def issuer : NormalizedClaims → String
  | .oidc claims => claims.issuer
  | .saml claims => claims.issuer

def subject : NormalizedClaims → String
  | .oidc claims => claims.subject
  | .saml claims => claims.subject

end NormalizedClaims

structure FederationIdentityLink where
  id : String
  tenantId : String
  source : FederationSource
  issuer : String
  federatedSubject : String
  userId : String
  signature : String
  createdAt : String
  lastVerifiedAt : Option String
  revoked : Bool
  expectedAudience : Option String
  deriving DecidableEq, Repr

/-- What the resolver signs. -/
structure SignedPayload where
  token : String
  disclosedClaims : List String
  challenge : String
  audience : String
  notAfter : String
  cspVersion : String
  deriving DecidableEq, Repr

structure ResolvedCredentialIntegrityProof where
  token : String
  disclosedClaims : List String
  challenge : String
  audience : String
  notAfter : String
  cspVersion : String
  proofSignature : String
  resolverDid : String
  deriving DecidableEq, Repr

structure ResolvedCredential where
  crVersion : String
  link : FederationIdentityLink
  source : FederationSource
  normalizedClaims : NormalizedClaims
  notRevoked : Bool
  integrityProof : ResolvedCredentialIntegrityProof
  resolvedAt : String
  deriving DecidableEq, Repr

structure CredentialResolutionRequest where
  source : FederationSource
  tenantId : String
  challenge : String
  verifierDid : String
  claims : NormalizedClaims
  maxLinkDepth : Option JsNumber

def crVersion100 : String := "1.0.0"

def crCspVersion100 : String := "1.0.0"

def integrityProofDefaultNotAfterMs : Int := 3600000

def maxFederationLinkDepth : JsNumber := .finite 3

def depthJson : JsNumber → Json
  | .finite value => .num value
  | _ => .null

structure ResolverKeyMaterial where
  resolverDid : String
  resolverPrivateKey : List UInt8

/-! ## Ports -/

/-- The number printer of the canonical form, Ed25519, which may throw a message, and
`new Date(text).getTime()`; a text that is no date has no time. -/
structure CrPorts where
  numberFormat : NumberFormat
  ed25519Sign : List UInt8 → List UInt8 → Except String (List UInt8)
  ed25519Verify : List UInt8 → List UInt8 → List UInt8 → Except String Bool
  getTime : String → Option Int

structure ResolveCredentialDeps where
  lookupLink : String → String → String → Except String (Option FederationIdentityLink)
  isCredentialRevoked : String → Except String Bool
  resolverKeyMaterial : ResolverKeyMaterial

variable (P : CrPorts)

/-! ## The signed payload -/

def extractIntegrityProofSignedPayload (proof : ResolvedCredentialIntegrityProof) :
    SignedPayload where
  token := proof.token
  disclosedClaims := proof.disclosedClaims
  challenge := proof.challenge
  audience := proof.audience
  notAfter := proof.notAfter
  cspVersion := proof.cspVersion

def SignedPayload.members (payload : SignedPayload) : List (String × Json) :=
  [("token", .str payload.token),
    ("disclosedClaims", .arr (payload.disclosedClaims.map Json.str)),
    ("challenge", .str payload.challenge), ("audience", .str payload.audience),
    ("notAfter", .str payload.notAfter), ("cspVersion", .str payload.cspVersion)]

/-- A payload of texts passes the guard before the printer. -/
def canonicalizeResolvedCredentialIntegrityProof (payload : SignedPayload) : List UInt8 :=
  utf8 (Json.canonicalize P.numberFormat (.obj payload.members))

/-- `/^[0-9a-f]{128}$/`. -/
def isProofSignatureHex (s : String) : Bool := s.toList.length == 128 && s.toList.all isLowerHex

def signResolvedCredentialIntegrityProof (payload : SignedPayload) (privateKey : List UInt8) :
    Except CrFault String := do
  require (privateKey.length = 32) (.cr .portContractViolation
    [("reason", .str "private_key_invalid_length"), ("expected", .num 32),
      ("received", .num privateKey.length)])
  match P.ed25519Sign (canonicalizeResolvedCredentialIntegrityProof P payload) privateKey with
  | .error message => throw (.cr .integrityProofInvalid
      [("reason", .str "ed25519_sign_threw"), ("detail", .str message)])
  | .ok signatureBytes =>
      require (signatureBytes.length = 64) (.cr .integrityProofInvalid
        [("reason", .str "signature_unexpected_length"), ("expected", .num 64),
          ("received", .num signatureBytes.length)])
      return toHex signatureBytes

def verifyResolvedCredentialIntegrityProofSignature (proof : ResolvedCredentialIntegrityProof)
    (publicKey : List UInt8) : Except CrFault Unit := do
  require (publicKey.length = 32) (.cr .portContractViolation
    [("reason", .str "public_key_invalid_length"), ("expected", .num 32),
      ("received", .num publicKey.length)])
  require (isProofSignatureHex proof.proofSignature = true) (.cr .integrityProofInvalid
    [("reason", .str "proof_signature_invalid_hex_format"),
      ("expectedPattern", .str "^[0-9a-f]\x7b128\x7d$")])
  let signatureBytes := hexPairs proof.proofSignature.toList
  require (signatureBytes.length = 64) (.cr .integrityProofInvalid
    [("reason", .str "signature_bytes_invalid_length"), ("expected", .num 64),
      ("received", .num signatureBytes.length)])
  let signedPayload := extractIntegrityProofSignedPayload proof
  let recomputedBytes := canonicalizeResolvedCredentialIntegrityProof P signedPayload
  match P.ed25519Verify signatureBytes recomputedBytes publicKey with
  | .error message => throw (.cr .integrityProofInvalid
      [("reason", .str "ed25519_verify_threw"), ("detail", .str message)])
  | .ok isValid =>
      require (isValid = true) (.cr .integrityProofInvalid
        [("reason", .str "signature_verify_failed"),
          ("detail", .str ("Ed25519 signature does not match canonical bytes " ++
            "(potentially tampered payload OR wrong publicKey)"))])

/-! ## Building a proof -/

/-- `new Date(ms).toISOString()`. -/
def isoDate (ms : Int) : Except CrFault String :=
  match Calendar.toISOString ms with
  | some text => .ok text
  | none => .error .rangeError

def disclosedClaimsOf (link : FederationIdentityLink) : List String :=
  ["issuer:" ++ link.issuer, "subject:" ++ link.federatedSubject, "userId:" ++ link.userId]

def tokenOf (link : FederationIdentityLink) : String :=
  "cr:" ++ link.id ++ ":user=" ++ link.userId

/-- The audience of the link goes before that of the request. -/
def boundAudience (link : FederationIdentityLink) (request : CredentialResolutionRequest) :
    String := link.expectedAudience.getD request.verifierDid

def buildIntegrityProof (link : FederationIdentityLink) (request : CredentialResolutionRequest)
    (keyMaterial : ResolverKeyMaterial) (nowMs : Int) :
    Except CrFault ResolvedCredentialIntegrityProof := do
  let notAfter ← isoDate (nowMs + integrityProofDefaultNotAfterMs)
  let signedPayload : SignedPayload :=
    { token := tokenOf link, disclosedClaims := disclosedClaimsOf link,
      challenge := request.challenge, audience := boundAudience link request, notAfter,
      cspVersion := crCspVersion100 }
  let proofSignature ←
    signResolvedCredentialIntegrityProof P signedPayload keyMaterial.resolverPrivateKey
  return {
    token := tokenOf link
    disclosedClaims := disclosedClaimsOf link
    challenge := request.challenge
    audience := boundAudience link request
    notAfter, cspVersion := crCspVersion100, proofSignature
    resolverDid := keyMaterial.resolverDid }

/-! ## Verifying a credential -/

/-- Step 3. -/
def checkNotAfter (notAfter : String) (nowMs : Int) : Except CrFault Unit :=
  match P.getTime notAfter with
  | none => throw (.cr .freshnessInvalid
      [("reason", .str "notAfter_not_parseable"), ("notAfter", .str notAfter)])
  | some notAfterMs =>
      require (nowMs ≤ notAfterMs) (.cr .freshnessInvalid
        [("reason", .str "integrity_proof_expired"), ("notAfter", .str notAfter),
          ("nowMs", .num nowMs)])

def verifyResolvedCredential (resolved : ResolvedCredential) (resolverPublicKey : List UInt8)
    (expectedChallenge verifierDid : String) (nowMs : Int) : Except CrFault Unit := do
  let proof := resolved.integrityProof
  require (proof.cspVersion = crCspVersion100) (.cr .versionUnsupported
    [("received", .str proof.cspVersion), ("expected", .str crCspVersion100),
      ("field", .str "cspVersion")])
  require (resolved.crVersion = crVersion100) (.cr .versionUnsupported
    [("received", .str resolved.crVersion), ("expected", .str crVersion100),
      ("field", .str "crVersion")])
  checkNotAfter P proof.notAfter nowMs
  require (proof.challenge = expectedChallenge) (.cr .integrityProofInvalid
    [("reason", .str "challenge_mismatch"), ("expected", .str expectedChallenge),
      ("received", .str proof.challenge)])
  require (proof.audience = verifierDid) (.cr .integrityProofInvalid
    [("reason", .str "audience_mismatch"), ("expected", .str verifierDid),
      ("received", .str proof.audience)])
  require (resolved.link.userId ≠ "") (.cr .portContractViolation
    [("reason", .str "link_userId_invalid"), ("linkId", .str resolved.link.id)])
  verifyResolvedCredentialIntegrityProofSignature P proof resolverPublicKey

/-! ## Resolving a credential -/

/-- The code for a claim that its own provider should have refused. -/
def claimInvalid : FederationSource → CrErrorCode
  | .oidc => .oidcClaimInvalid
  | _ => .samlClaimInvalid

def isClaimExpired (claims : NormalizedClaims) (nowMs : Int) : Except CrFault Bool :=
  match claims with
  | .oidc claims =>
      match claims.expiresAt with
      | none => throw (.cr .oidcClaimInvalid [("reason", .str "oidc_exp_missing_fail_closed")])
      | some expiresAt => pure (expiresAt < nowMs)
  | .saml claims =>
      match claims.notOnOrAfter with
      | none =>
          throw (.cr .samlClaimInvalid [("reason", .str "saml_notOnOrAfter_missing_fail_closed")])
      | some notOnOrAfter => do
          require (∀ notBefore ∈ claims.notBefore, notBefore ≤ nowMs)
            (.cr .samlClaimInvalid [("reason", .str "saml_not_yet_valid")])
          return notOnOrAfter ≤ nowMs

/-- Deferred: it always throws. -/
def verifyPopBinding (_link : FederationIdentityLink) (_challenge : String) :
    Except CrFault Bool :=
  throw (.cr .versionUnsupported
    [("reason", .str "pop_binding_verify_not_implemented_in_v0.1"),
      ("finding", .str "PoP credential verification is not implemented in v0.1")])

/-- Step 5, with the fault of the deferred check turned into the one of the step. -/
def checkPopBinding (link : FederationIdentityLink) (challenge : String) :
    Except CrFault Unit :=
  match verifyPopBinding link challenge with
  | .ok _ => pure ()
  | .error (.cr .versionUnsupported _) => throw (.cr .popBindingInvalid
      [("linkId", .str link.id), ("challenge", .str challenge),
        ("reason", .str "pop_binding_verify_not_implemented_in_v0.1"),
        ("deferredTo", .str "v0.2+")])
  | .error fault => throw fault

/-- Step 1: the claims are those of the source. -/
def narrowClaims (request : CredentialResolutionRequest) : Except CrFault NormalizedClaims :=
  match request.source with
  | .oidc => do
      require (request.claims.source = .oidc) (.cr .brandTypeMismatch
        [("expected", .str "NormalizedOidcClaims"), ("received", .str "unknown"),
          ("source", .str "oidc")])
      return request.claims
  | .saml => do
      require (request.claims.source = .saml) (.cr .brandTypeMismatch
        [("expected", .str "NormalizedSamlClaims"), ("received", .str "unknown"),
          ("source", .str "saml")])
      return request.claims
  | .did => throw (.cr .versionUnsupported
      [("source", .str "did"), ("reason", .str "did_federation_phase7_plus_only")])

/-- Step 3. -/
def lookupLink (deps : ResolveCredentialDeps) (tenantId issuer federatedSubject : String) :
    Except CrFault FederationIdentityLink := do
  let subject := [("tenantId", Json.str tenantId), ("issuer", .str issuer),
    ("federatedSubject", .str federatedSubject)]
  let link ← match deps.lookupLink tenantId issuer federatedSubject with
    | .ok (some link) => pure link
    | .ok none => throw (.cr .federationLinkInvalid
        (subject ++ [("reason", Json.str "no_link_found")]))
    | .error message => throw (.cr .fkViolation
        (subject ++ [("reason", Json.str "link_resolver_lookup_threw"),
          ("detail", .str message)]))
  require (link.userId ≠ "") (.cr .fkViolation
    [("linkId", .str link.id), ("reason", .str "user_id_null_or_orphan")])
  return link

/-- Step 6. -/
def checkRevocation (deps : ResolveCredentialDeps) (link : FederationIdentityLink) :
    Except CrFault Unit := do
  match deps.isCredentialRevoked link.id with
  | .ok revoked => require (revoked = false) (.cr .credentialRevoked
      [("linkId", .str link.id), ("issuer", .str link.issuer),
        ("federatedSubject", .str link.federatedSubject),
        ("reason", .str "realtime_revocation_check_true")])
  | .error message => throw (.cr .credentialRevoked
      [("linkId", .str link.id), ("reason", .str "revocation_check_threw_fail_closed"),
        ("detail", .str message)])
  require (link.revoked = false) (.cr .credentialRevoked
    [("linkId", .str link.id), ("reason", .str "link_revoked_flag")])

/-- The readings of the clock at steps 4 and 7. -/
structure ResolutionTimes where
  checkedMs : Int
  builtMs : Int
  resolvedMs : Int

def resolveCredential (request : CredentialResolutionRequest) (deps : ResolveCredentialDeps)
    (times : ResolutionTimes) : Except CrFault ResolvedCredential := do
  let maxDepth := request.maxLinkDepth.getD maxFederationLinkDepth
  let claims ← narrowClaims request
  require (¬ numberLt maxDepth (.finite 1)) (.cr .federationLinkDepthExceeded
    [("linkDepth", .num 1), ("max", depthJson maxDepth)])
  let link ← lookupLink deps request.tenantId claims.issuer claims.subject
  require (claims.issuer ≠ "") (.cr .providerUnavailable
    [("reason", .str "port_returned_invalid_normalized_claims"),
      ("detail", .str ("OidcPort/SamlPort.verifyCallback() must return non-empty issuer field " ++
        "(caller should wrap upstream IdP errors)"))])
  require (claims.issuer = link.issuer) (.cr (claimInvalid request.source)
    [("expectedIssuer", .str link.issuer), ("receivedIssuer", .str claims.issuer),
      ("linkId", .str link.id), ("reason", .str "issuer_mismatch_link_vs_claim")])
  let expired ← isClaimExpired claims times.checkedMs
  require (expired = false) (.cr (claimInvalid request.source)
    [("reason", .str "claim_expired"), ("linkId", .str link.id)])
  checkPopBinding link request.challenge
  checkRevocation deps link
  let integrityProof ← buildIntegrityProof P link request deps.resolverKeyMaterial times.builtMs
  let resolvedAt ← isoDate times.resolvedMs
  return {
    crVersion := crVersion100, link, source := request.source, normalizedClaims := claims
    notRevoked := true, integrityProof, resolvedAt }

/-- The deferred check of step 5 refuses every request that gets that far. -/
theorem resolveCredential_ne_ok {request : CredentialResolutionRequest}
    {deps : ResolveCredentialDeps} {times : ResolutionTimes} {resolved : ResolvedCredential} :
    resolveCredential P request deps times ≠ .ok resolved := by
  intro h
  simp only [resolveCredential, bind_eq_ok] at h
  obtain ⟨_, -, _, -, _, -, _, -, _, -, _, -, _, -, _, hbinding, -⟩ := h
  exact throw_ne_ok.mp hbinding

/-! ## What is signed -/

theorem SignedPayload.names (payload : SignedPayload) :
    (payload.members.map Prod.fst).Nodup := by
  simp only [members, List.map_cons, List.map_nil]
  decide

theorem SignedPayload.lookup_disclosedClaims (payload : SignedPayload) :
    OrderedMap.lookupList "disclosedClaims" payload.members =
      some (.arr (payload.disclosedClaims.map Json.str)) := rfl

/-- The signed texts can be read off the canonical bytes. -/
theorem canonicalize_injective {payload payload' : SignedPayload}
    (h : canonicalizeResolvedCredentialIntegrityProof P payload =
      canonicalizeResolvedCredentialIntegrityProof P payload') : payload = payload' := by
  have hcanonical := (Json.canonicalize_eq_iff P.numberFormat).mp (utf8_injective h)
  have hlookup := Json.lookup_of_sortKeys_eq payload.names payload'.names hcanonical
  have hfield : ∀ name text text',
      OrderedMap.lookupList name payload.members = some (.str text) →
      OrderedMap.lookupList name payload'.members = some (.str text') → text = text' := by
    intro name text text' hleft hright
    have heq := hlookup name
    rw [hleft, hright] at heq
    simpa [Json.sortKeys] using heq
  have hclaims := hlookup "disclosedClaims"
  rw [payload.lookup_disclosedClaims, payload'.lookup_disclosedClaims] at hclaims
  simp only [Option.map_some, Json.sortKeys, Json.sortKeysItems_eq, Option.some.injEq,
    Json.arr.injEq, List.map_map] at hclaims
  have hstr : Function.Injective (Json.sortKeys ∘ Json.str) := fun s t hst => by
    simpa [Json.sortKeys] using hst
  exact (SignedPayload.mk.injEq ..).mpr ⟨hfield "token" _ _ rfl rfl, hstr.list_map hclaims,
    hfield "challenge" _ _ rfl rfl, hfield "audience" _ _ rfl rfl, hfield "notAfter" _ _ rfl rfl,
    hfield "cspVersion" _ _ rfl rfl⟩

/-- A link and a request that the resolver built a proof for, and when. -/
structure Issuance where
  link : FederationIdentityLink
  request : CredentialResolutionRequest
  builtMs : Int

variable {P}

/-- The proof that the resolver builds for an issuance. -/
def Issuance.Proves (P : CrPorts) (keyMaterial : ResolverKeyMaterial) (issuance : Issuance)
    (proof : ResolvedCredentialIntegrityProof) : Prop :=
  buildIntegrityProof P issuance.link issuance.request keyMaterial issuance.builtMs = .ok proof

/-- Ed25519: what verifies under the key was signed for a proof of the resolver. -/
def Unforgeable (P : CrPorts) (keyMaterial : ResolverKeyMaterial) (publicKey : List UInt8)
    (issued : Issuance → Prop) : Prop :=
  ∀ signature message, P.ed25519Verify signature message publicKey = .ok true →
    ∃ issuance proof, issued issuance ∧ issuance.Proves P keyMaterial proof ∧
      message = canonicalizeResolvedCredentialIntegrityProof P
        (extractIntegrityProofSignedPayload proof)

/-- The token and the disclosed claims of the proof are those of the link. -/
def ResolvedCredentialIntegrityProof.Names (proof : ResolvedCredentialIntegrityProof)
    (link : FederationIdentityLink) : Prop :=
  proof.token = tokenOf link ∧ proof.disclosedClaims = disclosedClaimsOf link

/-- The user id is disclosed in full, so the token is not ambiguous beside it. -/
theorem named_unique {proof : ResolvedCredentialIntegrityProof}
    {link link' : FederationIdentityLink} (h : proof.Names link) (h' : proof.Names link') :
    link.id = link'.id ∧ link.userId = link'.userId ∧ link.issuer = link'.issuer ∧
      link.federatedSubject = link'.federatedSubject := by
  have hclaims : disclosedClaimsOf link = disclosedClaimsOf link' := h.2.symm.trans h'.2
  simp only [disclosedClaimsOf, List.cons.injEq, String.append_right_inj, and_true] at hclaims
  obtain ⟨hissuer, hsubject, huser⟩ := hclaims
  have htoken : tokenOf link = tokenOf link' := h.1.symm.trans h'.1
  simp only [tokenOf, huser, String.append_left_inj, String.append_right_inj] at htoken
  exact ⟨htoken, huser, hissuer, hsubject⟩

theorem Issuance.Proves.payload {keyMaterial : ResolverKeyMaterial} {issuance : Issuance}
    {proof : ResolvedCredentialIntegrityProof} (h : issuance.Proves P keyMaterial proof) :
    ∃ notAfter, Calendar.toISOString (issuance.builtMs + integrityProofDefaultNotAfterMs) =
        some notAfter ∧
      extractIntegrityProofSignedPayload proof =
        ⟨tokenOf issuance.link, disclosedClaimsOf issuance.link, issuance.request.challenge,
          boundAudience issuance.link issuance.request, notAfter, crCspVersion100⟩ := by
  simp only [Issuance.Proves, buildIntegrityProof, isoDate, bind_eq_ok, pure_eq_ok] at h
  obtain ⟨notAfter, hnotAfter, signature, -, rfl⟩ := h
  refine ⟨notAfter, ?_, rfl⟩
  split at hnotAfter
  next text htext => rw [htext, Except.ok.inj hnotAfter]
  next => cases hnotAfter

/-- What every check of the verifier found. -/
theorem verifyResolvedCredential_eq_ok {resolved : ResolvedCredential} {publicKey : List UInt8}
    {challenge verifierDid : String} {nowMs : Int}
    (h : verifyResolvedCredential P resolved publicKey challenge verifierDid nowMs = .ok ()) :
    (∃ notAfterMs, P.getTime resolved.integrityProof.notAfter = some notAfterMs ∧
        nowMs ≤ notAfterMs) ∧
      resolved.integrityProof.challenge = challenge ∧
      resolved.integrityProof.audience = verifierDid ∧
      P.ed25519Verify (hexPairs resolved.integrityProof.proofSignature.toList)
        (canonicalizeResolvedCredentialIntegrityProof P
          (extractIntegrityProofSignedPayload resolved.integrityProof)) publicKey = .ok true := by
  simp only [verifyResolvedCredential, bind_eq_ok, exists_unit, require_eq_ok,
    verifyResolvedCredentialIntegrityProofSignature] at h
  obtain ⟨-, -, hfresh, hchallenge, haudience, -, -, -, -, hverify⟩ := h
  refine ⟨?_, hchallenge, haudience, ?_⟩
  · unfold checkNotAfter at hfresh
    split at hfresh
    next => simp at hfresh
    next notAfterMs htime => exact ⟨notAfterMs, htime, require_eq_ok.mp hfresh⟩
  · split at hverify
    next => simp at hverify
    next isValid hvalid =>
      rw [hvalid, require_eq_ok.mp hverify]

namespace Moved

def link : FederationIdentityLink where
  id := "550e8400-e29b-41d4-a716-446655440002"
  tenantId := "550e8400-e29b-41d4-a716-446655440000"
  source := .oidc
  issuer := "https://oidc.example.com"
  federatedSubject := "subject-001"
  userId := "550e8400-e29b-41d4-a716-446655440001"
  signature := ""
  createdAt := "2026-05-18T00:00:00.000Z"
  lastVerifiedAt := none
  revoked := false
  expectedAudience := none

/-- The link of somebody else. -/
def otherLink : FederationIdentityLink :=
  { link with
    id := "550e8400-e29b-41d4-a716-446655440003"
    federatedSubject := "admin-001"
    userId := "550e8400-e29b-41d4-a716-446655440004" }

def claims (subject : String) : NormalizedClaims :=
  .oidc ⟨"https://oidc.example.com", subject, ["coivitas"], some 1779066000000, 1779062400000, none,
    none, none, none, none⟩

def request : CredentialResolutionRequest where
  source := .oidc
  tenantId := "550e8400-e29b-41d4-a716-446655440000"
  challenge := "550e8400-e29b-41d4-a716-446655440099"
  verifierDid := "did:example:verifier-001"
  claims := claims "subject-001"
  maxLinkDepth := none

def issuance : Issuance := ⟨link, request, 1779062400000⟩

def payload : SignedPayload :=
  ⟨tokenOf link, disclosedClaimsOf link, request.challenge, request.verifierDid,
    "2026-05-18T01:00:00.000Z", "1.0.0"⟩

def message : List UInt8 := utf8 (Json.canonicalize NumberFormat.decimal (.obj payload.members))

def keyMaterial : ResolverKeyMaterial :=
  ⟨"did:example:resolver-001", (List.range 32).map fun i => UInt8.ofNat (i + 1)⟩

def publicKey : List UInt8 :=
  [121, 181, 86, 46, 143, 230, 84, 249, 64, 120, 177, 18, 232, 169, 139, 167, 144, 31, 133, 58,
    230, 149, 190, 215, 224, 227, 145, 11, 173, 4, 150, 100]

/-- The signature of the message under the private key. -/
def signature : List UInt8 :=
  [249, 20, 92, 75, 14, 173, 151, 124, 215, 226, 34, 211, 196, 79, 249, 150, 125, 31, 108, 160,
    46, 36, 196, 184, 96, 70, 220, 85, 244, 77, 79, 104, 10, 132, 141, 59, 154, 202, 186, 163,
    137, 236, 246, 66, 135, 239, 188, 123, 154, 33, 77, 19, 151, 216, 169, 59, 115, 99, 36, 84,
    175, 0, 179, 2]

/-- Ed25519 on the one message that is signed. -/
def ports : CrPorts where
  numberFormat := NumberFormat.decimal
  ed25519Sign text privateKey :=
    if text = message ∧ privateKey = keyMaterial.resolverPrivateKey then .ok signature
    else .error "not signed"
  ed25519Verify sig text key := .ok (decide (sig = signature ∧ text = message ∧ key = publicKey))
  getTime text := if text = "2026-05-18T01:00:00.000Z" then some 1779066000000 else none

def proof : ResolvedCredentialIntegrityProof where
  token := tokenOf link
  disclosedClaims := disclosedClaimsOf link
  challenge := request.challenge
  audience := request.verifierDid
  notAfter := "2026-05-18T01:00:00.000Z"
  cspVersion := "1.0.0"
  proofSignature := toHex signature
  resolverDid := "did:example:resolver-001"

def credential (link : FederationIdentityLink) (subject : String) : ResolvedCredential where
  crVersion := "1.0.0"
  link := link
  source := .oidc
  normalizedClaims := claims subject
  notRevoked := true
  integrityProof := proof
  resolvedAt := "2026-05-18T00:00:00.000Z"

theorem issuance_proves : issuance.Proves ports keyMaterial proof := by
  have hnotAfter : isoDate (1779062400000 + integrityProofDefaultNotAfterMs) =
      .ok "2026-05-18T01:00:00.000Z" := by decide +kernel
  have hsigned : signResolvedCredentialIntegrityProof ports payload
      keyMaterial.resolverPrivateKey = .ok (toHex signature) := by
    have hmessage : canonicalizeResolvedCredentialIntegrityProof ports payload = message := rfl
    have hsign : ports.ed25519Sign message keyMaterial.resolverPrivateKey = .ok signature := by
      simp [ports]
    have hkey : keyMaterial.resolverPrivateKey.length = 32 := by decide
    have hlength : signature.length = 64 := by decide
    rw [signResolvedCredentialIntegrityProof, hmessage, hsign]
    simp only [bind_eq_ok, exists_unit, require_eq_ok, pure_eq_ok]
    exact ⟨hkey, hlength, trivial⟩
  simp only [Issuance.Proves, buildIntegrityProof, issuance, bind_eq_ok, pure_eq_ok]
  exact ⟨_, hnotAfter, _, hsigned, rfl⟩

theorem unforgeable : Unforgeable ports keyMaterial publicKey (· = issuance) := by
  intro sig text hverify
  have hsigned : sig = signature ∧ text = message ∧ publicKey = publicKey := by
    simpa [ports] using hverify
  exact ⟨issuance, proof, rfl, issuance_proves, hsigned.2.1⟩

theorem dates_read : ∀ other, other = issuance → ∀ text,
    Calendar.toISOString (other.builtMs + integrityProofDefaultNotAfterMs) = some text →
      ports.getTime text = some (other.builtMs + integrityProofDefaultNotAfterMs) := by
  rintro other rfl text htext
  have hiso : Calendar.toISOString (issuance.builtMs + integrityProofDefaultNotAfterMs) =
      some "2026-05-18T01:00:00.000Z" := by decide +kernel
  obtain rfl := Option.some.inj (hiso.symm.trans htext)
  rfl

/-- The verifier accepts the proof beside every link of a user and any claims. -/
theorem credential_accepted {other : FederationIdentityLink} (subject : String)
    (huser : other.userId ≠ "") :
    verifyResolvedCredential ports (credential other subject) publicKey request.challenge
      request.verifierDid 1779062400000 = .ok () := by
  have hhex : isProofSignatureHex (toHex signature) = true := by
    rw [isProofSignatureHex, toHex, String.toList_ofList]
    decide +kernel
  have hbytes : hexPairs (toHex signature).toList = signature := by
    rw [toHex, String.toList_ofList]
    decide +kernel
  have hverify : ports.ed25519Verify signature (canonicalizeResolvedCredentialIntegrityProof ports
      (extractIntegrityProofSignedPayload proof)) publicKey = .ok true :=
    congrArg Except.ok (decide_eq_true ⟨rfl, rfl, rfl⟩)
  have hlength : signature.length = 64 := by decide
  have hfresh : checkNotAfter ports "2026-05-18T01:00:00.000Z" 1779062400000 = .ok () := by
    decide +kernel
  have hproof : (credential other subject).integrityProof = proof := rfl
  simp only [verifyResolvedCredential, verifyResolvedCredentialIntegrityProofSignature,
    bind_eq_ok, exists_unit, require_eq_ok, hproof]
  refine ⟨rfl, rfl, hfresh, rfl, rfl, huser, rfl, hhex, ?_, ?_⟩
  · rw [show proof.proofSignature = toHex signature from rfl, hbytes]
    exact hlength
  · rw [show proof.proofSignature = toHex signature from rfl, hbytes, hverify]
    rfl

end Moved

end Coivitas.Identity.Credentials
