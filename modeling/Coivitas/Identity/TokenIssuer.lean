import Coivitas.Identity.Attenuation
import Coivitas.Identity.TokenVerifier

/-! # Issuing and delegating capability tokens

A principal issues a root token to an agent; the holder of a token delegates a
narrower one to another agent and signs both the delegation proof and the child.
-/

namespace Coivitas.Identity

open Foundation Coivitas.Types

/-- What issuing takes from the crypto package and the runtime. -/
structure IssuerPorts extends SignaturePorts where
  /-- Ed25519 signature in base64url; `none` when the key cannot be decoded. -/
  sign : List UInt8 → String → Option String
  /-- Protocol and host name of a URL; `none` when it does not parse. -/
  parseUrl : String → Option (String × String)
  /-- `new Date(text).getTime()`, on any text; `none` is `NaN`. -/
  getTime : String → Option Int
  getTime_iso : ∀ text, Calendar.isIsoText text = true → getTime text = Calendar.getTime text

/-- A fresh UUID of the runtime. -/
structure Uuid where
  text : String
  valid : isUuid text.toList = true

inductive IssueErrorCode where
  | signatureInvalid
  | identityNotFound
  | scopeExceeded
  | tokenExpired
  | internalError
  | cryptoError
  deriving DecidableEq

variable (I : IssuerPorts)

/-- `isTimestampExpired` on texts that no schema has seen. -/
def IssuerPorts.isTimestampExpired (expiresAt now : String) : Prop :=
  ∃ e ∈ I.getTime expiresAt, ∃ n ∈ I.getTime now, e ≤ n

instance (expiresAt now : String) : Decidable (I.isTimestampExpired expiresAt now) :=
  inferInstanceAs (Decidable (∃ e ∈ I.getTime expiresAt, ∃ n ∈ I.getTime now, e ≤ n))

/-! ## Revocation URLs -/

/-- Replace the first occurrence of the placeholder. -/
def replacePlaceholder (replacement : List Char) : List Char → Option (List Char)
  | '{' :: 'i' :: 'd' :: '}' :: rest => some (replacement ++ rest)
  | c :: rest => (replacePlaceholder replacement rest).map (c :: ·)
  | [] => none

/-- An HTTPS URL once the placeholder is filled in. -/
def isValidRevocationUrlTemplate (url : String) : Bool :=
  match replacePlaceholder "placeholder".toList url.toList with
  | none => false
  | some filled =>
      match I.parseUrl (String.ofList filled) with
      | some (protocol, hostname) => protocol == "https:" && hostname != ""
      | none => false

def signOrThrow (payload : List UInt8) (privateKey : String) : Except IssueErrorCode String :=
  match I.sign payload privateKey with
  | some signature => .ok signature
  | none => .error .cryptoError

/-! ## Root tokens -/

/-- The parameters of a root token, with the clock reading that stands in for a
missing `issuedAt` already chosen. -/
structure IssueCapabilityTokenParams where
  issuerDid : String
  issuedTo : String
  capabilities : List Capability
  expiresAt : String
  revocationUrl : String
  issuerPrivateKey : String
  issuedAt : String

def specVersion010 : String := "0.1.0"

def specVersion020 : String := "0.2.0"

/-- The token before it is signed. -/
def rootPayload (params : IssueCapabilityTokenParams) (uuid : Uuid) : CapabilityToken where
  id := "urn:cap:" ++ uuid.text
  specVersion := specVersion010
  issuerDid := params.issuerDid
  principalDid := params.issuerDid
  issuedTo := params.issuedTo
  issuedAt := params.issuedAt
  expiresAt := params.expiresAt
  capabilities := params.capabilities
  revocationUrl := params.revocationUrl
  proof := ⟨params.issuedAt, params.issuerDid ++ "#key-1", ""⟩
  delegationChain := none

def issueCapabilityToken (params : IssueCapabilityTokenParams) (uuid : Uuid) :
    Except IssueErrorCode CapabilityToken := do
  require (isDidKey params.issuerDid = true) .signatureInvalid
  require (isDidAgent params.issuedTo = true) .identityNotFound
  require (params.capabilities.length ≠ 0) .scopeExceeded
  require (¬ I.isTimestampExpired params.expiresAt params.issuedAt) .tokenExpired
  require (isValidRevocationUrlTemplate I params.revocationUrl = true) .internalError
  let payload := rootPayload params uuid
  let signature ← signOrThrow I (createCapabilityTokenPayload I.toSignaturePorts payload)
    params.issuerPrivateKey
  return { payload with proof := { payload.proof with value := signature } }

/-! ## Delegation -/

structure DelegateTokenParams where
  parentToken : CapabilityToken
  delegatorPrivateKey : String
  delegateeDid : String
  attenuatedCapabilities : List Capability
  expiresAt : String
  revocationUrl : String
  issuedAt : String
  dcVersion : Option String

/-- The delegation proof before it is signed. -/
def delegationPayload (params : DelegateTokenParams) : DelegationProof where
  parentTokenId := params.parentToken.id
  delegatorDid := params.parentToken.issuedTo
  delegateeDid := params.delegateeDid
  parentCapabilities := params.parentToken.capabilities
  parentExpiresAt := params.parentToken.expiresAt
  attenuatedCapabilities := params.attenuatedCapabilities
  proof := ⟨params.issuedAt, params.parentToken.issuedTo ++ "#key-1", ""⟩
  dcVersion := params.dcVersion

/-- The child token before it is signed. -/
def childPayload (params : DelegateTokenParams) (uuid : Uuid) (delegationProof : DelegationProof) :
    CapabilityToken where
  id := "urn:cap:" ++ uuid.text
  specVersion := specVersion020
  issuerDid := params.parentToken.issuerDid
  principalDid := params.parentToken.principalDid
  issuedTo := params.delegateeDid
  issuedAt := params.issuedAt
  expiresAt := params.expiresAt
  capabilities := params.attenuatedCapabilities
  revocationUrl := params.revocationUrl
  proof := ⟨params.issuedAt, params.parentToken.issuedTo ++ "#key-1", ""⟩
  delegationChain := some (params.parentToken.delegationChain.getD [] ++ [delegationProof])

def delegateCapabilityToken (params : DelegateTokenParams) (uuid : Uuid) :
    Except IssueErrorCode CapabilityToken := do
  require (isDidAgent params.delegateeDid = true) .identityNotFound
  require (params.attenuatedCapabilities.length ≠ 0) .scopeExceeded
  require (¬ I.isTimestampExpired params.expiresAt params.issuedAt) .tokenExpired
  require (¬ TextLt params.parentToken.expiresAt params.expiresAt) .tokenExpired
  require (isValidRevocationUrlTemplate I params.revocationUrl = true) .internalError
  (validateAttenuation I.numberFormat (some ⟨params.parentToken.specVersion, specVersion020⟩)
    params.parentToken.capabilities params.attenuatedCapabilities).mapError fun _ => .scopeExceeded
  require ((params.parentToken.delegationChain.getD []).length + 1 ≤ maxDelegationDepth)
    .scopeExceeded
  let unsigned := delegationPayload params
  let proofValue ← signOrThrow I (delegationProofPayload I.toSignaturePorts unsigned)
    params.delegatorPrivateKey
  let delegationProof := { unsigned with proof := { unsigned.proof with value := proofValue } }
  let payload := childPayload params uuid delegationProof
  let tokenValue ← signOrThrow I (createCapabilityTokenPayload I.toSignaturePorts payload)
    params.delegatorPrivateKey
  return { payload with proof := { payload.proof with value := tokenValue } }

end Coivitas.Identity
