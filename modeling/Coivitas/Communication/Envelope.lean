import Coivitas.Crypto.Encoding
import Coivitas.Foundation.CalendarText
import Coivitas.Foundation.Program
import Coivitas.Identity.Did
import Coivitas.Types.Errors

/-! # Negotiation envelopes

The model of `packages/communication/src/envelope.ts` and `error-envelope.ts`:
building and signing an envelope, parsing one and verifying its signature and its
timestamp. A body or a key that the crypto package cannot process is kept as the
message of the error it throws.
-/

namespace Coivitas.Communication

open Foundation Coivitas.Types Crypto Identity

structure EnvelopeHeader where
  senderDid : String
  recipientDid : String
  sessionId : Option String
  sequenceNumber : Option ℚ := none
  capabilityTokenRef : Option String := none
  deriving DecidableEq

structure NegotiationEnvelope where
  id : String
  specVersion : String
  header : EnvelopeHeader
  messageType : String
  body : List (String × Json)
  timestamp : String
  signature : String
  deriving DecidableEq

def supportedSpecVersions : List String := ["0.1.0", "0.2.0", "0.3.0"]

def messageTypes : List String :=
  ["HANDSHAKE_INIT", "HANDSHAKE_ACK", "NEGOTIATION_REQUEST", "NEGOTIATION_RESPONSE",
    "NEGOTIATION_CONFIRM", "ERROR", "DISCOVERY_REQUEST", "DISCOVERY_RESPONSE"]

/-! ## Signed bytes -/

def EnvelopeHeader.toJson (header : EnvelopeHeader) : Json :=
  .obj ([("senderDid", .str header.senderDid), ("recipientDid", .str header.recipientDid),
    ("sessionId", (header.sessionId.map Json.str).getD .null)] ++
    optionalMember "sequenceNumber" (header.sequenceNumber.map .num) ++
    optionalMember "capabilityTokenRef" (header.capabilityTokenRef.map .str))

/-- The envelope without its signature. -/
def signedPayload (id specVersion : String) (header : EnvelopeHeader) (messageType : String)
    (body : List (String × Json)) (timestamp : String) : Json :=
  .obj [("id", .str id), ("specVersion", .str specVersion), ("header", header.toJson),
    ("messageType", .str messageType), ("body", .obj body), ("timestamp", .str timestamp)]

/-- What envelopes use of the crypto package, and how dates are read. -/
structure EnvelopeCrypto where
  numberFormat : NumberFormat
  /-- `new Date(text).getTime()`, `none` for `NaN`. -/
  getTime : String → Option Int
  sign : List UInt8 → String → Encoding → Except String String
  verify : List UInt8 → String → String → Except String Bool

variable (C : EnvelopeCrypto)

def signedBytes (payload : Json) : List UInt8 := utf8 (Json.canonicalize C.numberFormat payload)

/-! ## Building -/

/-- What the runtime gives: fresh identifiers and the clock. -/
structure Runtime (ω χ : Type) where
  randomUUID : Program ω χ Fault String
  dateNow : Program ω χ Fault Int

variable {ω χ : Type} (runtime : Runtime ω χ)

structure BuildEnvelopeParams where
  senderDid : String
  senderPrivateKey : String
  recipientDid : String
  sessionId : Option String
  messageType : String
  body : Except String (List (String × Json))
  sequenceNumber : Option ℚ := none
  capabilityTokenRef : Option String := none
  signatureEncoding : Option Encoding := none
  specVersion : Option String := none

def BuildEnvelopeParams.header (params : BuildEnvelopeParams) : EnvelopeHeader where
  senderDid := params.senderDid
  recipientDid := params.recipientDid
  sessionId := params.sessionId
  sequenceNumber := params.sequenceNumber
  capabilityTokenRef := params.capabilityTokenRef

def BuildEnvelopeParams.effectiveSpecVersion (params : BuildEnvelopeParams) : String :=
  params.specVersion.getD (if params.capabilityTokenRef.isSome then "0.2.0" else "0.1.0")

def BuildEnvelopeParams.encoding (params : BuildEnvelopeParams) : Encoding :=
  params.signatureEncoding.getD
    (if params.effectiveSpecVersion = "0.3.0" ∨ params.effectiveSpecVersion = "0.2.0" then
      .base64url else .hex)

/-- The envelope with the given identifier and timestamp. -/
def signEnvelope (params : BuildEnvelopeParams) (id timestamp : String) :
    Except Fault NegotiationEnvelope :=
  let signature : Except String (List (String × Json) × String) := do
    let body ← params.body
    let bytes := signedBytes C (signedPayload id params.effectiveSpecVersion params.header
      params.messageType body timestamp)
    let signature ← C.sign bytes params.senderPrivateKey params.encoding
    return (body, signature)
  match signature with
  | .error message =>
      .error (.protocol ⟨.internalError, "Envelope signing failed: " ++ message, none⟩)
  | .ok (body, signature) =>
      .ok ⟨id, params.effectiveSpecVersion, params.header, params.messageType, body, timestamp,
        signature⟩

def buildEnvelope (params : BuildEnvelopeParams) : Program ω χ Fault NegotiationEnvelope := do
  let id ← runtime.randomUUID
  let now ← runtime.dateNow
  Program.ofExcept (signEnvelope C params id ((Calendar.toISOString now).getD ""))

inductive StandardErrorCode where
  | authorizationInsufficient
  | identityVerificationFailed
  | sessionNotFound
  | invalidEnvelope
  | internalError
  deriving DecidableEq, Repr

def StandardErrorCode.text : StandardErrorCode → String
  | .authorizationInsufficient => "AUTHORIZATION_INSUFFICIENT"
  | .identityVerificationFailed => "IDENTITY_VERIFICATION_FAILED"
  | .sessionNotFound => "SESSION_NOT_FOUND"
  | .invalidEnvelope => "INVALID_ENVELOPE"
  | .internalError => "INTERNAL_ERROR"

def StandardErrorCode.defaultMessage : StandardErrorCode → String
  | .authorizationInsufficient => "Authorization insufficient for the requested action."
  | .identityVerificationFailed => "Identity verification failed."
  | .sessionNotFound => "The requested session was not found."
  | .invalidEnvelope => "The received envelope is invalid."
  | .internalError => "Internal server error."

structure BuildErrorEnvelopeParams where
  senderDid : String
  senderPrivateKey : String
  recipientDid : String
  sessionId : Option String
  code : StandardErrorCode
  message : Option String
  relatedEnvelopeId : Option String

def buildErrorEnvelope (params : BuildErrorEnvelopeParams) :
    Program ω χ Fault NegotiationEnvelope :=
  buildEnvelope C runtime {
    senderDid := params.senderDid
    senderPrivateKey := params.senderPrivateKey
    recipientDid := params.recipientDid
    sessionId := params.sessionId
    messageType := "ERROR"
    body := .ok ([("code", .str params.code.text),
      ("message", .str (params.message.getD params.code.defaultMessage))] ++
      optionalMember "relatedEnvelopeId"
        ((params.relatedEnvelopeId.filter (· ≠ "")).map .str)) }

/-! ## Parsing -/

def invalidMessage (detail : String) : Fault := .protocol ⟨.invalidMessage, detail, none⟩

def isDidText (did : String) : Bool := isDidAgent did || isDidKey did

/-- The checks of `parseEnvelope`; a missing text is an empty one. -/
def parseEnvelope (envelope : NegotiationEnvelope) : Except Fault NegotiationEnvelope := do
  require (envelope.id ≠ "") (invalidMessage "Envelope is missing a valid id field")
  require (envelope.specVersion ≠ "")
    (invalidMessage "Envelope is missing a valid specVersion field")
  require (isDcVersion envelope.specVersion = true) (.protocol ⟨.specVersionMismatch,
    "Invalid specVersion format: " ++ envelope.specVersion, none⟩)
  require (envelope.header.senderDid ≠ "") (invalidMessage "header is missing a valid senderDid")
  require (isDidText envelope.header.senderDid = true)
    (invalidMessage ("header senderDid is not a valid DID: " ++ envelope.header.senderDid))
  require (envelope.header.recipientDid ≠ "")
    (invalidMessage "header is missing a valid recipientDid")
  require (isDidText envelope.header.recipientDid = true)
    (invalidMessage ("header recipientDid is not a valid DID: " ++ envelope.header.recipientDid))
  require (envelope.messageType ∈ messageTypes)
    (invalidMessage ("Invalid messageType: " ++ envelope.messageType))
  require (envelope.signature ≠ "") (invalidMessage "Envelope is missing a valid signature field")
  require (envelope.timestamp ≠ "") (invalidMessage "Envelope is missing a valid timestamp field")
  require (envelope.header.capabilityTokenRef = none ∨ envelope.specVersion = "0.2.0")
    (.protocol ⟨.specVersionMismatch,
      "The capabilityTokenRef field requires specVersion 0.2.0, but it is " ++
        envelope.specVersion, none⟩)
  return envelope

theorem parseEnvelope_eq {envelope parsed : NegotiationEnvelope}
    (h : parseEnvelope envelope = .ok parsed) : parsed = envelope := by
  simp only [parseEnvelope, bind_eq_ok, exists_unit, require_eq_ok, pure_eq_ok] at h
  exact h.2.2.2.2.2.2.2.2.2.2.2.symm

/-! ## Verifying -/

def clockSkewMs : Int := 300000

/-- `Math.abs(envelopeTime - now) <= clockSkewMs` for a timestamp that is a date. -/
def withinClockSkew (timestamp : String) (now : Int) : Prop :=
  ∃ envelopeTime ∈ C.getTime timestamp, |envelopeTime - now| ≤ clockSkewMs

instance (timestamp : String) (now : Int) : Decidable (withinClockSkew C timestamp now) := by
  unfold withinClockSkew
  infer_instance

/-- The signature check; the reason when it fails. -/
def verifyEnvelopeSignature (envelope : NegotiationEnvelope) (publicKey : String) :
    Option String :=
  let bytes := signedBytes C (signedPayload envelope.id envelope.specVersion envelope.header
    envelope.messageType envelope.body envelope.timestamp)
  match C.verify bytes envelope.signature publicKey with
  | .ok true => none
  | .ok false => some "Signature verification failed"
  | .error message => some ("Signature verification error: " ++ message)

/-- The reason why an envelope is not accepted, if it is not. -/
def verifyEnvelope (resolvePublicKey : String → Program ω χ Fault (Option String))
    (envelope : NegotiationEnvelope) : Program ω χ Fault (Option String) := do
  let now ← runtime.dateNow
  if envelope.specVersion ∉ supportedSpecVersions then
    return some ("Incompatible specVersion: " ++ envelope.specVersion ++ " (supported range: " ++
      String.intercalate ", " supportedSpecVersions ++ ")")
  else if ¬ withinClockSkew C envelope.timestamp now then
    return some "Clock skew exceeds the allowed range (±300000ms)"
  else
    let publicKey ← resolvePublicKey envelope.header.senderDid
    match publicKey.filter (· ≠ "") with
    | none => return some ("Unable to resolve the public key for senderDid: " ++
        envelope.header.senderDid)
    | some publicKey => return verifyEnvelopeSignature C envelope publicKey

end Coivitas.Communication
