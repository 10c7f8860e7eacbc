import Coivitas.Communication.Envelope
import Coivitas.Communication.HandshakeBody
import Coivitas.Communication.SessionStore

/-! # The handshake

The model of `handshake/initiator.ts`, `handshake/responder.ts` and of the transcript
and key derivation of `crypto/src/encryption.ts`. Both sides are cut where they wait
for the other: an attempt of the initiator starts and finishes, the responder admits
a challenge, claims its nonce and establishes the session. What the outside answers
during a part is given with it.
-/

namespace Coivitas.Communication

open Foundation Coivitas.Types Crypto OrderedMap

/-! ## Transcript and keys -/

/-- The first error of a schema that refuses a value. -/
structure ValidationIssue where
  instancePath : String
  keyword : String
  message : String

/-- What the handshake uses of the crypto package and of the schema validator. -/
structure HandshakePorts extends EnvelopeCrypto where
  sha256 : List UInt8 → List UInt8
  getPublicKey : List UInt8 → List UInt8
  getSharedSecret : List UInt8 → List UInt8 → Except String (List UInt8)
  hkdfExtract : List UInt8 → List UInt8 → List UInt8
  hkdfExpand : List UInt8 → List UInt8 → Nat → List UInt8
  firstIssue : String → Json → ValidationIssue

variable (C : HandshakePorts)

structure TranscriptHashInput where
  protocolVersion : String
  initiatorDid : String
  responderDid : String
  initiatorCapabilities : List String
  responderCapabilities : List String
  initiatorPreference : EncryptionPreference
  responderPreference : EncryptionPreference
  negotiatedEncryptionMode : NegotiatedEncryptionMode
  initiatorEphemeralKey : String
  responderEphemeralKey : String
  nonce : String
  initTimestamp : String
  responseTimestamp : String
  authorizedPrincipalDid : String
  authorizedTokenId : Option String
  authorizedTokenFingerprint : String
  deriving DecidableEq

def TranscriptHashInput.toJson (input : TranscriptHashInput) : Json :=
  .obj [("protocolVersion", .str input.protocolVersion), ("initiatorDid", .str input.initiatorDid),
    ("responderDid", .str input.responderDid),
    ("initiatorCapabilities", .arr (input.initiatorCapabilities.map .str)),
    ("responderCapabilities", .arr (input.responderCapabilities.map .str)),
    ("initiatorPreference", .str input.initiatorPreference.text),
    ("responderPreference", .str input.responderPreference.text),
    ("negotiatedEncryptionMode", .str input.negotiatedEncryptionMode.text),
    ("I_epk", .str input.initiatorEphemeralKey), ("R_epk", .str input.responderEphemeralKey),
    ("nonce", .str input.nonce), ("initTimestamp", .str input.initTimestamp),
    ("responseTimestamp", .str input.responseTimestamp),
    ("authorizedPrincipalDid", .str input.authorizedPrincipalDid),
    ("authorizedTokenId", (input.authorizedTokenId.map Json.str).getD .null),
    ("authorizedTokenFingerprint", .str input.authorizedTokenFingerprint)]

def computeTranscriptHash (input : TranscriptHashInput) : List UInt8 :=
  C.sha256 (utf8 (Json.canonicalize C.numberFormat input.toJson))

/-- The hex text of the first 16 bytes of a transcript hash. -/
def confirmation (transcriptHash : List UInt8) : String := Foundation.toHex (transcriptHash.take 16)

structure DerivedSessionKeys where
  initToResp : List UInt8
  respToInit : List UInt8
  sessionSalt : List UInt8
  rekeyChainKey : List UInt8
  deriving DecidableEq

def deriveSessionKeys (sharedSecret transcriptHash : List UInt8) : DerivedSessionKeys :=
  let prk := C.hkdfExtract sharedSecret transcriptHash
  { initToResp := C.hkdfExpand prk (utf8 "ap/e2e/v1/traffic/init->resp/key") 32
    respToInit := C.hkdfExpand prk (utf8 "ap/e2e/v1/traffic/resp->init/key") 32
    sessionSalt := C.hkdfExpand prk (utf8 "ap/e2e/v1/nonce/session-salt") 4
    rekeyChainKey := C.hkdfExpand prk (utf8 "ap/e2e/v1/rekey/chain-key") 32 }

def computeX25519SharedSecret (mySecretKey theirPublicKey : List UInt8) :
    Except Fault (List UInt8) :=
  match C.getSharedSecret mySecretKey theirPublicKey with
  | .ok secret => .ok secret
  | .error message => .error (.error message)

def decodeHex (text : String) : Except Fault (List UInt8) :=
  match fromHex text.toList with
  | some bytes => .ok bytes
  | none => .error (.error
      "Hex string must have an even length and contain only hexadecimal characters.")

/-! ## Results -/

structure DerivedKeys where
  initiatorEphemeralPublicKeyHex : String
  responderEphemeralPublicKeyHex : String
  transcriptHash : List UInt8
  deriving DecidableEq

structure EncryptionHandshakeResult where
  negotiatedMode : NegotiatedEncryptionMode
  derivedKeys : Option DerivedKeys
  deriving DecidableEq

structure HandshakeResult where
  sessionId : String
  negotiatedCapabilities : List String
  encryption : Option EncryptionHandshakeResult
  deriving DecidableEq

/-- The negotiated mode; a result without encryption is `OFF`. -/
def HandshakeResult.mode (result : HandshakeResult) : NegotiatedEncryptionMode :=
  (result.encryption.map EncryptionHandshakeResult.negotiatedMode).getD .off

/-- What one side computes on its way in mode `REQUIRED`. -/
structure SecretAgreement where
  transcript : TranscriptHashInput
  sessionKeys : DerivedSessionKeys
  deriving DecidableEq

/-! ## Failures -/

def protocolFault (code detail : String) : Fault := .protocol ⟨.other code, detail, none⟩

def invalidHandshake (detail : String) : Fault := protocolFault "INVALID_HANDSHAKE" detail

/-- The index in a path that is a base and digits. -/
def indexBelow (base path : String) : Option Nat :=
  let rest := path.toList.drop base.toList.length
  if base.toList.isPrefixOf path.toList = true ∧ rest ≠ [] ∧ rest.all Char.isDigit = true then
    some (Nat.ofDigitChars 10 rest 0)
  else none

/-- The failure of a schema; a value outside the vocabulary is named. -/
def schemaFault (issue : ValidationIssue) (path member context : String) (names : List Json) :
    Fault :=
  match indexBelow path issue.instancePath, issue.keyword with
  | some index, "enum" =>
      let offending := match names[index]? with
        | some (.str name) => name
        | _ => "undefined"
      invalidHandshake (member ++ " contains the forbidden value \"" ++ offending ++
        "\"; only allowed: " ++ String.intercalate ", " businessActionVocabulary)
  | _, _ => invalidHandshake (context ++ " schema validation failed " ++ issue.instancePath ++
      ": " ++ issue.message)

/-- The items of a member that is an array. -/
def arrayMember (name : String) : Json → List Json
  | .obj members =>
      match lookupList name members with
      | some (.arr items) => items
      | _ => []
  | _ => []

/-! ## Verifying at a moment -/

/-- `verifyEnvelope` at a moment, with what the resolver answers. -/
def verifyEnvelopeAt (now : Int) (resolvePublicKey : String → Except Fault (Option String))
    (envelope : NegotiationEnvelope) : Except Fault (Option String) :=
  let runtime : Runtime Unit Empty := ⟨pure "", pure now⟩
  ((verifyEnvelope C.toEnvelopeCrypto runtime
    (fun did => Program.ofExcept (resolvePublicKey did)) envelope).run ()).result

/-- The text of the clock. -/
def clockText (now : Int) : String := (Calendar.toISOString now).getD ""

/-! ## The initiator -/

structure HandshakeInitiatorOptions where
  initiatorDid : String
  initiatorPrivateKey : String
  challengeExpiryMs : Int := 60000
  capabilities : List String := []
  encryptionPreference : EncryptionPreference := .off

structure InitiateParams where
  responderDid : String
  principalDid : Option String := none
  capabilityTokenId : Option String := none
  timeoutMs : Nat := 30000

structure StartAnswers where
  nonce : String
  now : Int
  challengeId : String
  ephemeralSecretKey : List UInt8
  envelopeId : String
  envelopeNow : Int

structure EphemeralKey where
  secretKey : List UInt8
  publicKeyHex : String

/-- An attempt between its `HANDSHAKE_INIT` and the answer. -/
structure PendingHandshake where
  params : InitiateParams
  challenge : HandshakeChallenge
  ephemeral : Option EphemeralKey

/-- The first part of `attemptHandshake`, up to the envelope it sends. -/
def startHandshake (options : HandshakeInitiatorOptions) (params : InitiateParams)
    (answers : StartAnswers) : Except Fault (PendingHandshake × NegotiationEnvelope) := do
  let ephemeral : Option EphemeralKey :=
    if options.encryptionPreference ≠ .off then
      some ⟨answers.ephemeralSecretKey,
        Foundation.toHex (C.getPublicKey answers.ephemeralSecretKey)⟩
    else none
  let some timestamp := Calendar.toISOString answers.now
    | throw (.error "Invalid time value")
  let some expiresAt := Calendar.toISOString (answers.now + options.challengeExpiryMs)
    | throw (.error "Invalid time value")
  let challenge : HandshakeChallenge :=
    { challengeId := answers.challengeId
      initiatorDid := options.initiatorDid
      responderDid := params.responderDid
      nonce := answers.nonce
      timestamp := timestamp
      expiresAt := expiresAt
      initiatorCapabilities := options.capabilities
      principalDid := params.principalDid
      capabilityTokenId := params.capabilityTokenId
      resumeSessionId := none
      encryption := (ephemeral.filter fun key => key.publicKeyHex ≠ "").map fun key =>
        ⟨options.encryptionPreference, key.publicKeyHex⟩ }
  let init ← signEnvelope C.toEnvelopeCrypto
    { senderDid := options.initiatorDid
      senderPrivateKey := options.initiatorPrivateKey
      recipientDid := params.responderDid
      sessionId := none
      messageType := "HANDSHAKE_INIT"
      body := .ok [("challenge", challenge.toJson)] }
    answers.envelopeId (clockText answers.envelopeNow)
  return (⟨params, challenge, ephemeral⟩, init)

/-- How the race between the transport and the timeout ends. -/
inductive Delivery where
  | received (envelope : Option NegotiationEnvelope)
  | timedOut
  | failed (fault : Fault)

def receiveAck (timeoutMs : Nat) : Delivery → Except Fault NegotiationEnvelope
  | .received (some envelope) => .ok envelope
  | .received none => .error (invalidHandshake "Handshake ACK is empty")
  | .timedOut => .error (protocolFault "HANDSHAKE_TIMEOUT"
      ("Handshake timed out (" ++ toString timeoutMs ++ "ms)"))
  | .failed (.protocol thrown) => .error (.protocol thrown)
  | .failed fault => .error (protocolFault "HANDSHAKE_TIMEOUT"
      ("Handshake transport failed: " ++
        match fault with
        | .value text => text
        | fault => fault.message ""))

structure FinishAnswers where
  now : Int
  resolvePublicKey : String → Except Fault (Option String)

/-- The checks of an acknowledgement, up to its encryption. -/
def checkAck (pending : PendingHandshake) (envelope : NegotiationEnvelope)
    (answers : FinishAnswers) : Except Fault HandshakeAckBody := do
  let parsed ← parseEnvelope envelope
  let reason ← verifyEnvelopeAt C answers.now answers.resolvePublicKey parsed
  require (parsed.messageType = "HANDSHAKE_ACK")
    (invalidHandshake ("Expected HANDSHAKE_ACK, received " ++ parsed.messageType))
  refuse reason fun reason => protocolFault "SIGNATURE_INVALID"
    ("HANDSHAKE_ACK signature verification failed: " ++ reason)
  require (parsed.header.senderDid = pending.params.responderDid)
    (invalidHandshake ("ACK sender " ++ parsed.header.senderDid ++
      " does not match the expected responderDid " ++ pending.params.responderDid))
  match Schema.handshakeAckBody (.obj parsed.body) with
  | none =>
      let issue := C.firstIssue "handshakeAckBody" (.obj parsed.body)
      throw (schemaFault issue "/response/responderCapabilities/" "responderCapabilities"
        "ACK body" (arrayMember "responderCapabilities"
          ((lookupList "response" parsed.body).getD .null)))
  | some ackBody => do
      require (ackBody.accepted = true) (protocolFault "HANDSHAKE_REJECTED"
        (ackBody.reason.getD "Peer rejected the handshake"))
      require (ackBody.response.nonce = pending.challenge.nonce)
        (invalidHandshake "The nonce in the ACK does not match the challenge")
      require (ackBody.response.challengeId = pending.challenge.challengeId)
        (invalidHandshake
          "The challengeId in the ACK does not match the challenge that was sent")
      require (ackBody.response.responderDid = pending.params.responderDid)
        (invalidHandshake "The responderDid in the ACK does not match the target responderDid")
      return ackBody

/-- The transcript the initiator rebuilds. -/
def initiatorTranscript (options : HandshakeInitiatorOptions) (pending : PendingHandshake)
    (response : HandshakeResponse) (encryption : HandshakeResponseEncryption)
    (negotiatedCapabilities : List String) (initiatorKey responderKey : String) :
    TranscriptHashInput where
  protocolVersion := encryptionProtocolVersion
  initiatorDid := options.initiatorDid
  responderDid := pending.params.responderDid
  initiatorCapabilities := options.capabilities
  responderCapabilities := negotiatedCapabilities
  initiatorPreference := options.encryptionPreference
  responderPreference := encryption.responderPreference
  negotiatedEncryptionMode := .required
  initiatorEphemeralKey := initiatorKey
  responderEphemeralKey := responderKey
  nonce := pending.challenge.nonce
  initTimestamp := pending.challenge.timestamp
  responseTimestamp := response.timestamp
  authorizedPrincipalDid := pending.challenge.principalDid.getD options.initiatorDid
  authorizedTokenId := pending.challenge.capabilityTokenId
  authorizedTokenFingerprint := encryption.authorizedTokenFingerprint.getD ""

/-- The verification of an encrypted answer. -/
def confirmEncryption (options : HandshakeInitiatorOptions) (pending : PendingHandshake)
    (key : EphemeralKey) (response : HandshakeResponse) (encryption : HandshakeResponseEncryption)
    (negotiatedCapabilities : List String) : Except Fault (DerivedKeys × SecretAgreement) := do
  let some responderKey := encryption.responderEphemeralPublicKey.filter (· ≠ "")
    | throw (invalidHandshake
        "responder declared REQUIRED but did not provide responderEphemeralPublicKey")
  require (encryption.transcriptHashConfirmation ≠ "") (invalidHandshake
    "responder declared REQUIRED but did not provide transcriptHashConfirmation")
  require (pending.challenge.capabilityTokenId = none ∨
      encryption.authorizedTokenFingerprint.filter (· ≠ "") ≠ none) (invalidHandshake
    "responder declared REQUIRED and challenge contains capabilityTokenId but did not provide authorizedTokenFingerprint")
  let responderPublicKey ← decodeHex responderKey
  let sharedSecret ← computeX25519SharedSecret C key.secretKey responderPublicKey
  let transcript := initiatorTranscript options pending response encryption
    negotiatedCapabilities key.publicKeyHex responderKey
  let transcriptHash := computeTranscriptHash C transcript
  require (confirmation transcriptHash = encryption.transcriptHashConfirmation)
    (protocolFault "ENCRYPTION_DOWNGRADE_DETECTED"
      ("transcript_hash confirmation mismatch: expected " ++ confirmation transcriptHash ++
        ", received " ++ encryption.transcriptHashConfirmation))
  return (⟨key.publicKeyHex, responderKey, transcriptHash⟩,
    ⟨transcript, deriveSessionKeys C sharedSecret transcriptHash⟩)

/-- The last part of `attemptHandshake`, from the parsed answer on. -/
def settleAck (options : HandshakeInitiatorOptions) (pending : PendingHandshake)
    (ackBody : HandshakeAckBody) : Except Fault (HandshakeResult × Option SecretAgreement) := do
  let response := ackBody.response
  let negotiatedCapabilities :=
    response.responderCapabilities.filter fun name => name ∈ options.capabilities
  match pending.ephemeral.filter fun key => key.publicKeyHex ≠ "" with
  | none => return (⟨response.sessionId, negotiatedCapabilities, none⟩, none)
  | some key =>
      match response.encryption.filter fun encryption => encryption.negotiatedMode = .required with
      | some encryption => do
          let (derivedKeys, agreement) ←
            confirmEncryption C options pending key response encryption negotiatedCapabilities
          return (⟨response.sessionId, negotiatedCapabilities,
            some ⟨.required, some derivedKeys⟩⟩, some agreement)
      | none => do
          require (options.encryptionPreference ≠ .required)
            (protocolFault "ENCRYPTION_REQUIRED"
              "This side requires encryption but the peer negotiated OFF")
          return (⟨response.sessionId, negotiatedCapabilities, some ⟨.off, none⟩⟩, none)

def finishHandshake (options : HandshakeInitiatorOptions) (pending : PendingHandshake)
    (envelope : NegotiationEnvelope) (answers : FinishAnswers) :
    Except Fault (HandshakeResult × Option SecretAgreement) := do
  let ackBody ← checkAck C pending envelope answers
  settleAck C options pending ackBody

/-- One attempt, with the transport between its parts. -/
def attemptHandshake (options : HandshakeInitiatorOptions) (params : InitiateParams)
    (start : StartAnswers) (send : NegotiationEnvelope → Delivery) (finish : FinishAnswers) :
    Except Fault (HandshakeResult × Option SecretAgreement) := do
  let (pending, init) ← startHandshake C options params start
  let ack ← receiveAck params.timeoutMs (send init)
  finishHandshake C options pending ack finish

/-! ## The responder -/

structure HandshakeResponderOptions where
  responderDid : String
  responderPrivateKey : String
  capabilities : List String := []
  encryptionPreference : EncryptionPreference := .off

/-- The identifier and the clocks of an acknowledgement. -/
structure AckAnswers where
  responseNow : Int
  envelopeId : String
  envelopeNow : Int

def signAck (options : HandshakeResponderOptions) (recipientDid : String)
    (sessionId : Option String) (body : HandshakeAckBody) (answers : AckAnswers) :
    Except Fault NegotiationEnvelope :=
  signEnvelope C.toEnvelopeCrypto
    { senderDid := options.responderDid
      senderPrivateKey := options.responderPrivateKey
      recipientDid := recipientDid
      sessionId := sessionId
      messageType := "HANDSHAKE_ACK"
      body := .ok body.members }
    answers.envelopeId (clockText answers.envelopeNow)

/-- A refusal. -/
def buildAck (options : HandshakeResponderOptions) (recipientDid : String)
    (challenge : HandshakeChallenge) (reason : String) (answers : AckAnswers) :
    Except Fault NegotiationEnvelope :=
  signAck C options recipientDid none
    { response :=
        { challengeId := challenge.challengeId
          sessionId := ""
          responderDid := options.responderDid
          responderCapabilities := []
          nonce := challenge.nonce
          timestamp := clockText answers.responseNow
          encryption := none }
      accepted := false
      reason := if reason = "" then none else some reason }
    answers

structure AdmitAnswers where
  now : Int
  resolvePublicKey : String → Except Fault (Option String)
  expiryNow : Int
  verifyInitiator : String → Except Fault Bool
  ack : AckAnswers

/-- `new Date(expiresAt).getTime() <= now`; a text that is no date never expires. -/
def hasExpired (expiresAt : String) (now : Int) : Prop :=
  ∃ expiry ∈ Calendar.getTime expiresAt, expiry ≤ now

instance (expiresAt : String) (now : Int) : Decidable (hasExpired expiresAt now) := by
  unfold hasExpired
  infer_instance

/-- The checks of a challenge and of the envelope that carries it. -/
def checkInit (options : HandshakeResponderOptions) (init : NegotiationEnvelope)
    (answers : AdmitAnswers) : Except Fault HandshakeChallenge := do
  require (init.messageType = "HANDSHAKE_INIT")
    (invalidHandshake ("Expected HANDSHAKE_INIT, received " ++ init.messageType))
  let _ ← parseEnvelope init
  let body := (lookupList "challenge" init.body).getD .null
  match Schema.handshakeChallenge body with
  | none =>
      let issue := C.firstIssue "handshakeChallenge" body
      throw (schemaFault issue "/initiatorCapabilities/" "initiatorCapabilities" "challenge"
        (arrayMember "initiatorCapabilities" body))
  | some challenge => do
      let reason ← verifyEnvelopeAt C answers.now answers.resolvePublicKey init
      refuse reason fun reason => protocolFault "SIGNATURE_INVALID"
        ("HANDSHAKE_INIT signature verification failed: " ++ reason)
      require (challenge.initiatorDid = init.header.senderDid) (invalidHandshake
        "challenge.initiatorDid does not match envelope.header.senderDid")
      require (challenge.responderDid = options.responderDid) (invalidHandshake
        "challenge.responderDid does not match the current responderDid")
      return challenge

/-- The first part of `respond`: a refusal, or the challenge whose nonce is claimed next. -/
def admitInit (options : HandshakeResponderOptions) (init : NegotiationEnvelope)
    (answers : AdmitAnswers) : Except Fault (NegotiationEnvelope ⊕ HandshakeChallenge) := do
  let challenge ← checkInit C options init answers
  if hasExpired challenge.expiresAt answers.expiryNow then
    return .inl (← buildAck C options init.header.senderDid challenge "Challenge expired"
      answers.ack)
  else if (← answers.verifyInitiator init.header.senderDid) = true then
    return .inr challenge
  else
    return .inl (← buildAck C options init.header.senderDid challenge "Initiator not authorized"
      answers.ack)

structure AuthorizationInput where
  initiatorDid : String
  principalDid : String
  capabilityTokenId : Option String

inductive AuthorizationResult where
  | accepted (principalDid : String) (capabilityTokenId capabilityTokenFingerprint : Option String)
  | rejected (reason : String)

deriving instance DecidableEq for SessionCreateInput

structure EstablishAnswers where
  sessionId : String
  validate : Option (AuthorizationInput → Except Fault AuthorizationResult)
  ephemeralSecretKey : List UInt8
  create : Option (SessionCreateInput → Except Fault Unit)
  ack : AckAnswers

/-- A session the responder accepted, with what it keeps of it. -/
structure Established where
  record : SessionCreateInput
  result : HandshakeResult
  nonce : String
  challengeId : String
  agreement : Option SecretAgreement
  deriving DecidableEq

/-- The token fingerprint after the validator, or the reason of a refusal. -/
def authorize (answers : EstablishAnswers) (input : AuthorizationInput) :
    Except Fault (String ⊕ Option String) :=
  match answers.validate with
  | none => .ok (.inr none)
  | some validate => do
      match ← validate input with
      | .rejected _ => return .inl "Authorization validation failed"
      | .accepted principalDid capabilityTokenId capabilityTokenFingerprint =>
          if principalDid = input.principalDid ∧ capabilityTokenId = input.capabilityTokenId then
            return .inr capabilityTokenFingerprint
          else
            return .inl "Authorization fields inconsistent with the challenge (post-HAV values diverge from the challenge input)"

/-- The compatibility matrix. -/
def negotiate (initiatorPreference responderPreference : EncryptionPreference)
    (capabilityTokenId capabilityTokenFingerprint : Option String) :
    Except Fault NegotiatedEncryptionMode := do
  require (¬ (initiatorPreference = .off ∧ responderPreference = .required ∨
      initiatorPreference = .required ∧ responderPreference = .off))
    (protocolFault "ENCRYPTION_REQUIRED" ("Encryption negotiation failed: initiator=" ++
      initiatorPreference.text ++ " responder=" ++ responderPreference.text))
  if initiatorPreference = .required ∨ responderPreference = .required then do
    require (capabilityTokenId ≠ none) (protocolFault "ENCRYPTION_REQUIRES_CAPABILITY_TOKEN"
      "Encryption mode requires a capabilityToken, but the current request carries no valid token")
    require (capabilityTokenFingerprint.filter (· ≠ "") ≠ none)
      (protocolFault "ENCRYPTION_REQUIRES_CAPABILITY_TOKEN"
        "Encryption mode requires a capabilityToken fingerprint: HAV returned a non-null tokenId but an empty fingerprint")
    return .required
  else return .off

/-- The transcript the responder builds. -/
def responderTranscript (options : HandshakeResponderOptions) (challenge : HandshakeChallenge)
    (offer : HandshakeChallengeEncryption) (negotiatedCapabilities : List String)
    (responderKey responseTimestamp principalDid : String)
    (capabilityTokenFingerprint : Option String) : TranscriptHashInput where
  protocolVersion := encryptionProtocolVersion
  initiatorDid := challenge.initiatorDid
  responderDid := options.responderDid
  initiatorCapabilities := challenge.initiatorCapabilities
  responderCapabilities := negotiatedCapabilities
  initiatorPreference := offer.preference
  responderPreference := options.encryptionPreference
  negotiatedEncryptionMode := .required
  initiatorEphemeralKey := offer.initiatorEphemeralPublicKey
  responderEphemeralKey := responderKey
  nonce := challenge.nonce
  initTimestamp := challenge.timestamp
  responseTimestamp := responseTimestamp
  authorizedPrincipalDid := principalDid
  authorizedTokenId := challenge.capabilityTokenId
  authorizedTokenFingerprint := capabilityTokenFingerprint.getD ""

/-- The key agreement of mode `REQUIRED`. A challenge without an offer cannot get here. -/
def agreeKeys (options : HandshakeResponderOptions) (challenge : HandshakeChallenge)
    (negotiatedCapabilities : List String) (secretKey : List UInt8)
    (responseTimestamp principalDid : String) (capabilityTokenFingerprint : Option String) :
    Except Fault (DerivedKeys × SecretAgreement) := do
  let some offer := challenge.encryption
    | throw (.error "Cannot read properties of undefined (reading 'initiatorEphemeralPublicKey')")
  let responderKey := Foundation.toHex (C.getPublicKey secretKey)
  let initiatorPublicKey ← decodeHex offer.initiatorEphemeralPublicKey
  require (initiatorPublicKey.any (· ≠ 0) = true) (protocolFault "INVALID_ENCRYPTION_OFFER"
    "initiatorEphemeralPublicKey is all zeros, suspected small-subgroup attack")
  let sharedSecret ← computeX25519SharedSecret C secretKey initiatorPublicKey
  let transcript := responderTranscript options challenge offer negotiatedCapabilities
    responderKey responseTimestamp principalDid capabilityTokenFingerprint
  let transcriptHash := computeTranscriptHash C transcript
  return (⟨offer.initiatorEphemeralPublicKey, responderKey, transcriptHash⟩,
    ⟨transcript, deriveSessionKeys C sharedSecret transcriptHash⟩)

/-- The encryption member of the response. -/
def encryptionForResponse (options : HandshakeResponderOptions)
    (initiatorPreference : EncryptionPreference) (derivedKeys : Option DerivedKeys)
    (capabilityTokenFingerprint : Option String) : Option HandshakeResponseEncryption :=
  match derivedKeys with
  | some keys =>
      some
        { negotiatedMode := .required
          responderPreference := options.encryptionPreference
          responderEphemeralPublicKey := some keys.responderEphemeralPublicKeyHex
          transcriptHashConfirmation := confirmation keys.transcriptHash
          authorizedTokenFingerprint := capabilityTokenFingerprint.filter (· ≠ "") }
  | none =>
      if initiatorPreference ≠ .off then
        some
          { negotiatedMode := .off
            responderPreference := options.encryptionPreference
            responderEphemeralPublicKey := none
            transcriptHashConfirmation := ""
            authorizedTokenFingerprint := none }
      else none

def HandshakeChallenge.initiatorPreference (challenge : HandshakeChallenge) :
    EncryptionPreference :=
  (challenge.encryption.map HandshakeChallengeEncryption.preference).getD .off

def negotiatedCapabilities (options : HandshakeResponderOptions)
    (challenge : HandshakeChallenge) : List String :=
  challenge.initiatorCapabilities.filter fun name => name ∈ options.capabilities

/-- The record of the session store. -/
def sessionRecord (options : HandshakeResponderOptions) (initiatorDid : String)
    (challenge : HandshakeChallenge) (capabilityTokenFingerprint : Option String)
    (sessionId : String) (mode : NegotiatedEncryptionMode) : SessionCreateInput where
  sessionId := sessionId
  initiatorDid := initiatorDid
  responderDid := options.responderDid
  principalDid := challenge.principalDid.getD initiatorDid
  capabilityTokenId := challenge.capabilityTokenId
  capabilityTokenFingerprint := capabilityTokenFingerprint
  negotiatedCapabilities := some (negotiatedCapabilities options challenge)
  encryptionState := some (if mode = .required then .required else .off)
  sessionKeyFingerprint := none
  initialState := some .active
  supersedesSessionId := none

def acceptedBody (options : HandshakeResponderOptions) (challenge : HandshakeChallenge)
    (capabilityTokenFingerprint : Option String) (keys : Option DerivedKeys)
    (answers : EstablishAnswers) : HandshakeAckBody where
  response :=
    { challengeId := challenge.challengeId
      sessionId := answers.sessionId
      responderDid := options.responderDid
      responderCapabilities := negotiatedCapabilities options challenge
      nonce := challenge.nonce
      timestamp := clockText answers.ack.responseNow
      encryption := encryptionForResponse options challenge.initiatorPreference keys
        capabilityTokenFingerprint }
  accepted := true
  reason := none

/-- The keys of the negotiated mode; `OFF` has none. -/
def keysFor (options : HandshakeResponderOptions) (initiatorDid : String)
    (challenge : HandshakeChallenge) (capabilityTokenFingerprint : Option String)
    (answers : EstablishAnswers) :
    NegotiatedEncryptionMode → Except Fault (Option (DerivedKeys × SecretAgreement))
  | .off => .ok none
  | .required => do
      let keys ← agreeKeys C options challenge (negotiatedCapabilities options challenge)
        answers.ephemeralSecretKey (clockText answers.ack.responseNow)
        (challenge.principalDid.getD initiatorDid) capabilityTokenFingerprint
      return some keys

/-- The session of an authorized challenge, and the body that announces it. -/
def establish (options : HandshakeResponderOptions) (initiatorDid : String)
    (challenge : HandshakeChallenge) (capabilityTokenFingerprint : Option String)
    (answers : EstablishAnswers) : Except Fault (Established × HandshakeAckBody) := do
  let mode ← negotiate challenge.initiatorPreference options.encryptionPreference
    challenge.capabilityTokenId capabilityTokenFingerprint
  let keys ← keysFor C options initiatorDid challenge capabilityTokenFingerprint answers mode
  let established : Established :=
    { record := sessionRecord options initiatorDid challenge capabilityTokenFingerprint
        answers.sessionId mode
      result :=
        { sessionId := answers.sessionId
          negotiatedCapabilities := negotiatedCapabilities options challenge
          encryption := keys.map fun keys => ⟨.required, some keys.1⟩ }
      nonce := challenge.nonce
      challengeId := challenge.challengeId
      agreement := keys.map Prod.snd }
  return (established, acceptedBody options challenge capabilityTokenFingerprint
    (keys.map Prod.fst) answers)

/-- `sessionStore.create`; whether it returned. -/
def createSession (answers : EstablishAnswers) (record : SessionCreateInput) : Bool :=
  match answers.create with
  | none => true
  | some create => (create record).toOption.isSome

/-- What `respond` leaves: the session it keeps, also when it then throws, and the
acknowledgement it returns. -/
structure RespondOutcome where
  established : Option Established
  ack : Except Fault NegotiationEnvelope

/-- The last part of `respond`, after the claim of the nonce. -/
def establishSession (options : HandshakeResponderOptions) (initiatorDid : String)
    (challenge : HandshakeChallenge) (answers : EstablishAnswers) : RespondOutcome :=
  match authorize answers ⟨initiatorDid, challenge.principalDid.getD initiatorDid,
      challenge.capabilityTokenId⟩ with
  | .error fault => ⟨none, .error fault⟩
  | .ok (.inl reason) => ⟨none, buildAck C options initiatorDid challenge reason answers.ack⟩
  | .ok (.inr capabilityTokenFingerprint) =>
      match establish C options initiatorDid challenge capabilityTokenFingerprint answers with
      | .error fault => ⟨none, .error fault⟩
      | .ok (established, body) =>
          if createSession answers established.record then
            ⟨some established,
              signAck C options initiatorDid (some answers.sessionId) body answers.ack⟩
          else
            ⟨none, buildAck C options initiatorDid challenge "Session persistence failed"
              answers.ack⟩

/-- The refusal of a nonce that was claimed before. -/
def refuseDuplicate (options : HandshakeResponderOptions) (initiatorDid : String)
    (challenge : HandshakeChallenge) (answers : AckAnswers) : Except Fault NegotiationEnvelope :=
  buildAck C options initiatorDid challenge "Duplicate nonce (suspected replay attack)" answers

structure RespondAnswers where
  onInit : AdmitAnswers
  claim : String → String → Except Fault Bool
  establish : EstablishAnswers

def respond (options : HandshakeResponderOptions) (init : NegotiationEnvelope)
    (answers : RespondAnswers) : RespondOutcome :=
  match admitInit C options init answers.onInit with
  | .error fault => ⟨none, .error fault⟩
  | .ok (.inl refusal) => ⟨none, .ok refusal⟩
  | .ok (.inr challenge) =>
      match answers.claim challenge.nonce challenge.expiresAt with
      | .error fault => ⟨none, .error fault⟩
      | .ok true => establishSession C options init.header.senderDid challenge answers.establish
      | .ok false =>
          ⟨none, refuseDuplicate C options init.header.senderDid challenge answers.establish.ack⟩

/-! ## What the parts do -/

section Parts

variable {C}

theorem signEnvelope_eq_ok {params : BuildEnvelopeParams} {id timestamp : String}
    {envelope : NegotiationEnvelope}
    (h : signEnvelope C.toEnvelopeCrypto params id timestamp = .ok envelope) :
    ∃ body signature, params.body = .ok body ∧
      C.sign (signedBytes C.toEnvelopeCrypto (signedPayload id params.effectiveSpecVersion
        params.header params.messageType body timestamp)) params.senderPrivateKey
        params.encoding = .ok signature ∧
      envelope = ⟨id, params.effectiveSpecVersion, params.header, params.messageType, body,
        timestamp, signature⟩ := by
  unfold signEnvelope at h
  dsimp only at h
  split at h
  next => cases h
  next body signature hsigned =>
    simp only [bind_eq_ok, pure_eq_ok, Prod.mk.injEq] at hsigned
    obtain ⟨body', hbody, signature', hsign, rfl, rfl⟩ := hsigned
    cases h
    exact ⟨_, _, hbody, hsign, rfl⟩

/-- What an attempt has sent, and what it keeps to check the answer. -/
theorem startHandshake_eq_ok {options : HandshakeInitiatorOptions} {params : InitiateParams}
    {answers : StartAnswers} {pending : PendingHandshake} {init : NegotiationEnvelope}
    (h : startHandshake C options params answers = .ok (pending, init)) :
    ∃ timestamp expiresAt,
      Calendar.toISOString answers.now = some timestamp ∧
      Calendar.toISOString (answers.now + options.challengeExpiryMs) = some expiresAt ∧
      pending.params = params ∧
      pending.ephemeral = (if options.encryptionPreference ≠ .off then
        some ⟨answers.ephemeralSecretKey,
          Foundation.toHex (C.getPublicKey answers.ephemeralSecretKey)⟩ else none) ∧
      pending.challenge =
        { challengeId := answers.challengeId
          initiatorDid := options.initiatorDid
          responderDid := params.responderDid
          nonce := answers.nonce
          timestamp := timestamp
          expiresAt := expiresAt
          initiatorCapabilities := options.capabilities
          principalDid := params.principalDid
          capabilityTokenId := params.capabilityTokenId
          resumeSessionId := none
          encryption := (pending.ephemeral.filter fun key => key.publicKeyHex ≠ "").map fun key =>
            ⟨options.encryptionPreference, key.publicKeyHex⟩ } ∧
      init.header.senderDid = options.initiatorDid ∧
      init.messageType = "HANDSHAKE_INIT" ∧
      init.body = [("challenge", pending.challenge.toJson)] := by
  unfold startHandshake at h
  dsimp only at h
  split at h
  next timestamp htimestamp =>
    split at h
    next expiresAt hexpires =>
      simp only [bind_eq_ok, pure_eq_ok] at h
      obtain ⟨init', hsign, heq⟩ := h
      obtain ⟨rfl, rfl⟩ := Prod.mk.inj heq
      obtain ⟨_, _, hbody, -, rfl⟩ := signEnvelope_eq_ok hsign
      cases hbody
      exact ⟨timestamp, expiresAt, htimestamp, hexpires, rfl, rfl, rfl, rfl, rfl, rfl⟩
    next => simp at h
  next => simp at h

/-- The verification of an envelope at a moment. -/
theorem verifyEnvelopeAt_eq_none {now : Int}
    {resolvePublicKey : String → Except Fault (Option String)} {envelope : NegotiationEnvelope} :
    verifyEnvelopeAt C now resolvePublicKey envelope = .ok none ↔
      envelope.specVersion ∈ supportedSpecVersions ∧
        withinClockSkew C.toEnvelopeCrypto envelope.timestamp now ∧
        ∃ publicKey, resolvePublicKey envelope.header.senderDid = .ok (some publicKey) ∧
          publicKey ≠ "" ∧
            verifyEnvelopeSignature C.toEnvelopeCrypto envelope publicKey = none := by
  have hclock : (pure now : Program Unit Empty Fault Int).run () = ⟨.ok now, (), []⟩ := rfl
  unfold verifyEnvelopeAt verifyEnvelope
  dsimp only
  rw [Program.run_bind_ok hclock]
  by_cases hversion : envelope.specVersion ∈ supportedSpecVersions
  · rw [if_neg (not_not.mpr hversion)]
    by_cases hskew : withinClockSkew C.toEnvelopeCrypto envelope.timestamp now
    · rw [if_neg (not_not.mpr hskew)]
      rw [Program.run_ofExcept_bind]
      cases resolvePublicKey envelope.header.senderDid with
      | error fault => simp [Execution.after]
      | ok publicKey =>
          cases publicKey with
          | none => simp [Execution.after, Program.run, pure]
          | some publicKey =>
              by_cases hempty : publicKey = ""
              · simp [Execution.after, Program.run, pure, Option.filter, hempty]
              · simp [Execution.after, Program.run, pure, Option.filter, hempty, hversion, hskew]
    · rw [if_pos hskew]
      simp [Execution.after, Program.run, pure, hskew]
  · rw [if_pos hversion]
    simp [Execution.after, Program.run, pure, hversion]

/-- What a signed acknowledgement says. -/
structure SaysAck (options : HandshakeResponderOptions) (recipientDid : String)
    (body : HandshakeAckBody) (envelope : NegotiationEnvelope) : Prop where
  senderDid : envelope.header.senderDid = options.responderDid
  recipientDid : envelope.header.recipientDid = recipientDid
  messageType : envelope.messageType = "HANDSHAKE_ACK"
  body : envelope.body = body.members

theorem signAck_says {options : HandshakeResponderOptions} {recipientDid : String}
    {sessionId : Option String} {body : HandshakeAckBody} {answers : AckAnswers}
    {envelope : NegotiationEnvelope}
    (h : signAck C options recipientDid sessionId body answers = .ok envelope) :
    SaysAck options recipientDid body envelope := by
  obtain ⟨_, _, hbody, -, rfl⟩ := signEnvelope_eq_ok h
  cases hbody
  exact ⟨rfl, rfl, rfl, rfl⟩

theorem buildAck_says {options : HandshakeResponderOptions} {recipientDid : String}
    {challenge : HandshakeChallenge} {reason : String} {answers : AckAnswers}
    {envelope : NegotiationEnvelope}
    (h : buildAck C options recipientDid challenge reason answers = .ok envelope) :
    ∃ body, body.accepted = false ∧ SaysAck options recipientDid body envelope :=
  ⟨_, rfl, signAck_says h⟩

/-- What the initiator has checked of an acknowledgement it goes on with. -/
theorem checkAck_eq_ok {pending : PendingHandshake} {envelope : NegotiationEnvelope}
    {answers : FinishAnswers} {ackBody : HandshakeAckBody} :
    checkAck C pending envelope answers = .ok ackBody ↔
      parseEnvelope envelope = .ok envelope ∧
      verifyEnvelopeAt C answers.now answers.resolvePublicKey envelope = .ok none ∧
      envelope.messageType = "HANDSHAKE_ACK" ∧
      envelope.header.senderDid = pending.params.responderDid ∧
      Schema.handshakeAckBody (.obj envelope.body) = some ackBody ∧
      ackBody.accepted = true ∧
      ackBody.response.nonce = pending.challenge.nonce ∧
      ackBody.response.challengeId = pending.challenge.challengeId ∧
      ackBody.response.responderDid = pending.params.responderDid := by
  simp only [checkAck, bind_eq_ok, exists_unit, require_eq_ok, refuse_eq_ok]
  constructor
  · rintro ⟨parsed, hparse, reason, hverify, htype, rfl, hsender, hrest⟩
    obtain rfl := parseEnvelope_eq hparse
    split at hrest
    next => simp at hrest
    next body hbody =>
      simp only [bind_eq_ok, exists_unit, require_eq_ok, pure_eq_ok] at hrest
      obtain ⟨haccepted, hnonce, hchallenge, hresponder, rfl⟩ := hrest
      exact ⟨hparse, hverify, htype, hsender, hbody, haccepted, hnonce, hchallenge, hresponder⟩
  · rintro ⟨hparse, hverify, htype, hsender, hbody, haccepted, hnonce, hchallenge, hresponder⟩
    refine ⟨envelope, hparse, none, hverify, htype, rfl, hsender, ?_⟩
    simp only [hbody, bind_eq_ok, exists_unit, require_eq_ok, pure_eq_ok]
    exact ⟨haccepted, hnonce, hchallenge, hresponder, trivial⟩

/-- What the responder has checked of a challenge it admits. -/
theorem checkInit_eq_ok {options : HandshakeResponderOptions} {init : NegotiationEnvelope}
    {answers : AdmitAnswers} {challenge : HandshakeChallenge}
    (h : checkInit C options init answers = .ok challenge) :
    init.messageType = "HANDSHAKE_INIT" ∧ parseEnvelope init = .ok init ∧
      Schema.handshakeChallenge ((lookupList "challenge" init.body).getD .null) =
        some challenge ∧
      verifyEnvelopeAt C answers.now answers.resolvePublicKey init = .ok none ∧
      challenge.initiatorDid = init.header.senderDid ∧
      challenge.responderDid = options.responderDid := by
  simp only [checkInit, bind_eq_ok, exists_unit, require_eq_ok] at h
  obtain ⟨htype, parsed, hparse, hrest⟩ := h
  obtain rfl := parseEnvelope_eq hparse
  split at hrest
  next => simp at hrest
  next body hbody =>
    simp only [bind_eq_ok, exists_unit, require_eq_ok, refuse_eq_ok, pure_eq_ok] at hrest
    obtain ⟨reason, hverify, rfl, hinitiator, hresponder, rfl⟩ := hrest
    exact ⟨htype, hparse, hbody, hverify, hinitiator, hresponder⟩

/-- The first part of `respond` refuses, or admits a challenge it has checked. -/
theorem admitInit_eq_ok {options : HandshakeResponderOptions} {init : NegotiationEnvelope}
    {answers : AdmitAnswers} {outcome : NegotiationEnvelope ⊕ HandshakeChallenge}
    (h : admitInit C options init answers = .ok outcome) :
    ∃ challenge, checkInit C options init answers = .ok challenge ∧
      (outcome = .inr challenge ∨ ∃ reason refusal, outcome = .inl refusal ∧
        buildAck C options init.header.senderDid challenge reason answers.ack = .ok refusal) := by
  simp only [admitInit, bind_eq_ok] at h
  obtain ⟨challenge, hcheck, hrest⟩ := h
  refine ⟨challenge, hcheck, ?_⟩
  split at hrest
  next =>
    simp only [bind_eq_ok, pure_eq_ok] at hrest
    obtain ⟨refusal, hrefusal, rfl⟩ := hrest
    exact Or.inr ⟨_, refusal, rfl, hrefusal⟩
  next =>
    simp only [bind_eq_ok] at hrest
    obtain ⟨authorized, -, hrest⟩ := hrest
    split at hrest
    next =>
      obtain rfl := pure_eq_ok.mp hrest
      exact Or.inl rfl
    next =>
      simp only [bind_eq_ok, pure_eq_ok] at hrest
      obtain ⟨refusal, hrefusal, rfl⟩ := hrest
      exact Or.inr ⟨_, refusal, rfl, hrefusal⟩

theorem establish_eq_ok {options : HandshakeResponderOptions} {initiatorDid : String}
    {challenge : HandshakeChallenge} {fingerprint : Option String} {answers : EstablishAnswers}
    {established : Established} {body : HandshakeAckBody}
    (h : establish C options initiatorDid challenge fingerprint answers =
      .ok (established, body)) :
    ∃ mode keys,
      negotiate challenge.initiatorPreference options.encryptionPreference
        challenge.capabilityTokenId fingerprint = .ok mode ∧
      keysFor C options initiatorDid challenge fingerprint answers mode = .ok keys ∧
      established =
        { record := sessionRecord options initiatorDid challenge fingerprint answers.sessionId mode
          result := ⟨answers.sessionId, negotiatedCapabilities options challenge,
            keys.map fun keys => ⟨.required, some keys.1⟩⟩
          nonce := challenge.nonce
          challengeId := challenge.challengeId
          agreement := keys.map Prod.snd } ∧
      body = acceptedBody options challenge fingerprint (keys.map Prod.fst) answers := by
  simp only [establish, bind_eq_ok, pure_eq_ok, Prod.mk.injEq] at h
  obtain ⟨mode, hmode, keys, hkeys, hestablished, hbody⟩ := h
  exact ⟨mode, keys, hmode, hkeys, hestablished.symm, hbody.symm⟩

/-- The key agreement of the responder: the transcript it hashes and the keys it derives. -/
theorem agreeKeys_eq_ok {options : HandshakeResponderOptions} {challenge : HandshakeChallenge}
    {capabilities : List String} {secretKey : List UInt8}
    {responseTimestamp principalDid : String} {fingerprint : Option String}
    {keys : DerivedKeys × SecretAgreement}
    (h : agreeKeys C options challenge capabilities secretKey responseTimestamp principalDid
      fingerprint = .ok keys) :
    ∃ offer initiatorKey sharedSecret,
      challenge.encryption = some offer ∧
      fromHex offer.initiatorEphemeralPublicKey.toList = some initiatorKey ∧
      C.getSharedSecret secretKey initiatorKey = .ok sharedSecret ∧
      keys.2.transcript = responderTranscript options challenge offer capabilities
        (Foundation.toHex (C.getPublicKey secretKey)) responseTimestamp principalDid fingerprint ∧
      keys.2.sessionKeys = deriveSessionKeys C sharedSecret
        (computeTranscriptHash C keys.2.transcript) ∧
      keys.1 = ⟨offer.initiatorEphemeralPublicKey, Foundation.toHex (C.getPublicKey secretKey),
        computeTranscriptHash C keys.2.transcript⟩ := by
  unfold agreeKeys at h
  split at h
  next offer hoffer =>
    simp only [bind_eq_ok, exists_unit, require_eq_ok, pure_eq_ok] at h
    obtain ⟨initiatorKey, hdecode, -, sharedSecret, hsecret, rfl⟩ := h
    refine ⟨offer, initiatorKey, sharedSecret, hoffer, ?_, ?_, rfl, rfl, rfl⟩
    · unfold decodeHex at hdecode
      split at hdecode
      next bytes hbytes => exact hbytes.trans (congrArg some (Except.ok.inj hdecode))
      next => cases hdecode
    · unfold computeX25519SharedSecret at hsecret
      split at hsecret
      next secret hok => exact hok.trans (congrArg Except.ok (Except.ok.inj hsecret))
      next => cases hsecret
  next => simp at h

theorem keysFor_eq_ok {options : HandshakeResponderOptions} {initiatorDid : String}
    {challenge : HandshakeChallenge} {fingerprint : Option String} {answers : EstablishAnswers}
    {mode : NegotiatedEncryptionMode} {keys : Option (DerivedKeys × SecretAgreement)}
    (h : keysFor C options initiatorDid challenge fingerprint answers mode = .ok keys) :
    mode = .off ∧ keys = none ∨ mode = .required ∧ ∃ derived, keys = some derived ∧
      agreeKeys C options challenge (negotiatedCapabilities options challenge)
        answers.ephemeralSecretKey (clockText answers.ack.responseNow)
        (challenge.principalDid.getD initiatorDid) fingerprint = .ok derived := by
  cases mode with
  | off =>
      cases h
      exact Or.inl ⟨rfl, rfl⟩
  | required =>
      simp only [keysFor, bind_eq_ok, pure_eq_ok] at h
      obtain ⟨derived, hderived, rfl⟩ := h
      exact Or.inr ⟨rfl, derived, rfl, hderived⟩

/-- The last part of `respond` keeps no session and refuses or throws, or it keeps the
session that its acknowledgement announces. -/
theorem establishSession_cases (options : HandshakeResponderOptions) (initiatorDid : String)
    (challenge : HandshakeChallenge) (answers : EstablishAnswers) :
    let outcome := establishSession C options initiatorDid challenge answers
    (outcome.established = none ∧ ∀ ack, outcome.ack = .ok ack →
      ∃ body, body.accepted = false ∧ SaysAck options initiatorDid body ack) ∨
    ∃ fingerprint established body,
      establish C options initiatorDid challenge fingerprint answers = .ok (established, body) ∧
      outcome.established = some established ∧
      outcome.ack = signAck C options initiatorDid (some answers.sessionId) body answers.ack := by
  intro outcome
  have houtcome : outcome = establishSession C options initiatorDid challenge answers := rfl
  unfold establishSession at houtcome
  split at houtcome
  next =>
    rw [houtcome]
    exact Or.inl ⟨rfl, nofun⟩
  next =>
    rw [houtcome]
    exact Or.inl ⟨rfl, fun ack hack => buildAck_says hack⟩
  next fingerprint _ =>
    split at houtcome
    next =>
      rw [houtcome]
      exact Or.inl ⟨rfl, nofun⟩
    next established body hestablish =>
      split at houtcome
      next =>
        rw [houtcome]
        exact Or.inr ⟨fingerprint, established, body, hestablish, rfl, rfl⟩
      next =>
        rw [houtcome]
        exact Or.inl ⟨rfl, fun ack hack => buildAck_says hack⟩

end Parts

end Coivitas.Communication
