import Coivitas.Foundation.JsonReader
import Coivitas.Types.Schema

/-! # Bodies of handshake messages

The model of `packages/communication/src/handshake/types.ts` and of the schemas
`handshakeChallenge`, `handshakeResponse` and `handshakeAckBody`. A schema is a
reader: it accepts a JSON value by returning the record it spells. What is written
is read back, and what is read is well formed.
-/

namespace Coivitas.Communication

open Foundation Coivitas.Types OrderedMap

/-! ## Records -/

inductive EncryptionPreference where
  | off
  | optIn
  | required
  deriving DecidableEq, Repr

def EncryptionPreference.text : EncryptionPreference → String
  | .off => "OFF"
  | .optIn => "OPT_IN"
  | .required => "REQUIRED"

def EncryptionPreference.ofText (text : String) : Option EncryptionPreference :=
  [.off, .optIn, .required].find? fun preference => preference.text = text

inductive NegotiatedEncryptionMode where
  | off
  | required
  deriving DecidableEq, Repr

def NegotiatedEncryptionMode.text : NegotiatedEncryptionMode → String
  | .off => "OFF"
  | .required => "REQUIRED"

def NegotiatedEncryptionMode.ofText (text : String) : Option NegotiatedEncryptionMode :=
  [.off, .required].find? fun mode => mode.text = text

def encryptionProtocolVersion : String := "ap/e2e/v1"

structure HandshakeChallengeEncryption where
  preference : EncryptionPreference
  initiatorEphemeralPublicKey : String
  deriving DecidableEq

structure HandshakeChallenge where
  challengeId : String
  initiatorDid : String
  responderDid : String
  nonce : String
  timestamp : String
  expiresAt : String
  initiatorCapabilities : List String
  principalDid : Option String
  capabilityTokenId : Option String
  resumeSessionId : Option String
  encryption : Option HandshakeChallengeEncryption
  deriving DecidableEq

structure HandshakeResponseEncryption where
  negotiatedMode : NegotiatedEncryptionMode
  responderPreference : EncryptionPreference
  responderEphemeralPublicKey : Option String
  transcriptHashConfirmation : String
  authorizedTokenFingerprint : Option String
  deriving DecidableEq

structure HandshakeResponse where
  challengeId : String
  sessionId : String
  responderDid : String
  responderCapabilities : List String
  nonce : String
  timestamp : String
  encryption : Option HandshakeResponseEncryption
  deriving DecidableEq

structure HandshakeAckBody where
  response : HandshakeResponse
  accepted : Bool
  reason : Option String
  deriving DecidableEq

/-! ## Writing -/

def HandshakeChallengeEncryption.toJson (encryption : HandshakeChallengeEncryption) : Json :=
  .obj [("preference", .str encryption.preference.text),
    ("initiatorEphemeralPublicKey", .str encryption.initiatorEphemeralPublicKey),
    ("encryptionProtocolVersion", .str encryptionProtocolVersion)]

def HandshakeChallenge.members (challenge : HandshakeChallenge) : List (String × Json) :=
  ([("challengeId", .str challenge.challengeId), ("initiatorDid", .str challenge.initiatorDid),
    ("responderDid", .str challenge.responderDid), ("nonce", .str challenge.nonce),
    ("timestamp", .str challenge.timestamp), ("expiresAt", .str challenge.expiresAt),
    ("initiatorCapabilities", .arr (challenge.initiatorCapabilities.map .str))] :
      List (String × Json)) ++
    optionalMember "principalDid" (challenge.principalDid.map .str) ++
    optionalMember "capabilityTokenId" (challenge.capabilityTokenId.map .str) ++
    optionalMember "resumeSessionId" (challenge.resumeSessionId.map .str) ++
    optionalMember "encryption" (challenge.encryption.map HandshakeChallengeEncryption.toJson)

def HandshakeChallenge.toJson (challenge : HandshakeChallenge) : Json := .obj challenge.members

def HandshakeResponseEncryption.members (encryption : HandshakeResponseEncryption) :
    List (String × Json) :=
  ([("negotiatedMode", .str encryption.negotiatedMode.text),
    ("responderPreference", .str encryption.responderPreference.text)] : List (String × Json)) ++
    optionalMember "responderEphemeralPublicKey"
      (encryption.responderEphemeralPublicKey.map .str) ++
    ([("encryptionProtocolVersion", .str encryptionProtocolVersion),
      ("transcriptHashConfirmation", .str encryption.transcriptHashConfirmation)] :
        List (String × Json)) ++
    optionalMember "authorizedTokenFingerprint" (encryption.authorizedTokenFingerprint.map .str)

def HandshakeResponseEncryption.toJson (encryption : HandshakeResponseEncryption) : Json :=
  .obj encryption.members

def HandshakeResponse.members (response : HandshakeResponse) : List (String × Json) :=
  ([("challengeId", .str response.challengeId), ("sessionId", .str response.sessionId),
    ("responderDid", .str response.responderDid),
    ("responderCapabilities", .arr (response.responderCapabilities.map .str)),
    ("nonce", .str response.nonce), ("timestamp", .str response.timestamp)] :
      List (String × Json)) ++
    optionalMember "encryption" (response.encryption.map HandshakeResponseEncryption.toJson)

def HandshakeResponse.toJson (response : HandshakeResponse) : Json := .obj response.members

def HandshakeAckBody.members (body : HandshakeAckBody) : List (String × Json) :=
  [("response", body.response.toJson), ("accepted", .bool body.accepted)] ++
    optionalMember "reason" (body.reason.map .str)

/-! ## Reading -/

/-- `^[0-9a-f]{64}$` or `^[A-Za-z0-9_-]{43}$` -/
def isHash (text : String) : Bool :=
  text.toList.length == 64 && text.toList.all isLowerHex ||
    text.toList.length == 43 && text.toList.all isBase64UrlChar

def isCapabilityName (text : String) : Bool := businessActionVocabulary.contains text

namespace Schema

open JsonReader Fields

def uuid : JsonReader String := text fun s => isUuid s.toList
def didAgent : JsonReader String := text fun s => isDidAgentText s.toList
def didKey : JsonReader String := text fun s => isDidKeyText s.toList
def hash : JsonReader String := text isHash
def timestamp : JsonReader String := text Calendar.isIsoText
def capabilityTokenId : JsonReader String := text isCapabilityTokenId
def capabilities : JsonReader (List String) := list (text isCapabilityName)
def nonempty : JsonReader String := text (· ≠ "")
def anyText : JsonReader String := text fun _ => true
def protocolVersion : JsonReader String := text (· = encryptionProtocolVersion)

def challengeEncryption : JsonReader HandshakeChallengeEncryption :=
  object ["preference", "initiatorEphemeralPublicKey", "encryptionProtocolVersion"] do
    let preference ← Fields.required "preference"
      (choice fun s => (EncryptionPreference.ofText s).filter (· ≠ .off))
    let initiatorEphemeralPublicKey ← Fields.required "initiatorEphemeralPublicKey" nonempty
    let _ ← Fields.required "encryptionProtocolVersion" protocolVersion
    return ⟨preference, initiatorEphemeralPublicKey⟩

def handshakeChallenge : JsonReader HandshakeChallenge :=
  object ["challengeId", "initiatorDid", "responderDid", "principalDid", "nonce", "timestamp",
      "expiresAt", "initiatorCapabilities", "resumeSessionId", "capabilityTokenId",
      "encryption"] do
    let challengeId ← Fields.required "challengeId" uuid
    let initiatorDid ← Fields.required "initiatorDid" didAgent
    let responderDid ← Fields.required "responderDid" didAgent
    let principalDid ← optional "principalDid" didKey
    let nonce ← Fields.required "nonce" hash
    let timestamp ← Fields.required "timestamp" timestamp
    let expiresAt ← Fields.required "expiresAt" Schema.timestamp
    let initiatorCapabilities ← Fields.required "initiatorCapabilities" capabilities
    let resumeSessionId ← optional "resumeSessionId" nonempty
    let capabilityTokenId ← optional "capabilityTokenId" capabilityTokenId
    let encryption ← optional "encryption" challengeEncryption
    return ⟨challengeId, initiatorDid, responderDid, nonce, timestamp, expiresAt,
      initiatorCapabilities, principalDid, capabilityTokenId, resumeSessionId, encryption⟩

def responseEncryption : JsonReader HandshakeResponseEncryption :=
  object ["negotiatedMode", "responderPreference", "responderEphemeralPublicKey",
      "encryptionProtocolVersion", "transcriptHashConfirmation",
      "authorizedTokenFingerprint"] do
    let negotiatedMode ← Fields.required "negotiatedMode" (choice NegotiatedEncryptionMode.ofText)
    let responderPreference ← Fields.required "responderPreference" (choice EncryptionPreference.ofText)
    let responderEphemeralPublicKey ← optional "responderEphemeralPublicKey" nonempty
    let _ ← Fields.required "encryptionProtocolVersion" protocolVersion
    let transcriptHashConfirmation ← Fields.required "transcriptHashConfirmation" anyText
    let authorizedTokenFingerprint ← optional "authorizedTokenFingerprint" nonempty
    return ⟨negotiatedMode, responderPreference, responderEphemeralPublicKey,
      transcriptHashConfirmation, authorizedTokenFingerprint⟩

/-- The schema also knows a token id, which no code reads. -/
def handshakeResponse : JsonReader HandshakeResponse :=
  object ["challengeId", "sessionId", "responderDid", "responderCapabilities", "nonce",
      "timestamp", "capabilityTokenId", "encryption"] do
    let challengeId ← Fields.required "challengeId" uuid
    let sessionId ← Fields.required "sessionId" anyText
    let responderDid ← Fields.required "responderDid" didAgent
    let responderCapabilities ← Fields.required "responderCapabilities" capabilities
    let nonce ← Fields.required "nonce" hash
    let timestamp ← Fields.required "timestamp" timestamp
    let _ ← optional "capabilityTokenId" capabilityTokenId
    let encryption ← optional "encryption" responseEncryption
    return ⟨challengeId, sessionId, responderDid, responderCapabilities, nonce, timestamp,
      encryption⟩

/-- An accepted body names its session. -/
def handshakeAckBody : JsonReader HandshakeAckBody :=
  object ["accepted", "response", "reason"] do
    let accepted ← Fields.required "accepted" flag
    let response ← Fields.required "response" handshakeResponse
    let reason ← optional "reason" anyText
    check (!accepted || response.sessionId ≠ "")
    return ⟨response, accepted, reason⟩

end Schema

/-! ## What is written is read back -/

@[simp] theorem EncryptionPreference.ofText_text (preference : EncryptionPreference) :
    EncryptionPreference.ofText preference.text = some preference := by
  cases preference <;> decide

@[simp] theorem NegotiatedEncryptionMode.ofText_text (mode : NegotiatedEncryptionMode) :
    NegotiatedEncryptionMode.ofText mode.text = some mode := by
  cases mode <;> decide

theorem lookup_optionalMember_append (name name' : String) (value : Option Json)
    (rest : List (String × Json)) :
    lookupList name (optionalMember name' value ++ rest) =
      if name' = name then value.or (lookupList name rest) else lookupList name rest := by
  cases value with
  | none => simp [optionalMember]
  | some value => simp [optionalMember, JsonReader.lookup_cons]

theorem lookup_optionalMember (name name' : String) (value : Option Json) :
    lookupList name (optionalMember name' value) = if name' = name then value else none := by
  cases value with
  | none => simp [optionalMember, JsonReader.lookup_nil]
  | some value => simp [optionalMember, JsonReader.lookup_cons, JsonReader.lookup_nil]

theorem names_optionalMember (name : String) (value : Option Json) :
    ((optionalMember name value).map Prod.fst).Sublist [name] := by
  cases value with
  | none => exact List.nil_sublist _
  | some value => exact List.Sublist.refl _

structure HandshakeChallengeEncryption.WellFormed (e : HandshakeChallengeEncryption) : Prop where
  preference : e.preference ≠ .off
  initiatorEphemeralPublicKey : e.initiatorEphemeralPublicKey ≠ ""

structure HandshakeChallenge.WellFormed (c : HandshakeChallenge) : Prop where
  challengeId : isUuid c.challengeId.toList = true
  initiatorDid : isDidAgentText c.initiatorDid.toList = true
  responderDid : isDidAgentText c.responderDid.toList = true
  principalDid : ∀ did ∈ c.principalDid, isDidKeyText did.toList = true
  nonce : isHash c.nonce = true
  timestamp : Calendar.isIsoText c.timestamp = true
  expiresAt : Calendar.isIsoText c.expiresAt = true
  initiatorCapabilities : ∀ name ∈ c.initiatorCapabilities, isCapabilityName name = true
  resumeSessionId : ∀ sessionId ∈ c.resumeSessionId, sessionId ≠ ""
  capabilityTokenId : ∀ tokenId ∈ c.capabilityTokenId, isCapabilityTokenId tokenId = true
  encryption : ∀ e ∈ c.encryption, e.WellFormed

structure HandshakeResponseEncryption.WellFormed (e : HandshakeResponseEncryption) : Prop where
  responderEphemeralPublicKey : ∀ key ∈ e.responderEphemeralPublicKey, key ≠ ""
  authorizedTokenFingerprint : ∀ fingerprint ∈ e.authorizedTokenFingerprint, fingerprint ≠ ""

structure HandshakeResponse.WellFormed (r : HandshakeResponse) : Prop where
  challengeId : isUuid r.challengeId.toList = true
  responderDid : isDidAgentText r.responderDid.toList = true
  responderCapabilities : ∀ name ∈ r.responderCapabilities, isCapabilityName name = true
  nonce : isHash r.nonce = true
  timestamp : Calendar.isIsoText r.timestamp = true
  encryption : ∀ e ∈ r.encryption, e.WellFormed

structure HandshakeAckBody.WellFormed (b : HandshakeAckBody) : Prop where
  response : b.response.WellFormed
  sessionId : b.accepted = true → b.response.sessionId ≠ ""

theorem HandshakeChallenge.names (c : HandshakeChallenge) :
    (c.members.map Prod.fst).Sublist
      (["challengeId", "initiatorDid", "responderDid", "nonce", "timestamp", "expiresAt",
        "initiatorCapabilities"] ++ ["principalDid"] ++ ["capabilityTokenId"] ++
        ["resumeSessionId"] ++ ["encryption"]) := by
  simp only [HandshakeChallenge.members, List.map_append]
  exact ((((List.Sublist.refl _).append (names_optionalMember _ _)).append
    (names_optionalMember _ _)).append (names_optionalMember _ _)).append
    (names_optionalMember _ _)

theorem HandshakeResponseEncryption.names (e : HandshakeResponseEncryption) :
    (e.members.map Prod.fst).Sublist
      (["negotiatedMode", "responderPreference"] ++ ["responderEphemeralPublicKey"] ++
        ["encryptionProtocolVersion", "transcriptHashConfirmation"] ++
        ["authorizedTokenFingerprint"]) := by
  simp only [HandshakeResponseEncryption.members, List.map_append]
  exact (((List.Sublist.refl _).append (names_optionalMember _ _)).append
    (List.Sublist.refl _)).append (names_optionalMember _ _)

theorem HandshakeResponse.names (r : HandshakeResponse) :
    (r.members.map Prod.fst).Sublist
      (["challengeId", "sessionId", "responderDid", "responderCapabilities", "nonce",
        "timestamp"] ++ ["encryption"]) := by
  simp only [HandshakeResponse.members, List.map_append]
  exact (List.Sublist.refl _).append (names_optionalMember _ _)

theorem HandshakeAckBody.names (b : HandshakeAckBody) :
    (b.members.map Prod.fst).Sublist (["response", "accepted"] ++ ["reason"]) := by
  simp only [HandshakeAckBody.members, List.map_append]
  exact (List.Sublist.refl _).append (names_optionalMember _ _)

namespace Schema

open JsonReader

theorem inverts_nonempty : Inverts nonempty Json.str (· ≠ "") := by
  intro s t
  rw [nonempty, inverts_text _ s t]
  simp

theorem inverts_anyText : Inverts anyText Json.str fun _ => True := by
  intro s t
  rw [anyText, inverts_text _ s t]
  simp

theorem protocolVersion_str :
    protocolVersion (.str encryptionProtocolVersion) = some encryptionProtocolVersion :=
  (inverts_text _ _ _).mpr ⟨by decide, rfl⟩

theorem inverts_offeredPreference :
    Inverts (choice fun s => (EncryptionPreference.ofText s).filter (· ≠ .off))
      (fun preference => .str preference.text) (· ≠ .off) := by
  refine inverts_choice ?_
  intro a b
  rw [EncryptionPreference.ofText_text]
  cases a <;> cases b <;> decide

theorem inverts_preference :
    Inverts (choice EncryptionPreference.ofText) (fun preference => .str preference.text)
      fun _ => True := by
  refine inverts_choice ?_
  intro a b
  rw [EncryptionPreference.ofText_text, Option.some.injEq, true_and]
  exact eq_comm

theorem inverts_negotiatedMode :
    Inverts (choice NegotiatedEncryptionMode.ofText) (fun mode => .str mode.text)
      fun _ => True := by
  refine inverts_choice ?_
  intro a b
  rw [NegotiatedEncryptionMode.ofText_text, Option.some.injEq, true_and]
  exact eq_comm

theorem inverts_challengeEncryption :
    Inverts challengeEncryption HandshakeChallengeEncryption.toJson
      HandshakeChallengeEncryption.WellFormed := by
  intro e e'
  rw [challengeEncryption, HandshakeChallengeEncryption.toJson, object_obj (by simp) (by simp)]
  simp only [Fields.run_bind_eq_some, Fields.run_required, Fields.run_pure_eq_some, lookup_cons,
    String.reduceEq, if_true, if_false, Option.bind_some, inverts_offeredPreference _ _,
    inverts_nonempty _ _, protocolVersion_str, Option.some.injEq]
  constructor
  · rintro ⟨_, ⟨hpreference, rfl⟩, _, ⟨hkey, rfl⟩, _, -, rfl⟩
    exact ⟨⟨hpreference, hkey⟩, rfl⟩
  · rintro ⟨⟨hpreference, hkey⟩, rfl⟩
    exact ⟨_, ⟨hpreference, rfl⟩, _, ⟨hkey, rfl⟩, _, rfl, rfl⟩

theorem inverts_handshakeChallenge :
    Inverts handshakeChallenge HandshakeChallenge.toJson HandshakeChallenge.WellFormed := by
  intro c c'
  rw [handshakeChallenge, HandshakeChallenge.toJson, object_of_sublist c.names (by simp) (by simp)]
  simp only [HandshakeChallenge.members, Fields.run_bind_eq_some, Fields.run_required,
    Fields.run_optional, Fields.run_pure_eq_some, List.cons_append, List.nil_append, List.append_assoc, lookup_cons,
    lookup_optionalMember_append, lookup_optionalMember, String.reduceEq, if_true, if_false,
    Option.or_none, Option.bind_some, uuid, didAgent, didKey, hash, timestamp, capabilityTokenId,
    capabilities, inverts_text _ _ _, inverts_list (inverts_text _) _ _,
    optionally_map_eq_some (inverts_text _), optionally_map_eq_some inverts_nonempty,
    optionally_map_eq_some inverts_challengeEncryption]
  constructor
  · rintro ⟨_, ⟨hid, rfl⟩, _, ⟨hinitiator, rfl⟩, _, ⟨hresponder, rfl⟩, _, ⟨hprincipal, rfl⟩, _,
      ⟨hnonce, rfl⟩, _, ⟨htimestamp, rfl⟩, _, ⟨hexpires, rfl⟩, _, ⟨hcapabilities, rfl⟩, _,
      ⟨hresume, rfl⟩, _, ⟨htoken, rfl⟩, _, ⟨hencryption, rfl⟩, rfl⟩
    exact ⟨⟨hid, hinitiator, hresponder, hprincipal, hnonce, htimestamp, hexpires, hcapabilities,
      hresume, htoken, hencryption⟩, rfl⟩
  · rintro ⟨h, rfl⟩
    exact ⟨_, ⟨h.challengeId, rfl⟩, _, ⟨h.initiatorDid, rfl⟩, _, ⟨h.responderDid, rfl⟩, _,
      ⟨h.principalDid, rfl⟩, _, ⟨h.nonce, rfl⟩, _, ⟨h.timestamp, rfl⟩, _, ⟨h.expiresAt, rfl⟩, _,
      ⟨h.initiatorCapabilities, rfl⟩, _, ⟨h.resumeSessionId, rfl⟩, _, ⟨h.capabilityTokenId, rfl⟩,
      _, ⟨h.encryption, rfl⟩, rfl⟩

theorem inverts_responseEncryption :
    Inverts responseEncryption HandshakeResponseEncryption.toJson
      HandshakeResponseEncryption.WellFormed := by
  intro e e'
  rw [responseEncryption, HandshakeResponseEncryption.toJson,
    object_of_sublist e.names (by simp) (by simp)]
  simp only [HandshakeResponseEncryption.members, Fields.run_bind_eq_some, Fields.run_required,
    Fields.run_optional, Fields.run_pure_eq_some, List.cons_append, List.nil_append, List.append_assoc, lookup_cons,
    lookup_optionalMember_append, lookup_optionalMember, String.reduceEq, if_true, if_false,
    Option.or_none, Option.bind_some, inverts_negotiatedMode _ _, inverts_preference _ _,
    inverts_anyText _ _, protocolVersion_str, optionally_map_eq_some inverts_nonempty, true_and,
    Option.some.injEq]
  constructor
  · rintro ⟨_, rfl, _, rfl, _, ⟨hkey, rfl⟩, _, -, _, rfl, _, ⟨hfingerprint, rfl⟩, rfl⟩
    exact ⟨⟨hkey, hfingerprint⟩, rfl⟩
  · rintro ⟨h, rfl⟩
    exact ⟨_, rfl, _, rfl, _, ⟨h.responderEphemeralPublicKey, rfl⟩, _, rfl, _, rfl, _,
      ⟨h.authorizedTokenFingerprint, rfl⟩, rfl⟩

theorem inverts_handshakeResponse :
    Inverts handshakeResponse HandshakeResponse.toJson HandshakeResponse.WellFormed := by
  intro r r'
  rw [handshakeResponse, HandshakeResponse.toJson, object_of_sublist r.names (by simp) (by simp)]
  simp only [HandshakeResponse.members, Fields.run_bind_eq_some, Fields.run_required,
    Fields.run_optional, Fields.run_pure_eq_some, List.cons_append, List.nil_append, lookup_cons,
    lookup_optionalMember, String.reduceEq, if_true, if_false, Option.bind_some, uuid, didAgent,
    hash, timestamp, capabilities, inverts_text _ _ _, inverts_anyText _ _,
    inverts_list (inverts_text _) _ _, optionally_map_eq_some inverts_responseEncryption,
    optionally_none, true_and, Option.some.injEq]
  constructor
  · rintro ⟨_, ⟨hid, rfl⟩, _, rfl, _, ⟨hresponder, rfl⟩, _, ⟨hcapabilities, rfl⟩, _,
      ⟨hnonce, rfl⟩, _, ⟨htimestamp, rfl⟩, _, -, _, ⟨hencryption, rfl⟩, rfl⟩
    exact ⟨⟨hid, hresponder, hcapabilities, hnonce, htimestamp, hencryption⟩, rfl⟩
  · rintro ⟨h, rfl⟩
    exact ⟨_, ⟨h.challengeId, rfl⟩, _, rfl, _, ⟨h.responderDid, rfl⟩, _,
      ⟨h.responderCapabilities, rfl⟩, _, ⟨h.nonce, rfl⟩, _, ⟨h.timestamp, rfl⟩, _, rfl, _,
      ⟨h.encryption, rfl⟩, rfl⟩

theorem inverts_handshakeAckBody :
    Inverts handshakeAckBody (fun body => .obj body.members) HandshakeAckBody.WellFormed := by
  intro b b'
  dsimp only
  rw [handshakeAckBody, object_of_sublist b.names (by simp) (by simp)]
  simp only [HandshakeAckBody.members, Fields.run_bind_eq_some, Fields.run_required,
    Fields.run_optional, Fields.run_pure_eq_some, Fields.run_check_eq_some, List.cons_append, List.nil_append,
    lookup_cons, lookup_optionalMember, String.reduceEq, if_true, if_false, Option.bind_some,
    inverts_flag _ _, inverts_handshakeResponse _ _, optionally_map_eq_some inverts_anyText,
    true_and]
  constructor
  · rintro ⟨_, rfl, _, ⟨hresponse, rfl⟩, _, ⟨-, rfl⟩, _, hsession, rfl⟩
    refine ⟨⟨hresponse, ?_⟩, rfl⟩
    intro haccepted
    simpa [haccepted] using hsession
  · rintro ⟨h, rfl⟩
    refine ⟨_, rfl, _, ⟨h.response, rfl⟩, _, ⟨by simp, rfl⟩, (), ?_, rfl⟩
    cases haccepted : b'.accepted with
    | false => rfl
    | true => simp [h.sessionId haccepted]

/-! ## Member order does not matter -/

theorem stable_responseEncryption : Stable responseEncryption :=
  stable_object _ <|
    (Fields.stable_required _ (stable_choice _)).bind fun _ =>
    (Fields.stable_required _ (stable_choice _)).bind fun _ =>
    (Fields.stable_optional _ (stable_text _)).bind fun _ =>
    (Fields.stable_required _ (stable_text _)).bind fun _ =>
    (Fields.stable_required _ (stable_text _)).bind fun _ =>
    (Fields.stable_optional _ (stable_text _)).bind fun _ => Fields.stable_pure _

theorem stable_handshakeResponse : Stable handshakeResponse :=
  stable_object _ <|
    (Fields.stable_required _ (stable_text _)).bind fun _ =>
    (Fields.stable_required _ (stable_text _)).bind fun _ =>
    (Fields.stable_required _ (stable_text _)).bind fun _ =>
    (Fields.stable_required _ (stable_list (stable_text _))).bind fun _ =>
    (Fields.stable_required _ (stable_text _)).bind fun _ =>
    (Fields.stable_required _ (stable_text _)).bind fun _ =>
    (Fields.stable_optional _ (stable_text _)).bind fun _ =>
    (Fields.stable_optional _ stable_responseEncryption).bind fun _ => Fields.stable_pure _

theorem stable_handshakeAckBody : Stable handshakeAckBody :=
  stable_object _ <|
    (Fields.stable_required _ stable_flag).bind fun _ =>
    (Fields.stable_required _ stable_handshakeResponse).bind fun _ =>
    (Fields.stable_optional _ (stable_text _)).bind fun _ =>
    (Fields.stable_check _).bind fun _ => Fields.stable_pure _

end Schema

end Coivitas.Communication
