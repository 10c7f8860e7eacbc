import Coivitas.Crypto.Encoding
import Coivitas.Identity.TokenVerifier

/-! # Agent identity documents

A document binds an agent identifier to a key and to a principal. Its first
version is certified by the identifier itself, which is a digest of the key; a
later version carries the proof of its last key rotation.
-/

namespace Coivitas.Identity

open Foundation Coivitas.Types

structure BindingProof where
  principalDid : String
  agentDid : String
  issuedAt : String
  expiresAt : Option String
  signature : String
  deriving DecidableEq

/-- A rotation endorsed by the old key, the new key and the principal. -/
structure RotationProof where
  oldPublicKey : String
  newPublicKey : String
  oldKeySignature : String
  newKeySignature : String
  principalSignature : String
  agentDid : String
  rotatedAt : String
  deriving DecidableEq

structure ServiceEndpoint where
  id : String
  type : String
  url : String
  deriving DecidableEq

structure AgentIdentityDocument where
  id : String
  specVersion : String
  principalDid : String
  publicKey : String
  bindingProof : BindingProof
  capabilities : Option (List String)
  serviceEndpoints : Option (List ServiceEndpoint)
  createdAt : String
  updatedAt : String
  version : Option ℚ
  previousPublicKey : Option String
  rotationProof : Option RotationProof
  deriving DecidableEq

/-! ## Schema -/

/-- `^[0-9a-f]{64}$` or `^[A-Za-z0-9_-]{43}$` -/
def isPublicKey (text : String) : Bool :=
  text.toList.length == 64 && text.toList.all isLowerHex ||
    text.toList.length == 43 && text.toList.all isBase64UrlChar

def BindingProof.isValid (p : BindingProof) : Bool :=
  isDidKeyText p.principalDid.toList && isDidAgentText p.agentDid.toList &&
    Calendar.isIsoText p.issuedAt && p.expiresAt.all Calendar.isIsoText && isSignature p.signature

def RotationProof.isValid (p : RotationProof) : Bool :=
  isPublicKey p.oldPublicKey && isPublicKey p.newPublicKey && isSignature p.oldKeySignature &&
    isSignature p.newKeySignature && isSignature p.principalSignature &&
    isDidAgentText p.agentDid.toList && Calendar.isIsoText p.rotatedAt

/-- An HTTPS URL with at least one character after the scheme. -/
def ServiceEndpoint.isValid (e : ServiceEndpoint) : Bool :=
  e.id != "" && e.type != "" &&
    match e.url.toList with
    | 'h' :: 't' :: 't' :: 'p' :: 's' :: ':' :: '/' :: '/' :: c :: _ => !isLineTerminator c
    | _ => false

def isDocumentVersion (version : ℚ) : Bool := version.den == 1 && decide (1 ≤ version)

/-- Validation of a document against the `agentIdentityDocument` schema. -/
def AgentIdentityDocument.isValid (d : AgentIdentityDocument) : Bool :=
  isDidAgentText d.id.toList && isSpecVersion d.specVersion && isDidKeyText d.principalDid.toList &&
    isPublicKey d.publicKey && d.bindingProof.isValid &&
    (d.capabilities.all fun actions =>
      actions.all businessActionVocabulary.contains && decide (actions.length ≤ 20) &&
        decide actions.Nodup) &&
    (d.serviceEndpoints.all fun endpoints => endpoints.all ServiceEndpoint.isValid) &&
    Calendar.isIsoText d.createdAt && Calendar.isIsoText d.updatedAt &&
    d.version.all isDocumentVersion && d.previousPublicKey.all isPublicKey &&
    d.rotationProof.all RotationProof.isValid &&
    (d.rotationProof.isNone || d.previousPublicKey.isSome)

theorem AgentIdentityDocument.isValid_version {d : AgentIdentityDocument} (h : d.isValid = true) :
    d.version.all isDocumentVersion = true := by
  simp only [AgentIdentityDocument.isValid, Bool.and_eq_true] at h
  exact h.1.1.1.2

/-! ## Verification -/

structure FieldError where
  field : String
  message : String
  deriving DecidableEq

/-- What identity verification takes from the crypto package and from the schema
validator, which reports issues exactly for the documents it refuses. -/
structure IdentityPorts extends SignaturePorts where
  /-- SHA-256 in hex. -/
  hash : List UInt8 → String
  schemaErrors : AgentIdentityDocument → List FieldError
  schemaErrors_eq_nil : ∀ document, schemaErrors document = [] ↔ document.isValid = true

variable (P : IdentityPorts)

/-- The identifier of a key; `none` when its text cannot be decoded. -/
def createAgentDID (publicKeyInput : String) : Option String :=
  (Crypto.normalizeKey publicKeyInput).map fun bytes =>
    "did:agent:" ++ String.ofList ((P.hash bytes).toList.take 40)

def bindingPayload (proof : BindingProof) : List UInt8 :=
  utf8 (Json.canonicalize P.numberFormat (.obj [("agentDid", .str proof.agentDid),
    ("issuedAt", .str proof.issuedAt), ("principalDid", .str proof.principalDid)]))

/-- The principal signed the binding and it has not expired. -/
def verifyBinding (proof : BindingProof) (now : String) : Bool :=
  isDidKey proof.principalDid && isDidAgent proof.agentDid &&
    (proof.expiresAt.all fun expiresAt => !decide (isTimestampExpired expiresAt now)) &&
    match extractPublicKeyFromDIDKey proof.principalDid with
    | some publicKey => P.verify (bindingPayload P proof) proof.signature publicKey == some true
    | none => false

/-- The payload that the old key, the new key and the principal all sign. -/
def rotationPayload (proof : RotationProof) : List UInt8 :=
  utf8 (Json.canonicalize P.numberFormat (.obj [("agentDid", .str proof.agentDid),
    ("newPublicKey", .str proof.newPublicKey), ("oldPublicKey", .str proof.oldPublicKey),
    ("rotatedAt", .str proof.rotatedAt)]))

def verifyRotationProof (proof : RotationProof) (principalDid : String) : Bool :=
  isPublicKey proof.oldPublicKey && isPublicKey proof.newPublicKey &&
    proof.oldPublicKey != proof.newPublicKey && isDidAgent proof.agentDid &&
    Calendar.isIsoText proof.rotatedAt &&
    P.verify (rotationPayload P proof) proof.oldKeySignature proof.oldPublicKey == some true &&
    P.verify (rotationPayload P proof) proof.newKeySignature proof.newPublicKey == some true &&
    isDidKey principalDid &&
    match extractPublicKeyFromDIDKey principalDid with
    | some publicKey => P.verify (rotationPayload P proof) proof.principalSignature publicKey == some true
    | none => false

/-- One error unless the condition holds. -/
def report (condition : Prop) [Decidable condition] (field message : String) : List FieldError :=
  if condition then [] else [⟨field, message⟩]

/-- The checks of a rotated document: its last rotation names this document and
carries its three signatures. -/
def rotationErrors (document : AgentIdentityDocument) : List FieldError :=
  match document.rotationProof with
  | none => [⟨"rotationProof", "rotationProof is required when version > 1."⟩]
  | some proof =>
      report (proof.agentDid = document.id) "rotationProof.agentDid"
        "rotationProof.agentDid must match document.id." ++
      report (proof.newPublicKey = document.publicKey) "rotationProof.newPublicKey"
        "rotationProof.newPublicKey must match document.publicKey." ++
      report (∀ previous ∈ document.previousPublicKey, proof.oldPublicKey = previous)
        "rotationProof.oldPublicKey"
        "rotationProof.oldPublicKey must match document.previousPublicKey." ++
      report (verifyRotationProof P proof document.principalDid = true) "rotationProof"
        "rotationProof triple-signature verification failed."

/-- A document of the first version is certified by its key. -/
def keyErrors (document : AgentIdentityDocument) : Option (List FieldError) :=
  if document.version.getD 1 = 1 then
    (createAgentDID P document.publicKey).map fun did =>
      report (did = document.id) "publicKey" "publicKey does not match document.id."
  else some (rotationErrors P document)

/-- The errors of a document; `none` when the key of a first version cannot be
decoded and the call throws. -/
def verifyAgentIdentityDocument (document : AgentIdentityDocument) (now : String) :
    Option (List FieldError) :=
  (keyErrors P document).map fun errors =>
    P.schemaErrors document ++
    report (isSpecVersion document.specVersion = true) "specVersion"
      "Expected one of 0.1.0, 0.2.0, 0.3.0." ++
    report (isDidAgent document.id = true) "id" "Agent DID format is invalid." ++
    report (isDidKey document.principalDid = true) "principalDid"
      "Principal DID format is invalid." ++
    errors ++
    report (document.bindingProof.agentDid = document.id) "bindingProof.agentDid"
      "Binding proof agent DID mismatch." ++
    report (document.bindingProof.principalDid = document.principalDid) "bindingProof.principalDid"
      "Binding proof principal DID mismatch." ++
    report (verifyBinding P document.bindingProof now = true) "bindingProof"
      "Binding proof verification failed."

/-! ## What a verified document satisfies -/

/-- A rotation proof that belongs to the document. -/
structure RotationBound (document : AgentIdentityDocument) (proof : RotationProof) : Prop where
  present : document.rotationProof = some proof
  agent : proof.agentDid = document.id
  newKey : proof.newPublicKey = document.publicKey
  oldKey : ∀ previous ∈ document.previousPublicKey, proof.oldPublicKey = previous
  verified : verifyRotationProof P proof document.principalDid = true

/-- A verification without errors. -/
structure DocumentVerified (document : AgentIdentityDocument) (now : String) : Prop where
  schema : document.isValid = true
  version : isSpecVersion document.specVersion = true
  agent : isDidAgent document.id = true
  principal : isDidKey document.principalDid = true
  certified : document.version.getD 1 = 1 → createAgentDID P document.publicKey = some document.id
  rotated : document.version.getD 1 ≠ 1 → ∃ proof, RotationBound P document proof
  bindingAgent : document.bindingProof.agentDid = document.id
  bindingPrincipal : document.bindingProof.principalDid = document.principalDid
  binding : verifyBinding P document.bindingProof now = true

@[simp] theorem report_eq_nil {condition : Prop} [Decidable condition] {field message : String} :
    report condition field message = [] ↔ condition := by
  unfold report
  split <;> simp_all

theorem rotationErrors_eq_nil {document : AgentIdentityDocument} :
    rotationErrors P document = [] ↔ ∃ proof, RotationBound P document proof := by
  unfold rotationErrors
  split
  next hnone =>
    constructor
    · intro h
      simp at h
    · rintro ⟨proof, hbound⟩
      exact absurd hbound.present (by simp [hnone])
  next proof hproof =>
    simp only [List.append_eq_nil_iff, report_eq_nil]
    constructor
    · rintro ⟨⟨⟨hagent, hnew⟩, hold⟩, hverified⟩
      exact ⟨proof, hproof, hagent, hnew, hold, hverified⟩
    · rintro ⟨proof', hbound⟩
      obtain rfl := Option.some.inj (hproof.symm.trans hbound.present)
      exact ⟨⟨⟨hbound.agent, hbound.newKey⟩, hbound.oldKey⟩, hbound.verified⟩

theorem keyErrors_eq_nil {document : AgentIdentityDocument} :
    keyErrors P document = some [] ↔
      (document.version.getD 1 = 1 → createAgentDID P document.publicKey = some document.id) ∧
        (document.version.getD 1 ≠ 1 → ∃ proof, RotationBound P document proof) := by
  unfold keyErrors
  split
  next hfirst =>
    simp only [Option.map_eq_some_iff, report_eq_nil, hfirst, forall_const, ne_eq, not_true_eq_false,
      false_imp_iff, and_true]
    constructor
    · rintro ⟨did, hdid, rfl⟩
      exact hdid
    · intro hdid
      exact ⟨document.id, hdid, rfl⟩
  next hrotated =>
    simp only [Option.some.injEq, rotationErrors_eq_nil, hrotated, false_imp_iff, ne_eq,
      not_false_eq_true, forall_const, true_and]

theorem verifyAgentIdentityDocument_eq_nil {document : AgentIdentityDocument} {now : String} :
    verifyAgentIdentityDocument P document now = some [] ↔ DocumentVerified P document now := by
  simp only [verifyAgentIdentityDocument, Option.map_eq_some_iff, List.append_eq_nil_iff,
    report_eq_nil, P.schemaErrors_eq_nil]
  constructor
  · rintro ⟨errors, hkey, ⟨⟨⟨⟨⟨⟨hschema, hversion⟩, hagent⟩, hprincipal⟩, rfl⟩, hbindingAgent⟩,
      hbindingPrincipal⟩, hbinding⟩
    obtain ⟨hcertified, hrotated⟩ := (keyErrors_eq_nil P).mp hkey
    exact ⟨hschema, hversion, hagent, hprincipal, hcertified, hrotated, hbindingAgent,
      hbindingPrincipal, hbinding⟩
  · intro h
    exact ⟨[], (keyErrors_eq_nil P).mpr ⟨h.certified, h.rotated⟩, ⟨⟨⟨⟨⟨⟨h.schema, h.version⟩,
      h.agent⟩, h.principal⟩, rfl⟩, h.bindingAgent⟩, h.bindingPrincipal⟩, h.binding⟩

end Coivitas.Identity
