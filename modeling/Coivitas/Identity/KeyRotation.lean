import Coivitas.Identity.Registry

/-! # Key rotation

The model of `packages/identity/src/key-rotation.ts`: a rotation is initiated on the
current document, and the rotating document that results is completed. Completion
verifies the rotation proof that the document carries, not that the document is the
one the proof speaks of.
-/

namespace Coivitas.Identity

open Foundation Coivitas.Types

inductive KeyRotationState where
  | active
  | rotating
  | retired
  deriving DecidableEq

structure KeyPair where
  publicKey : String
  privateKey : String

/-- A document that may carry the `_rotatingState` marker. -/
structure RotatingDocument where
  document : AgentIdentityDocument
  rotatingState : Option Json

structure RotationPorts extends IdentityPorts where
  /-- Ed25519 signing; it throws on a key that cannot be decoded. -/
  sign : List UInt8 → String → Crypto.Encoding → Except String String

structure RotationRequest where
  currentDoc : RotatingDocument
  currentPrivateKey : String
  newKeyPair : KeyPair
  principalApproval : String
  rotatedAt : Option String
  currentRotationState : Option KeyRotationState

def identityEncoding : Crypto.Encoding := .base64url

variable (P : RotationPorts)

/-- The proof before its signatures are made. -/
def RotationRequest.unsignedProof (request : RotationRequest) (rotatedAt : String) :
    RotationProof where
  oldPublicKey := request.currentDoc.document.publicKey
  newPublicKey := request.newKeyPair.publicKey
  oldKeySignature := ""
  newKeySignature := ""
  principalSignature := request.principalApproval
  agentDid := request.currentDoc.document.id
  rotatedAt := rotatedAt

/-- The document with the new key, around the proof of its rotation. -/
def rotatedDocument (currentDoc : AgentIdentityDocument) (proof : RotationProof) :
    AgentIdentityDocument :=
  { currentDoc with
    specVersion := "0.2.0"
    publicKey := proof.newPublicKey
    previousPublicKey := some currentDoc.publicKey
    rotationProof := some proof
    version := some (currentDoc.version.getD 1 + 1)
    updatedAt := proof.rotatedAt }

def initiateKeyRotation (request : RotationRequest) (now : String) :
    Except String RotatingDocument := do
  let currentDoc := request.currentDoc.document
  let rotationState := request.currentRotationState.getD
    (if request.currentDoc.rotatingState.isSome then .rotating else .active)
  require (rotationState ≠ .rotating)
    "Cannot initiate key rotation: document is already in ROTATING state."
  require (isPublicKey request.newKeyPair.publicKey = true)
    "Invalid newKeyPair: publicKey must be a 64-character hex string."
  require ((codeUnits request.newKeyPair.privateKey).length = 128)
    "Invalid newKeyPair: privateKey must be a 128-character hex string."
  require (request.newKeyPair.publicKey ≠ currentDoc.publicKey)
    "Cannot initiate key rotation: new public key is identical to the current public key."
  require (request.rotatedAt.all Calendar.isIsoText = true)
    "Invalid rotatedAt: must be ISO 8601 UTC with milliseconds (YYYY-MM-DDTHH:mm:ss.SSSZ)"
  let unsigned := request.unsignedProof (request.rotatedAt.getD now)
  let payloadBytes := rotationPayload P.toIdentityPorts unsigned
  let oldKeySignature ← P.sign payloadBytes request.currentPrivateKey identityEncoding
  let newKeySignature ← P.sign payloadBytes request.newKeyPair.privateKey identityEncoding
  let rotationProof := { unsigned with
    oldKeySignature := oldKeySignature
    newKeySignature := newKeySignature }
  require (verifyRotationProof P.toIdentityPorts rotationProof currentDoc.principalDid = true)
    "ProtocolError: SIGNATURE_INVALID — principalApproval verification failed"
  return ⟨rotatedDocument currentDoc rotationProof, some (.bool true)⟩

def completeKeyRotation (rotatingDoc : RotatingDocument)
    (currentRotationState : Option KeyRotationState) : Except String AgentIdentityDocument := do
  require (rotatingDoc.rotatingState = some (.bool true) ∨ currentRotationState = some .rotating)
    "Cannot complete key rotation: document is not in ROTATING state."
  match rotatingDoc.document.rotationProof with
  | none => .error "Cannot complete key rotation: rotationProof missing from document."
  | some rotationProof => do
      require (verifyRotationProof P.toIdentityPorts rotationProof
          rotatingDoc.document.principalDid = true)
        "RotationProof verification failed in completeKeyRotation"
      return rotatingDoc.document

/-! ## What the two calls check -/

section Checks

variable {P} {request : RotationRequest} {now : String} {rotating initiated : RotatingDocument}
  {state : Option KeyRotationState} {completed document : AgentIdentityDocument}

/-- Initiation builds the document around a proof that verifies. -/
theorem initiateKeyRotation_ok (h : initiateKeyRotation P request now = .ok initiated) :
    ∃ proof, initiated = ⟨rotatedDocument request.currentDoc.document proof, some (.bool true)⟩ ∧
      proof.agentDid = request.currentDoc.document.id ∧
      proof.oldPublicKey = request.currentDoc.document.publicKey ∧
      verifyRotationProof P.toIdentityPorts proof request.currentDoc.document.principalDid =
        true := by
  simp only [initiateKeyRotation, bind_eq_ok, exists_unit, require_eq_ok, pure_eq_ok] at h
  obtain ⟨-, -, -, -, -, oldKeySignature, -, newKeySignature, -, hverified, rfl⟩ := h
  exact ⟨_, rfl, rfl, rfl, hverified⟩

/-- Completion returns the document as it is. -/
theorem completeKeyRotation_eq_ok :
    completeKeyRotation P rotating state = .ok completed ↔
      (rotating.rotatingState = some (.bool true) ∨ state = some .rotating) ∧
        (∃ proof, rotating.document.rotationProof = some proof ∧
          verifyRotationProof P.toIdentityPorts proof rotating.document.principalDid = true) ∧
        rotating.document = completed := by
  unfold completeKeyRotation
  cases hproof : rotating.document.rotationProof with
  | none => simp
  | some proof => simp only [bind_eq_ok, exists_unit, require_eq_ok, pure_eq_ok,
      Option.some.injEq, exists_eq_left']

/-- The document is the one that the rotation leads to. -/
structure OfRotation (document : AgentIdentityDocument) (proof : RotationProof) : Prop where
  newKey : document.publicKey = proof.newPublicKey
  oldKey : document.previousPublicKey = some proof.oldPublicKey
  agent : document.id = proof.agentDid

theorem OfRotation.bound {proof : RotationProof} (h : OfRotation document proof)
    (hproof : document.rotationProof = some proof)
    (hverified : verifyRotationProof P.toIdentityPorts proof document.principalDid = true) :
    RotationBound P.toIdentityPorts document proof where
  present := hproof
  agent := h.agent.symm
  newKey := h.newKey.symm
  oldKey := by
    rintro previous hprevious
    exact Option.some.inj (h.oldKey.symm.trans hprevious)
  verified := hverified

theorem ofRotation_rotatedDocument (currentDoc : AgentIdentityDocument) {proof : RotationProof}
    (hagent : proof.agentDid = currentDoc.id) (hold : proof.oldPublicKey = currentDoc.publicKey) :
    OfRotation (rotatedDocument currentDoc proof) proof where
  newKey := rfl
  oldKey := congrArg some hold.symm
  agent := hagent.symm

/-- The key in the document is the one that its rotation proof introduces, and
verification has nothing to object to the rotation. -/
def InstallsRotatedKey (P : IdentityPorts) (document : AgentIdentityDocument) : Prop :=
  ∃ proof, document.rotationProof = some proof ∧ OfRotation document proof ∧
    rotationErrors P document = []

theorem installs_iff_ofRotation (h : completeKeyRotation P rotating state = .ok completed) :
    InstallsRotatedKey P.toIdentityPorts completed ↔
      ∃ proof, rotating.document.rotationProof = some proof ∧
        OfRotation rotating.document proof := by
  obtain ⟨-, ⟨proof, hproof, hverified⟩, rfl⟩ := completeKeyRotation_eq_ok.mp h
  constructor
  · rintro ⟨other, hother, hof, -⟩
    exact ⟨other, hother, hof⟩
  · rintro ⟨other, hother, hof⟩
    obtain rfl := Option.some.inj (hproof.symm.trans hother)
    exact ⟨proof, hproof, hof,
      (rotationErrors_eq_nil _).mpr ⟨proof, hof.bound hproof hverified⟩⟩

/-- A completed document has the key of its rotation exactly when it was that way before.
For a document that carries the proof of an initiated rotation this means that nobody has
changed its key, its previous key or its identifier since. -/
theorem completed_installs_iff (h : completeKeyRotation P rotating state = .ok completed) :
    (InstallsRotatedKey P.toIdentityPorts completed ↔
      ∃ proof, rotating.document.rotationProof = some proof ∧
        OfRotation rotating.document proof) ∧
      ∀ request now initiated, initiateKeyRotation P request now = .ok initiated →
        rotating.document.rotationProof = initiated.document.rotationProof →
          (InstallsRotatedKey P.toIdentityPorts completed ↔
            rotating.document.publicKey = initiated.document.publicKey ∧
              rotating.document.previousPublicKey = initiated.document.previousPublicKey ∧
              rotating.document.id = initiated.document.id) := by
  refine ⟨installs_iff_ofRotation h, ?_⟩
  intro request now initiated hinitiated hsame
  obtain ⟨proof, rfl, hagent, hold, -⟩ := initiateKeyRotation_ok hinitiated
  have hof := ofRotation_rotatedDocument request.currentDoc.document hagent hold
  rw [installs_iff_ofRotation h]
  constructor
  · rintro ⟨other, hother, hrotation⟩
    obtain rfl := Option.some.inj (hother.symm.trans hsame)
    exact ⟨hrotation.newKey.trans hof.newKey.symm, hrotation.oldKey.trans hof.oldKey.symm,
      hrotation.agent.trans hof.agent.symm⟩
  · rintro ⟨hkey, hprevious, hid⟩
    exact ⟨proof, hsame, hkey.trans hof.newKey, hprevious.trans hof.oldKey, hid.trans hof.agent⟩

end Checks

/-! A rotation was initiated by all three signers. Before it is completed, somebody
puts another key into the document. -/

namespace ForeignKey

open Takeover

def ports : RotationPorts where
  toIdentityPorts := Takeover.ports
  sign _ privateKey _ :=
    .ok (if privateKey = "old" then rotation.oldKeySignature else rotation.newKeySignature)

def currentDoc : AgentIdentityDocument where
  id := rotation.agentDid
  specVersion := "0.1.0"
  principalDid := Takeover.binding.principalDid
  publicKey := rotation.oldPublicKey
  bindingProof := Takeover.binding
  capabilities := none
  serviceEndpoints := none
  createdAt := rotation.rotatedAt
  updatedAt := rotation.rotatedAt
  version := some 1
  previousPublicKey := none
  rotationProof := none

def request : RotationRequest where
  currentDoc := ⟨currentDoc, none⟩
  currentPrivateKey := "old"
  newKeyPair := ⟨rotation.newPublicKey, String.ofList (List.replicate 128 '1')⟩
  principalApproval := rotation.principalSignature
  rotatedAt := some rotation.rotatedAt
  currentRotationState := none

def initiated : RotatingDocument := ⟨rotatedDocument currentDoc rotation, some (.bool true)⟩

theorem initiated_eq : initiateKeyRotation ports request "2026-06-01T00:00:00.000Z" =
    .ok initiated := by
  have hverified : verifyRotationProof Takeover.ports rotation currentDoc.principalDid = true :=
    intruder.rotation_verified
  have hkey : isPublicKey rotation.newPublicKey = true := by decide +kernel
  have hiso : Calendar.isIsoText rotation.rotatedAt = true := by decide +kernel
  have hother : rotation.newPublicKey ≠ rotation.oldPublicKey := by decide
  have hlength : (codeUnits request.newKeyPair.privateKey).length = 128 := by decide +kernel
  have hold : ∀ bytes, ports.sign bytes request.currentPrivateKey identityEncoding =
      .ok rotation.oldKeySignature := fun _ => rfl
  have hnew : ∀ bytes, ports.sign bytes request.newKeyPair.privateKey identityEncoding =
      .ok rotation.newKeySignature := by
    intro bytes
    have hne : request.newKeyPair.privateKey ≠ "old" := by decide +kernel
    simp [ports, hne]
  simp only [initiateKeyRotation, bind_eq_ok, exists_unit, require_eq_ok, pure_eq_ok]
  refine ⟨by simp [request], hkey, hlength, hother, ?_, _, hold _, _, hnew _, hverified, rfl⟩
  simpa [request] using hiso

def foreignKey : String := "ac60aa2ea719a7525b72258a10978aa5edb4345bcbcd2414d276298a1f5d1f7e"

def tampered : RotatingDocument :=
  { initiated with document := { initiated.document with publicKey := foreignKey } }

theorem tampered_completed : completeKeyRotation ports tampered none = .ok tampered.document :=
  completeKeyRotation_eq_ok.mpr ⟨.inl rfl, ⟨rotation, rfl, intruder.rotation_verified⟩, rfl⟩

/-- The completed document has a key that no signature of the rotation covers. -/
theorem foreign_key_installed :
    ¬ ∀ rotating state completed, completeKeyRotation ports rotating state = .ok completed →
      InstallsRotatedKey ports.toIdentityPorts completed := by
  intro h
  obtain ⟨proof, hproof, hof, -⟩ := h tampered none tampered.document tampered_completed
  obtain rfl : Takeover.rotation = proof := Option.some.inj hproof
  exact absurd hof.newKey (by decide)

theorem untouched_installed :
    InstallsRotatedKey ports.toIdentityPorts initiated.document := by
  have hcompleted : completeKeyRotation ports initiated none = .ok initiated.document :=
    completeKeyRotation_eq_ok.mpr ⟨.inl rfl, ⟨rotation, rfl, intruder.rotation_verified⟩, rfl⟩
  exact ((completed_installs_iff hcompleted).2 request _ initiated initiated_eq rfl).mpr
    ⟨rfl, rfl, rfl⟩

end ForeignKey

end Coivitas.Identity
