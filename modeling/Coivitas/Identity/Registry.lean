import Coivitas.Identity.IdentityDocument

/-! # The identity registry

Documents enter the registry directly or through federation sync. Both ways end
in `register`, which verifies the document on its own and refuses an identifier
that is taken.
-/

namespace Coivitas.Identity

open Foundation Coivitas.Types

inductive AgentStatus where
  | active
  | suspended
  | deactivated
  deriving DecidableEq

structure AgentRow where
  did : String
  document : AgentIdentityDocument
  status : AgentStatus
  deriving DecidableEq

inductive RegistryCode where
  | bindingProofInvalid
  | identityAlreadyExists
  deriving DecidableEq

/-- A registration that does not store the document. -/
inductive RegistryStop where
  | protocolError (code : RegistryCode) (message : String)
  | threw
  deriving DecidableEq

inductive SyncCode where
  | invalidDocument
  | signatureInvalid
  deriving DecidableEq

/-- A sync request that does not succeed. -/
inductive SyncStop where
  | badRequest (code : SyncCode) (message : String)
  | failed (stop : RegistryStop)
  deriving DecidableEq

variable (P : IdentityPorts)

def errorText (errors : List FieldError) : String :=
  "; ".intercalate (errors.map fun error => error.field ++ ": " ++ error.message)

def verifyOrThrow (document : AgentIdentityDocument) (now : String) : Except RegistryStop Unit :=
  match verifyAgentIdentityDocument P document now with
  | none => .error .threw
  | some errors => require (errors = []) (.protocolError .bindingProofInvalid (errorText errors))

def register (document : AgentIdentityDocument) (now : String) (agents : List AgentRow) :
    Except RegistryStop (List AgentRow) := do
  verifyOrThrow P document now
  require (∀ row ∈ agents, row.did ≠ document.id)
    (.protocolError .identityAlreadyExists ("Identity " ++ document.id ++ " already exists."))
  return agents ++ [⟨document.id, document, .active⟩]

/-- The check of the sync handler on documents of the first version; a version of
zero counts as missing. -/
def checkSelfCertified (document : AgentIdentityDocument) : Except SyncStop Unit :=
  if document.version.getD 1 = 1 ∨ document.version = some 0 then
    match createAgentDID P document.publicKey with
    | none => .error (.failed .threw)
    | some expectedDid =>
        require (expectedDid = document.id)
          (.badRequest .signatureInvalid "DID does not match publicKey.")
  else .ok ()

/-- Store what another node pushed; a document that is already there is no error. -/
def storeSynced (document : AgentIdentityDocument) (now : String) (agents : List AgentRow) :
    Except SyncStop (List AgentRow) :=
  match register P document now agents with
  | .ok agents' => .ok agents'
  | .error (.protocolError .identityAlreadyExists _) => .ok agents
  | .error stop => .error (.failed stop)

def federationSync (document : AgentIdentityDocument) (now : String) (agents : List AgentRow) :
    Except SyncStop (List AgentRow) := do
  require (document.id ≠ "" ∧ document.publicKey ≠ "")
    (.badRequest .invalidDocument "document.id and document.publicKey are required.")
  require (document.bindingProof.agentDid = document.id)
    (.badRequest .signatureInvalid "bindingProof.agentDid does not match document.id.")
  checkSelfCertified P document
  require (verifyBinding P document.bindingProof now = true)
    (.badRequest .signatureInvalid "bindingProof signature is invalid.")
  storeSynced P document now agents

/-- The two ways a document reaches the registry. -/
inductive EntryPoint where
  | direct
  | federation
  deriving DecidableEq

/-- The document is the first under its identifier and is stored. -/
def FirstRegistered (entry : EntryPoint) (document : AgentIdentityDocument) (now : String)
    (agents agents' : List AgentRow) : Prop :=
  (∀ row ∈ agents, row.did ≠ document.id) ∧
    match entry with
    | .direct => register P document now agents = .ok agents'
    | .federation => federationSync P document now agents = .ok agents'

/-- The document's key history starts at its identifier: the identifier is the one
of its key or of the key that its rotation replaced. -/
def Anchored (document : AgentIdentityDocument) : Prop :=
  createAgentDID P document.publicKey = some document.id ∨
    ∃ proof ∈ document.rotationProof, createAgentDID P proof.oldPublicKey = some document.id

/-- The keys under which registration verifies a signature: the principal's, and those of the
rotation that a later version carries. -/
def signingKeys (document : AgentIdentityDocument) : List String :=
  (extractPublicKeyFromDIDKey document.principalDid).toList ++
    if document.version.getD 1 = 1 then []
    else document.rotationProof.toList.flatMap fun proof => [proof.oldPublicKey, proof.newPublicKey]

/-- A signature in the document verifies under the key. -/
def SignedUnder (document : AgentIdentityDocument) (key : String) : Prop :=
  P.verify (bindingPayload P document.bindingProof) document.bindingProof.signature key =
      some true ∨
    ∃ proof ∈ document.rotationProof, ∃ signature ∈
      [proof.oldKeySignature, proof.newKeySignature, proof.principalSignature],
        P.verify (rotationPayload P proof) signature key = some true

/-- The document is anchored, and whoever can make its signatures, which are unforgeable, holds
a key that the identifier is derived from. -/
structure SelfCertified (document : AgentIdentityDocument) : Prop where
  anchored : Anchored P document
  possessed : ∀ held : Set String, (∀ key ∈ signingKeys document, key ∈ held) →
    ∃ key ∈ held, createAgentDID P key = some document.id

/-- What registration leaves open: the principal of a first version is the agent itself, and
the rotation of a later version is one of a key of the identifier, or to one. -/
def NamesHolder (document : AgentIdentityDocument) : Prop :=
  if document.version.getD 1 = 1 then
    ∃ key ∈ extractPublicKeyFromDIDKey document.principalDid,
      createAgentDID P key = some document.id
  else
    ∃ proof ∈ document.rotationProof, createAgentDID P proof.oldPublicKey = some document.id ∨
      createAgentDID P proof.newPublicKey = some document.id

/-! ## Registration -/

section Registration

variable {P} {document : AgentIdentityDocument} {now : String} {agents agents' : List AgentRow}

theorem verifyOrThrow_eq_ok :
    verifyOrThrow P document now = .ok () ↔ DocumentVerified P document now := by
  rw [← verifyAgentIdentityDocument_eq_nil]
  unfold verifyOrThrow
  split
  next hthrew => simp [hthrew]
  next errors herrors => simp [herrors]

/-- A registration succeeds exactly for a verified document whose identifier is free. -/
theorem register_eq_ok :
    register P document now agents = .ok agents' ↔
      DocumentVerified P document now ∧ (∀ row ∈ agents, row.did ≠ document.id) ∧
        agents ++ [⟨document.id, document, .active⟩] = agents' := by
  simp only [register, bind_eq_ok, exists_unit, require_eq_ok, pure_eq_ok, verifyOrThrow_eq_ok]

theorem checkSelfCertified_eq_ok :
    checkSelfCertified P document = .ok () ↔
      (document.version.getD 1 = 1 ∨ document.version = some 0 →
        createAgentDID P document.publicKey = some document.id) := by
  unfold checkSelfCertified
  split
  next hfirst =>
    rw [forall_prop_of_true hfirst]
    split
    next hthrew => simp [hthrew]
    next did hdid => simp [hdid]
  next hlater => simp [hlater]

theorem register_error {code : RegistryCode} {message : String}
    (hfree : ∀ row ∈ agents, row.did ≠ document.id)
    (herror : register P document now agents = .error (.protocolError code message)) :
    code = .bindingProofInvalid := by
  cases hverify : verifyOrThrow P document now with
  | ok u =>
      have hok := register_eq_ok.mpr ⟨verifyOrThrow_eq_ok.mp hverify, hfree, rfl⟩
      rw [hok] at herror
      cases herror
  | error stop =>
      simp only [register, hverify, bind, Except.bind, Except.error.injEq] at herror
      subst herror
      unfold verifyOrThrow require at hverify
      split at hverify
      next => cases hverify
      next =>
        split at hverify
        · cases hverify
        · cases hverify
          rfl

/-- Under a free identifier sync stores what `register` accepts. -/
theorem storeSynced_eq_ok (hfree : ∀ row ∈ agents, row.did ≠ document.id) :
    storeSynced P document now agents = .ok agents' ↔
      register P document now agents = .ok agents' := by
  unfold storeSynced
  split
  next stored hstored => simp [hstored]
  next hexists => cases register_error hfree hexists
  next stop hstop => simp [hstop]

/-- What a first registration has verified, through either entry point. -/
theorem FirstRegistered.verified {entry : EntryPoint}
    (h : FirstRegistered P entry document now agents agents') : DocumentVerified P document now := by
  obtain ⟨hfree, hstored⟩ := h
  cases entry with
  | direct => exact (register_eq_ok.mp hstored).1
  | federation =>
      simp only [federationSync, bind_eq_ok, exists_unit, require_eq_ok,
        storeSynced_eq_ok hfree] at hstored
      obtain ⟨-, -, -, -, hregistered⟩ := hstored
      exact (register_eq_ok.mp hregistered).1

/-- A verified document is stored through either entry point. -/
theorem firstRegistered_of_verified (entry : EntryPoint) (hverified : DocumentVerified P document now)
    (hfree : ∀ row ∈ agents, row.did ≠ document.id) :
    FirstRegistered P entry document now agents
      (agents ++ [⟨document.id, document, .active⟩]) := by
  have hregistered := register_eq_ok.mpr ⟨hverified, hfree, rfl⟩
  refine ⟨hfree, ?_⟩
  cases entry with
  | direct => exact hregistered
  | federation =>
      simp only [federationSync, bind_eq_ok, exists_unit, require_eq_ok,
        storeSynced_eq_ok hfree, checkSelfCertified_eq_ok]
      refine ⟨⟨?_, ?_⟩, hverified.bindingAgent, ?_, hverified.binding, hregistered⟩
      · intro hempty
        have hagent := hverified.agent
        rw [hempty] at hagent
        exact absurd hagent (by decide)
      · intro hempty
        have hschema := hverified.schema
        simp [AgentIdentityDocument.isValid, isPublicKey, hempty] at hschema
      · rintro (hfirst | hzero)
        · exact hverified.certified hfirst
        · -- The schema has refused a version of zero.
          have hversion := AgentIdentityDocument.isValid_version hverified.schema
          rw [hzero] at hversion
          exact absurd hversion (by decide)

theorem verifyBinding_signed {proof : BindingProof} {key : String}
    (hverified : verifyBinding P proof now = true)
    (hkey : extractPublicKeyFromDIDKey proof.principalDid = some key) :
    P.verify (bindingPayload P proof) proof.signature key = some true := by
  simp only [verifyBinding, hkey, Bool.and_eq_true, beq_iff_eq] at hverified
  exact hverified.2

/-- Every key that registration asks for has signed the document. -/
theorem DocumentVerified.signed (hverified : DocumentVerified P document now) :
    ∀ key ∈ signingKeys document, SignedUnder P document key := by
  intro key hkey
  obtain hprincipal | hrotated := List.mem_append.mp hkey
  · rw [Option.mem_toList, ← hverified.bindingPrincipal] at hprincipal
    exact .inl (verifyBinding_signed hverified.binding hprincipal)
  · split at hrotated
    next => cases hrotated
    next hlater =>
      obtain ⟨proof, hbound⟩ := hverified.rotated hlater
      have hrotation := hbound.verified
      simp only [verifyRotationProof, Bool.and_eq_true, beq_iff_eq] at hrotation
      obtain ⟨⟨⟨⟨-, hold⟩, hnew⟩, -⟩, -⟩ := hrotation
      rw [hbound.present] at hrotated
      right
      refine ⟨proof, hbound.present, ?_⟩
      obtain rfl | rfl : key = proof.oldPublicKey ∨ key = proof.newPublicKey := by
        simpa using hrotated
      · exact ⟨_, by simp, hold⟩
      · exact ⟨_, by simp, hnew⟩

/-- A verified document is anchored and its makers hold a key of the identifier exactly when it
names such a key where registration does not look. -/
theorem DocumentVerified.selfCertified_iff (hverified : DocumentVerified P document now) :
    SelfCertified P document ↔ NamesHolder P document := by
  constructor
  · rintro ⟨hanchored, hpossessed⟩
    unfold NamesHolder
    split
    next hfirst =>
      obtain ⟨key, hkey, hderived⟩ := hpossessed { key | key ∈ signingKeys document }
        fun _ hkey => hkey
      rw [Set.mem_setOf_eq, signingKeys, if_pos hfirst, List.append_nil,
        Option.mem_toList] at hkey
      exact ⟨key, hkey, hderived⟩
    next hlater =>
      obtain ⟨proof, hbound⟩ := hverified.rotated hlater
      refine ⟨proof, hbound.present, ?_⟩
      obtain hkey | ⟨anchor, hanchor, hkey⟩ := hanchored
      · exact .inr (hbound.newKey ▸ hkey)
      · obtain rfl := Option.some.inj (hbound.present.symm.trans hanchor)
        exact .inl hkey
  · intro hnames
    unfold NamesHolder at hnames
    split at hnames
    next hfirst =>
      obtain ⟨key, hkey, hderived⟩ := hnames
      refine ⟨.inl (hverified.certified hfirst), fun held hheld => ⟨key, hheld key ?_, hderived⟩⟩
      exact List.mem_append_left _ (Option.mem_toList.mpr hkey)
    next hlater =>
      obtain ⟨proof, hproof, hderived⟩ := hnames
      obtain ⟨bound, hbound⟩ := hverified.rotated hlater
      obtain rfl := Option.some.inj (hbound.present.symm.trans hproof)
      have hkeys : bound.oldPublicKey ∈ signingKeys document ∧
          bound.newPublicKey ∈ signingKeys document := by
        simp [signingKeys, hlater, hbound.present]
      obtain hold | hnew := hderived
      · exact ⟨.inr ⟨bound, hproof, hold⟩, fun held hheld => ⟨_, hheld _ hkeys.1, hold⟩⟩
      · exact ⟨.inl (hbound.newKey ▸ hnew), fun held hheld => ⟨_, hheld _ hkeys.2, hnew⟩⟩

end Registration

/-! ## Rotations -/

/-- A pair of agent keys and a principal, with their signatures on a rotation and on a binding
for one identifier. -/
structure Rotator (now : String) where
  rotation : RotationProof
  binding : BindingProof
  agent : isDidAgent rotation.agentDid = true
  bound : binding.agentDid = rotation.agentDid
  principal : isDidKey binding.principalDid = true
  bindingText : binding.isValid = true
  rotationText : rotation.isValid = true
  distinct : rotation.oldPublicKey ≠ rotation.newPublicKey
  principalKey : String
  principalKey_eq : extractPublicKeyFromDIDKey binding.principalDid = some principalKey
  unexpired : ∀ expiresAt ∈ binding.expiresAt, ¬ isTimestampExpired expiresAt now
  verify_old : P.verify (rotationPayload P rotation) rotation.oldKeySignature
    rotation.oldPublicKey = some true
  verify_new : P.verify (rotationPayload P rotation) rotation.newKeySignature
    rotation.newPublicKey = some true
  verify_principal : P.verify (rotationPayload P rotation) rotation.principalSignature
    principalKey = some true
  verify_binding : P.verify (bindingPayload P binding) binding.signature principalKey = some true

namespace Rotator

variable {P} {now : String} (rotator : Rotator P now)

/-- The document that the rotation makes. -/
def document (version : ℚ) : AgentIdentityDocument where
  id := rotator.rotation.agentDid
  specVersion := "0.2.0"
  principalDid := rotator.binding.principalDid
  publicKey := rotator.rotation.newPublicKey
  bindingProof := rotator.binding
  capabilities := none
  serviceEndpoints := none
  createdAt := rotator.rotation.rotatedAt
  updatedAt := rotator.rotation.rotatedAt
  version := some version
  previousPublicKey := some rotator.rotation.oldPublicKey
  rotationProof := some rotator.rotation

theorem document_isValid (version : ℚ) (hversion : isDocumentVersion version = true) :
    (rotator.document version).isValid = true := by
  have hagent : isDidAgentText rotator.rotation.agentDid.toList = true := rotator.agent
  have hprincipal := isDidKeyText_of_isDidKey rotator.principal
  have hrotation := rotator.rotationText
  have hspec : isSpecVersion "0.2.0" = true := by decide
  simp only [RotationProof.isValid, Bool.and_eq_true] at hrotation
  obtain ⟨⟨⟨⟨⟨⟨hold, hnew⟩, -⟩, -⟩, -⟩, -⟩, hrotatedAt⟩ := hrotation
  simp only [AgentIdentityDocument.isValid, document, hagent, hspec, hprincipal, hnew, hold,
    rotator.bindingText, rotator.rotationText, hrotatedAt, hversion, Option.all_none,
    Option.all_some, Option.isNone_some, Option.isSome_some, Bool.and_true, Bool.or_true]

theorem rotation_verified :
    verifyRotationProof P rotator.rotation rotator.binding.principalDid = true := by
  have hrotation := rotator.rotationText
  simp only [RotationProof.isValid, Bool.and_eq_true] at hrotation
  obtain ⟨⟨⟨⟨⟨⟨hold, hnew⟩, -⟩, -⟩, -⟩, -⟩, hrotatedAt⟩ := hrotation
  simp [verifyRotationProof, hold, hnew, rotator.distinct, rotator.agent, hrotatedAt,
    rotator.verify_old, rotator.verify_new, rotator.principal, rotator.principalKey_eq,
    rotator.verify_principal]

theorem binding_verified : verifyBinding P rotator.binding now = true := by
  have hagent : isDidAgent rotator.binding.agentDid = true := rotator.bound ▸ rotator.agent
  have hexpiry : rotator.binding.expiresAt.all
      (fun expiresAt => !decide (isTimestampExpired expiresAt now)) = true := by
    cases hexpires : rotator.binding.expiresAt with
    | none => rfl
    | some expiresAt => simpa using rotator.unexpired expiresAt hexpires
  simp [verifyBinding, rotator.principal, hagent, hexpiry, rotator.principalKey_eq,
    rotator.verify_binding]

theorem document_verified (version : ℚ) (hversion : isDocumentVersion version = true)
    (hlater : version ≠ 1) : DocumentVerified P (rotator.document version) now := by
  have hbound : RotationBound P (rotator.document version) rotator.rotation := {
    present := rfl
    agent := rfl
    newKey := rfl
    oldKey := by
      intro previous hprevious
      exact Option.some.inj hprevious
    verified := rotator.rotation_verified }
  exact {
    schema := rotator.document_isValid version hversion
    version := by
      show isSpecVersion "0.2.0" = true
      decide
    agent := rotator.agent
    principal := rotator.principal
    certified := fun hfirst => absurd hfirst hlater
    rotated := fun _ => ⟨_, hbound⟩
    bindingAgent := rotator.bound
    bindingPrincipal := rfl
    binding := rotator.binding_verified }

end Rotator

/-- Somebody with keys of their own, from none of which the victim's identifier is derived. -/
structure Intruder (now : String) extends Rotator P now where
  underived_old : createAgentDID P rotation.oldPublicKey ≠ some rotation.agentDid
  underived_new : createAgentDID P rotation.newPublicKey ≠ some rotation.agentDid

namespace Intruder

variable {P} {now : String} (intruder : Intruder P now)

theorem document_not_anchored (version : ℚ) : ¬ Anchored P (intruder.document version) := by
  rintro (hkey | ⟨proof, hproof, hkey⟩)
  · exact intruder.underived_new hkey
  · obtain rfl := Option.some.inj hproof
    exact intruder.underived_old hkey

end Intruder

/-- The documents of one version that enter the registry first under their
identifiers are all anchored exactly when the version is the first one, or is no
version number at all. -/
theorem firstRegistered_anchored_iff {now : String} (intruder : Intruder P now) (entry : EntryPoint)
    (version : Option ℚ) :
    (∀ document agents agents', document.version = version →
      FirstRegistered P entry document now agents agents' → Anchored P document) ↔
      version.getD 1 = 1 ∨ version.all isDocumentVersion = false := by
  constructor
  · intro hanchored
    by_contra hlater
    simp only [not_or, Bool.not_eq_false] at hlater
    obtain ⟨hne, hvalid⟩ := hlater
    cases version with
    | none => simp at hne
    | some v =>
        have hverified := intruder.document_verified v (by simpa using hvalid) hne
        exact intruder.document_not_anchored v (hanchored _ [] _ rfl
          (firstRegistered_of_verified entry hverified (by simp)))
  · rintro hversion document agents agents' rfl hregistered
    have hverified := hregistered.verified
    have hvalid := AgentIdentityDocument.isValid_version hverified.schema
    rcases hversion with hfirst | hinvalid
    · exact .inl (hverified.certified hfirst)
    · rw [hvalid] at hinvalid
      cases hinvalid

/-! An agent derived its identifier from a key of its own. An intruder with three
other keys registers that identifier first. -/

namespace Takeover

def rotation : RotationProof where
  oldPublicKey := "25561222a885ae307a5289404e04230b4a093f312ddc2c2a21168cfac9d3c359"
  newPublicKey := "0cf1bdcae3eac78550097c709dcd1bbdf31bd8ceccddf162dc49728c32731366"
  oldKeySignature :=
    "z1zE88MyMYawZWJDUNcU98cQXt9MeLhtd5kvTVHTLGG4tuaAYDH5CM0P7z9ZyWRPZHu____ssEJbxXo83ecmBA"
  newKeySignature :=
    "0dRlxTdN6QnUElOIHgWPmtHAJyn0I-keao1PvNpDazm-WYXtKmkmufYCrsJrJk_gZZgdaekpBaUn7pTLcPIIDw"
  principalSignature :=
    "3KieSk0AEjB3i61mAtWRyd_kfCWLBZAX3nzBf7o_aSQ97FUBKc5m2CtnaR06BAj89sr_dGhWkokPUbuiYFZ6AQ"
  agentDid := "did:agent:b5aab42bd4242b945be22a8adeb4acd4c042fb93"
  rotatedAt := "2026-03-01T00:00:00.000Z"

def binding : BindingProof where
  principalDid := "did:key:z6MkvqFjyNjFfNM7HDX6qE4SPyzmrh6sGztjrpMbfbK3X4gC"
  agentDid := "did:agent:b5aab42bd4242b945be22a8adeb4acd4c042fb93"
  issuedAt := "2026-03-01T00:00:00.000Z"
  expiresAt := none
  signature :=
    "XdRkSUUMZqjrG7Qyd-EiuLM73oGamkB5N97_uj0mo3StHq-rcd7yGikFDzIRHReVeHvP-yW7XBw3iYBVYyYjBA"

def principalKey : String := "f35d6cd6b60eb57fbf5fa6b7f660571dde3ace91591ae782791880e82250f1dd"

def victimKey : String := "ac60aa2ea719a7525b72258a10978aa5edb4345bcbcd2414d276298a1f5d1f7e"

/-- The SHA-256 digests of the four keys. -/
def hash (bytes : List UInt8) : String :=
  if some bytes = Crypto.normalizeKey rotation.oldPublicKey then
    "d63df8622ba7f5a10a0167ae44c334fb4bfda902dcb96fe4e7948f0b90e09537"
  else if some bytes = Crypto.normalizeKey principalKey then
    "0bf0ddf4daa2cb675d085d0215ee782f3c2ac9aa4228ba4e1608d34e3ea856a5"
  else if some bytes = Crypto.normalizeKey rotation.newPublicKey then
    "957a2f69620fa74f98e590ef7fa97466a8663e3b38fc41cf76e5b3a0254693ec"
  else "b5aab42bd4242b945be22a8adeb4acd4c042fb930a92688bbb63f3b17dc185b9"

def rotationBytes : List UInt8 :=
  utf8 (Json.canonicalize NumberFormat.decimal (.obj [("agentDid", .str rotation.agentDid),
    ("newPublicKey", .str rotation.newPublicKey), ("oldPublicKey", .str rotation.oldPublicKey),
    ("rotatedAt", .str rotation.rotatedAt)]))

def bindingBytes : List UInt8 :=
  utf8 (Json.canonicalize NumberFormat.decimal (.obj [("agentDid", .str binding.agentDid),
    ("issuedAt", .str binding.issuedAt), ("principalDid", .str binding.principalDid)]))

/-- A signature of the intruder; the private key plays no part. -/
def signed (payload : List UInt8) (publicKey signature : String) : SignedBytes :=
  ⟨payload, "", publicKey, signature⟩

def ledger : List SignedBytes :=
  [signed rotationBytes rotation.oldPublicKey rotation.oldKeySignature,
    signed rotationBytes rotation.newPublicKey rotation.newKeySignature,
    signed rotationBytes principalKey rotation.principalSignature,
    signed bindingBytes principalKey binding.signature]

def ports : IdentityPorts where
  numberFormat := NumberFormat.decimal
  verify := verifyIn ledger
  hash := hash
  schemaErrors document := report (document.isValid = true) "/" "validation failed"
  schemaErrors_eq_nil _ := report_eq_nil

theorem rotationPayload_ports : rotationPayload ports rotation = rotationBytes := by
  simp only [rotationPayload, ports, rotationBytes]

theorem bindingPayload_ports : bindingPayload ports binding = bindingBytes := by
  simp only [bindingPayload, ports, bindingBytes]

theorem verify_signed {payload : List UInt8} {publicKey signature : String}
    (hsigned : signed payload publicKey signature ∈ ledger) :
    ports.verify payload signature publicKey = some true :=
  verifyIn_of_mem hsigned

theorem agentDid_isDidAgent : isDidAgent rotation.agentDid = true := by
  rw [isDidAgent, show rotation.agentDid.toList = _ from String.toList_ofList]
  decide

theorem principalDid_isDidKey : isDidKey binding.principalDid = true := by
  rw [isDidKey, show binding.principalDid.toList = _ from String.toList_ofList,
    show didKeyPrefix = _ from String.toList_ofList,
    show base58Alphabet = _ from String.toList_ofList]
  decide

theorem principalDid_key : extractPublicKeyFromDIDKey binding.principalDid = some principalKey := by
  rw [extractPublicKeyFromDIDKey, if_pos principalDid_isDidKey,
    show binding.principalDid.toList = _ from String.toList_ofList,
    show didKeyPrefix = _ from String.toList_ofList]
  simp only [List.length_cons, List.length_nil, List.drop_succ_cons, List.drop_zero,
    decodeDidKeyPayload, decodeBase58, show base58Alphabet = _ from String.toList_ofList]
  decide +kernel

theorem binding_isValid : binding.isValid = true := by
  rw [BindingProof.isValid, Calendar.isIsoText, isSignature,
    show binding.principalDid.toList = _ from String.toList_ofList,
    show binding.agentDid.toList = _ from String.toList_ofList,
    show binding.issuedAt.toList = _ from String.toList_ofList,
    show binding.signature.toList = _ from String.toList_ofList]
  decide

theorem rotation_isValid : rotation.isValid = true := by
  simp only [RotationProof.isValid, rotation, isPublicKey, isSignature, Calendar.isIsoText]
  repeat rw [String.toList_ofList]
  decide

/-- The identifier that a key with a given digest derives. -/
theorem createAgentDID_of_hash {publicKey digest did : String}
    (hkey : ∃ bytes, Crypto.normalizeKey publicKey = some bytes ∧ hash bytes = digest)
    (hdid : "did:agent:" ++ String.ofList (digest.toList.take 40) = did) :
    createAgentDID ports publicKey = some did := by
  obtain ⟨bytes, hbytes, rfl⟩ := hkey
  rw [createAgentDID, hbytes, Option.map_some]
  exact congrArg some hdid

theorem oldKey_hash : ∃ bytes, Crypto.normalizeKey rotation.oldPublicKey = some bytes ∧
    hash bytes = "d63df8622ba7f5a10a0167ae44c334fb4bfda902dcb96fe4e7948f0b90e09537" := by
  have hold := show Crypto.normalizeKey rotation.oldPublicKey = _ from Crypto.normalizeKey_ofList _
  refine ⟨_, hold.trans rfl, ?_⟩
  rw [hash, hold]
  exact if_pos rfl

theorem newKey_hash : ∃ bytes, Crypto.normalizeKey rotation.newPublicKey = some bytes ∧
    hash bytes = "957a2f69620fa74f98e590ef7fa97466a8663e3b38fc41cf76e5b3a0254693ec" := by
  have hold := show Crypto.normalizeKey rotation.oldPublicKey = _ from Crypto.normalizeKey_ofList _
  have hnew := show Crypto.normalizeKey rotation.newPublicKey = _ from Crypto.normalizeKey_ofList _
  have hprincipal := show Crypto.normalizeKey principalKey = _ from Crypto.normalizeKey_ofList _
  refine ⟨_, hnew.trans rfl, ?_⟩
  rw [hash, hold, hnew, hprincipal, if_neg (by decide), if_neg (by decide)]
  exact if_pos rfl

theorem principalKey_hash : ∃ bytes, Crypto.normalizeKey principalKey = some bytes ∧
    hash bytes = "0bf0ddf4daa2cb675d085d0215ee782f3c2ac9aa4228ba4e1608d34e3ea856a5" := by
  have hold := show Crypto.normalizeKey rotation.oldPublicKey = _ from Crypto.normalizeKey_ofList _
  have hprincipal := show Crypto.normalizeKey principalKey = _ from Crypto.normalizeKey_ofList _
  refine ⟨_, hprincipal.trans rfl, ?_⟩
  rw [hash, hold, hprincipal, if_neg (by decide)]
  exact if_pos rfl

theorem victimKey_hash : ∃ bytes, Crypto.normalizeKey victimKey = some bytes ∧
    hash bytes = "b5aab42bd4242b945be22a8adeb4acd4c042fb930a92688bbb63f3b17dc185b9" := by
  have hold := show Crypto.normalizeKey rotation.oldPublicKey = _ from Crypto.normalizeKey_ofList _
  have hnew := show Crypto.normalizeKey rotation.newPublicKey = _ from Crypto.normalizeKey_ofList _
  have hprincipal := show Crypto.normalizeKey principalKey = _ from Crypto.normalizeKey_ofList _
  have hvictim := show Crypto.normalizeKey victimKey = _ from Crypto.normalizeKey_ofList _
  refine ⟨_, hvictim.trans rfl, ?_⟩
  rw [hash, hold, hnew, hprincipal, if_neg (by decide), if_neg (by decide),
    if_neg (by decide)]

/-- The identifier is the one of the agent's own key. -/
theorem victim_key : createAgentDID ports victimKey = some rotation.agentDid := by
  refine createAgentDID_of_hash victimKey_hash ?_
  rw [show "b5aab42bd4242b945be22a8adeb4acd4c042fb930a92688bbb63f3b17dc185b9".toList = _ from
    String.toList_ofList]
  rfl

def intruder : Intruder ports "2026-06-01T00:00:00.000Z" where
  rotation := rotation
  binding := binding
  agent := agentDid_isDidAgent
  bound := rfl
  principal := principalDid_isDidKey
  bindingText := binding_isValid
  rotationText := rotation_isValid
  distinct := by decide
  principalKey := principalKey
  principalKey_eq := principalDid_key
  unexpired := by simp [binding]
  verify_old := by
    rw [rotationPayload_ports]
    exact verify_signed (by simp [ledger])
  verify_new := by
    rw [rotationPayload_ports]
    exact verify_signed (by simp [ledger])
  verify_principal := by
    rw [rotationPayload_ports]
    exact verify_signed (by simp [ledger])
  verify_binding := by
    rw [bindingPayload_ports]
    exact verify_signed (by simp [ledger])
  underived_old := by
    rw [createAgentDID_of_hash oldKey_hash (by
      rw [show "d63df8622ba7f5a10a0167ae44c334fb4bfda902dcb96fe4e7948f0b90e09537".toList = _ from
        String.toList_ofList])]
    decide
  underived_new := by
    rw [createAgentDID_of_hash newKey_hash (by
      rw [show "957a2f69620fa74f98e590ef7fa97466a8663e3b38fc41cf76e5b3a0254693ec".toList = _ from
        String.toList_ofList])]
    decide

theorem principal_underived : createAgentDID ports principalKey ≠ some rotation.agentDid := by
  rw [createAgentDID_of_hash principalKey_hash (by
    rw [show "0bf0ddf4daa2cb675d085d0215ee782f3c2ac9aa4228ba4e1608d34e3ea856a5".toList = _ from
      String.toList_ofList])]
  decide

/-- The victim's public key under the intruder's principal. -/
def impersonation : AgentIdentityDocument where
  id := rotation.agentDid
  specVersion := "0.2.0"
  principalDid := binding.principalDid
  publicKey := victimKey
  bindingProof := binding
  capabilities := none
  serviceEndpoints := none
  createdAt := rotation.rotatedAt
  updatedAt := rotation.rotatedAt
  version := some 1
  previousPublicKey := none
  rotationProof := none

theorem impersonation_isValid : impersonation.isValid = true := by
  have hagent : isDidAgentText rotation.agentDid.toList = true := agentDid_isDidAgent
  have hprincipal := isDidKeyText_of_isDidKey principalDid_isDidKey
  have hspec : isSpecVersion "0.2.0" = true := by decide
  have hversion : isDocumentVersion 1 = true := by decide
  have hkey : isPublicKey victimKey = true := by
    rw [isPublicKey, show victimKey.toList = _ from String.toList_ofList]
    decide
  have hcreated : Calendar.isIsoText rotation.rotatedAt = true := by
    rw [Calendar.isIsoText, show rotation.rotatedAt.toList = _ from String.toList_ofList]
    decide
  simp only [AgentIdentityDocument.isValid, impersonation, hagent, hspec, hprincipal, hkey,
    hcreated, hversion, binding_isValid, Option.all_none, Option.all_some, Option.isNone_none,
    Bool.and_true, Bool.true_or]

theorem impersonation_verified :
    DocumentVerified ports impersonation "2026-06-01T00:00:00.000Z" where
  schema := impersonation_isValid
  version := by
    show isSpecVersion "0.2.0" = true
    decide
  agent := agentDid_isDidAgent
  principal := principalDid_isDidKey
  certified _ := victim_key
  rotated hlater := absurd rfl hlater
  bindingAgent := rfl
  bindingPrincipal := rfl
  binding := intruder.binding_verified

end Takeover

/-! An agent rotates the key that its identifier is derived from, and registers the document of
its second version. -/

namespace Succession

def rotation : RotationProof where
  oldPublicKey := "d36a3bd9095205b9a587ab66805f9c2e22e41e343e03e71345494b9975c0db5d"
  newPublicKey := "1faf99dfad19b79b9863e19cb3d49f6cfe2517d3e332bbd3d4de268394d1617e"
  oldKeySignature :=
    "Dd5fISZU4LRyaGUpanaebwpf2dnjxMFCaqA60Xs06HOD1nc8GperlEZWBQny7yXQh6mc0VShQNT7WNHTjomlCw"
  newKeySignature :=
    "ET5SSl0jiDKIChZVYOL_nd9wHFe8-xMfXmJBNPRnOsxV9G8DuXwLTmBo22W1iDgHF-ZpBPR2-H4UWTrXGjhrBQ"
  principalSignature :=
    "uNEzbR5S5qkZdKfN8L0B-bOeexbvaFQKNO0WMdfoTI9brlI7CHomYIdA6sWTpPpPYrwldyEJfU9Eb92z9hr8AQ"
  agentDid := "did:agent:0833b7826b07bbe7a673bf8687623f65d99c99fc"
  rotatedAt := "2026-03-01T00:00:00.000Z"

def binding : BindingProof where
  principalDid := "did:key:z6MkhDQ3dU6LvxoKRprLK8RV1Po3CECWbtnaq5NDZHv9uFRe"
  agentDid := "did:agent:0833b7826b07bbe7a673bf8687623f65d99c99fc"
  issuedAt := "2026-03-01T00:00:00.000Z"
  expiresAt := none
  signature :=
    "GNCnPV-Ijz_QqNGEH2gNhAA2r4RTngwaDko4nobceSnBDEZ9fz_C-VVEVuDawMQh6GEAOHHEJ5S_xMZ2SZpEBA"

def principalKey : String := "2905f9cfd4ec0890f9319d1656de3029dcbcf9a5296977ef393ae72ba87b524d"

/-- The SHA-256 digests of the three keys. -/
def hash (bytes : List UInt8) : String :=
  if some bytes = Crypto.normalizeKey rotation.oldPublicKey then
    "0833b7826b07bbe7a673bf8687623f65d99c99fc94940d80565d0bd6888775e0"
  else if some bytes = Crypto.normalizeKey rotation.newPublicKey then
    "393eb74de5cde2b3f32853da9ad453def83761df14b877da962aefa9fcd0b7cf"
  else "03ee8694b82d820bcac5c76c04d804599240d30fbdd9a6df2bbc5d54cbc8bfdc"

def rotationBytes : List UInt8 :=
  utf8 (Json.canonicalize NumberFormat.decimal (.obj [("agentDid", .str rotation.agentDid),
    ("newPublicKey", .str rotation.newPublicKey), ("oldPublicKey", .str rotation.oldPublicKey),
    ("rotatedAt", .str rotation.rotatedAt)]))

def bindingBytes : List UInt8 :=
  utf8 (Json.canonicalize NumberFormat.decimal (.obj [("agentDid", .str binding.agentDid),
    ("issuedAt", .str binding.issuedAt), ("principalDid", .str binding.principalDid)]))

def ledger : List SignedBytes :=
  [⟨rotationBytes, "", rotation.oldPublicKey, rotation.oldKeySignature⟩,
    ⟨rotationBytes, "", rotation.newPublicKey, rotation.newKeySignature⟩,
    ⟨rotationBytes, "", principalKey, rotation.principalSignature⟩,
    ⟨bindingBytes, "", principalKey, binding.signature⟩]

def ports : IdentityPorts where
  numberFormat := NumberFormat.decimal
  verify := verifyIn ledger
  hash := hash
  schemaErrors document := report (document.isValid = true) "/" "validation failed"
  schemaErrors_eq_nil _ := report_eq_nil

theorem rotationPayload_ports : rotationPayload ports rotation = rotationBytes := by
  simp only [rotationPayload, ports, rotationBytes]

theorem bindingPayload_ports : bindingPayload ports binding = bindingBytes := by
  simp only [bindingPayload, ports, bindingBytes]

theorem verify_signed {payload : List UInt8} {publicKey signature : String}
    (hsigned : ⟨payload, "", publicKey, signature⟩ ∈ ledger) :
    ports.verify payload signature publicKey = some true :=
  verifyIn_of_mem hsigned

theorem principalDid_isDidKey : isDidKey binding.principalDid = true := by
  rw [isDidKey, show binding.principalDid.toList = _ from String.toList_ofList,
    show didKeyPrefix = _ from String.toList_ofList,
    show base58Alphabet = _ from String.toList_ofList]
  decide

theorem principalDid_key : extractPublicKeyFromDIDKey binding.principalDid = some principalKey := by
  rw [extractPublicKeyFromDIDKey, if_pos principalDid_isDidKey,
    show binding.principalDid.toList = _ from String.toList_ofList,
    show didKeyPrefix = _ from String.toList_ofList]
  simp only [List.length_cons, List.length_nil, List.drop_succ_cons, List.drop_zero,
    decodeDidKeyPayload, decodeBase58, show base58Alphabet = _ from String.toList_ofList]
  decide +kernel

theorem binding_isValid : binding.isValid = true := by
  rw [BindingProof.isValid, Calendar.isIsoText, isSignature,
    show binding.principalDid.toList = _ from String.toList_ofList,
    show binding.agentDid.toList = _ from String.toList_ofList,
    show binding.issuedAt.toList = _ from String.toList_ofList,
    show binding.signature.toList = _ from String.toList_ofList]
  decide

theorem rotation_isValid : rotation.isValid = true := by
  simp only [RotationProof.isValid, rotation, isPublicKey, isSignature, Calendar.isIsoText]
  repeat rw [String.toList_ofList]
  decide

theorem oldKey_hash : ∃ bytes, Crypto.normalizeKey rotation.oldPublicKey = some bytes ∧
    hash bytes = "0833b7826b07bbe7a673bf8687623f65d99c99fc94940d80565d0bd6888775e0" := by
  have hold := show Crypto.normalizeKey rotation.oldPublicKey = _ from Crypto.normalizeKey_ofList _
  refine ⟨_, hold.trans rfl, ?_⟩
  rw [hash, hold]
  exact if_pos rfl

theorem oldKey_derives : createAgentDID ports rotation.oldPublicKey = some rotation.agentDid := by
  obtain ⟨bytes, hbytes, hdigest⟩ := oldKey_hash
  rw [createAgentDID, hbytes, Option.map_some, show ports.hash bytes = _ from hdigest,
    show "0833b7826b07bbe7a673bf8687623f65d99c99fc94940d80565d0bd6888775e0".toList = _ from
      String.toList_ofList]
  rfl

def owner : Rotator ports "2026-06-01T00:00:00.000Z" where
  rotation := rotation
  binding := binding
  agent := by
    rw [isDidAgent, show rotation.agentDid.toList = _ from String.toList_ofList]
    decide
  bound := rfl
  principal := principalDid_isDidKey
  bindingText := binding_isValid
  rotationText := rotation_isValid
  distinct := by decide
  principalKey := principalKey
  principalKey_eq := principalDid_key
  unexpired := by simp [binding]
  verify_old := by
    rw [rotationPayload_ports]
    exact verify_signed (by simp [ledger])
  verify_new := by
    rw [rotationPayload_ports]
    exact verify_signed (by simp [ledger])
  verify_principal := by
    rw [rotationPayload_ports]
    exact verify_signed (by simp [ledger])
  verify_binding := by
    rw [bindingPayload_ports]
    exact verify_signed (by simp [ledger])

end Succession

end Coivitas.Identity
