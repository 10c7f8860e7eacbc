import Coivitas.Identity.Did

/-! # Verification of single-hop capability tokens

The bytes a token signature covers, and the synchronous verifier of tokens that
a principal issued directly.
-/

namespace Coivitas.Identity

open Foundation Coivitas.Types

/-- What the identity code takes from the crypto package and the runtime. -/
structure SignaturePorts where
  numberFormat : NumberFormat
  /-- Ed25519 verification; `none` when a key or a signature cannot be decoded. -/
  verify : List UInt8 → String → String → Option Bool

variable (P : SignaturePorts)

/-! ## Signed bytes -/

def capabilityTokenPayloadJson (token : CapabilityToken) : Json :=
  .obj ([("capabilities", capabilitiesJson token.capabilities),
    ("expiresAt", .str token.expiresAt), ("id", .str token.id), ("issuedAt", .str token.issuedAt),
    ("issuedTo", .str token.issuedTo), ("issuerDid", .str token.issuerDid),
    ("principalDid", .str token.principalDid), ("revocationUrl", .str token.revocationUrl),
    ("specVersion", .str token.specVersion)] ++
    optionalMember "delegationChain"
      (token.delegationChain.map fun chain => .arr (chain.map DelegationProof.toJson)))

/-- The bytes of a token without its proof. -/
def createCapabilityTokenPayload (token : CapabilityToken) : List UInt8 :=
  utf8 (Json.canonicalize P.numberFormat (capabilityTokenPayloadJson token))

/-- The bytes of a delegation proof without its signature block. -/
def delegationProofPayload (proof : DelegationProof) : List UInt8 :=
  utf8 (Json.canonicalize P.numberFormat (.obj proof.signedMembers))

/-- No bytes are signed both as a token and as a delegation proof. -/
theorem createCapabilityTokenPayload_ne_delegationProofPayload (token : CapabilityToken)
    (proof : DelegationProof) :
    createCapabilityTokenPayload P token ≠ delegationProofPayload P proof := by
  intro h
  have hperm := Json.names_perm_of_sortKeys_eq
    ((Json.canonicalize_eq_iff P.numberFormat).mp (utf8_injective h))
  -- Only a token has an `id`.
  have hid := hperm.mem_iff.mp (List.mem_map_of_mem (f := Prod.fst)
    (List.mem_append_left _ (by simp : ("id", Json.str token.id) ∈ _)))
  cases hversion : proof.dcVersion <;>
    simp [DelegationProof.signedMembers, optionalMember, hversion] at hid

/-! ## Known signatures -/

/-- Bytes that were signed, with the keys and the signature. -/
structure SignedBytes where
  payload : List UInt8
  privateKey : String
  publicKey : String
  signature : String

/-- Verification for a world in which only the listed bytes were signed. -/
def verifyIn (ledger : List SignedBytes) (payload : List UInt8) (signature publicKey : String) :
    Option Bool :=
  some (ledger.any fun s =>
    s.signature == signature && s.publicKey == publicKey && s.payload == payload)

theorem verifyIn_of_mem {ledger : List SignedBytes} {s : SignedBytes} (hs : s ∈ ledger) :
    verifyIn ledger s.payload s.signature s.publicKey = some true :=
  congrArg some (List.any_eq_true.mpr ⟨s, hs, by simp⟩)

/-! ## Keys -/

inductive RotationState where
  | stable
  | rotating
  | frozen
  deriving DecidableEq

structure ResolvedPublicKeys where
  current : String
  previous : Option String
  previousValidBefore : Option String
  rotationState : RotationState
  deriving DecidableEq

/-! ## The synchronous verifier -/

inductive TokenVerificationCode where
  | invalidTokenFormat
  | tokenExpired
  | signatureInvalid
  | delegationChainInvalid
  deriving DecidableEq

/-- A verification that did not succeed: a refusal with its code, or a throw. -/
inductive TokenStop where
  | invalid (code : TokenVerificationCode)
  | threw
  deriving DecidableEq

/-- The part before the first `#`. -/
def didOfVerificationMethod (verificationMethod : String) : String :=
  String.ofList (verificationMethod.toList.takeWhile (· ≠ '#'))

theorem didOfVerificationMethod_key {did : String} (hhash : '#' ∉ did.toList) :
    didOfVerificationMethod (did ++ "#key-1") = did := by
  unfold didOfVerificationMethod
  have htake : (did.toList ++ "#key-1".toList).takeWhile (fun c => decide (c ≠ '#')) = did.toList := by
    rw [List.takeWhile_append_of_pos]
    · have hkey : ("#key-1".toList).takeWhile (fun c => decide (c ≠ '#')) = [] := by decide
      rw [hkey, List.append_nil]
    · intro c hc
      simp only [decide_eq_true_eq]
      rintro rfl
      exact hhash hc
  rw [String.toList_append, htake, String.ofList_toList]

def isDelegated (token : CapabilityToken) : Prop := ∃ chain ∈ token.delegationChain, chain ≠ []

instance (token : CapabilityToken) : Decidable (isDelegated token) := by
  unfold isDelegated
  infer_instance

def isPhase2Scope : Scope → Prop
  | .temporalScope .. => True
  | .cumulativeLimit .. => True
  | _ => False

instance : (scope : Scope) → Decidable (isPhase2Scope scope)
  | .allowlist .. => instDecidableFalse
  | .numericLimit .. => instDecidableFalse
  | .temporalScope .. => instDecidableTrue
  | .cumulativeLimit .. => instDecidableTrue

def issuedInFuture (issuedAt now : String) : Prop :=
  ∃ i ∈ Calendar.getTime issuedAt, ∃ n ∈ Calendar.getTime now, n < i

instance (issuedAt now : String) : Decidable (issuedInFuture issuedAt now) := by
  unfold issuedInFuture
  infer_instance

def orThrow {α : Type} : Option α → Except TokenStop α
  | some a => .ok a
  | none => .error .threw

/-- The identifier checks: without resolved keys only did:key issuers and
signers can be verified. -/
def checkIssuer (token : CapabilityToken) (resolvedKeys : Option ResolvedPublicKeys) :
    Except TokenStop Unit :=
  match resolvedKeys with
  | some _ =>
      require (isDidKey token.issuerDid = true ∨ isDidAgent token.issuerDid = true)
        (.invalid .invalidTokenFormat)
  | none => do
      require (isDidKey token.issuerDid = true) (.invalid .invalidTokenFormat)
      require (isDidAgent (didOfVerificationMethod token.proof.verificationMethod) = false)
        (.invalid .invalidTokenFormat)

/-- The signature checks; a rotated key only vouches for what it signed before
its cutoff. -/
def checkSignature (token : CapabilityToken) (resolvedKeys : Option ResolvedPublicKeys) :
    Except TokenStop Unit :=
  let payload := createCapabilityTokenPayload P token
  match resolvedKeys with
  | some keys => do
      let current ← orThrow (P.verify payload token.proof.value keys.current)
      if current then pure ()
      else
        match keys.previous, keys.previousValidBefore with
        | some previous, some cutoff => do
            require (keys.rotationState = .rotating ∧
              (∃ i ∈ Calendar.getTime token.issuedAt, ∃ c ∈ Calendar.getTime cutoff, i ≤ c))
              (.invalid .signatureInvalid)
            let valid ← orThrow (P.verify payload token.proof.value previous)
            require (valid = true) (.invalid .signatureInvalid)
        | _, _ => throw (.invalid .signatureInvalid)
  | none => do
      let publicKey ← orThrow (extractPublicKeyFromDIDKey token.issuerDid)
      let valid ← orThrow (P.verify payload token.proof.value publicKey)
      require (valid = true) (.invalid .signatureInvalid)

def verifyCapabilityToken (token : CapabilityToken) (now : String)
    (resolvedKeys : Option ResolvedPublicKeys) : Except TokenStop Unit := do
  require (token.isValid = true) (.invalid .invalidTokenFormat)
  checkIssuer token resolvedKeys
  require (¬ issuedInFuture token.issuedAt now) (.invalid .invalidTokenFormat)
  require (¬ isTimestampExpired token.expiresAt now) (.invalid .tokenExpired)
  require (¬ isDelegated token) (.invalid .invalidTokenFormat)
  require (token.specVersion = "0.1.0" → ∀ cap ∈ token.capabilities, ¬ isPhase2Scope cap.scope)
    (.invalid .invalidTokenFormat)
  checkSignature P token resolvedKeys

/-- What a successful check of a directly issued token says. -/
structure VerifiedRoot (token : CapabilityToken) (now : String) : Prop where
  schema : token.isValid = true
  issuer : isDidKey token.issuerDid = true
  signer : isDidAgent (didOfVerificationMethod token.proof.verificationMethod) = false
  issued : ¬ issuedInFuture token.issuedAt now
  unexpired : ¬ isTimestampExpired token.expiresAt now
  undelegated : ¬ isDelegated token
  scopes : token.specVersion = "0.1.0" → ∀ cap ∈ token.capabilities, ¬ isPhase2Scope cap.scope
  signature : ∃ publicKey, extractPublicKeyFromDIDKey token.issuerDid = some publicKey ∧
    P.verify (createCapabilityTokenPayload P token) token.proof.value publicKey = some true

@[simp] theorem orThrow_eq_ok {α : Type} {x : Option α} {a : α} :
    orThrow x = .ok a ↔ x = some a := by
  cases x <;> simp [orThrow]

theorem verifyCapabilityToken_eq_ok {token : CapabilityToken} {now : String} :
    verifyCapabilityToken P token now none = .ok () ↔ VerifiedRoot P token now := by
  simp only [verifyCapabilityToken, checkIssuer, checkSignature, bind_eq_ok, exists_unit,
    require_eq_ok, orThrow_eq_ok]
  constructor
  · rintro ⟨hschema, ⟨hissuer, hsigner⟩, hissued, hexpired, hchain, hscopes, key, hkey, valid,
      hverify, rfl⟩
    exact ⟨hschema, hissuer, hsigner, hissued, hexpired, hchain, hscopes, key, hkey, hverify⟩
  · rintro ⟨hschema, hissuer, hsigner, hissued, hexpired, hchain, hscopes, key, hkey, hverify⟩
    exact ⟨hschema, ⟨hissuer, hsigner⟩, hissued, hexpired, hchain, hscopes, key, hkey, true,
      hverify, rfl⟩

end Coivitas.Identity
