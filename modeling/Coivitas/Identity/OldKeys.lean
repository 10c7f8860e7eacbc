import Coivitas.Identity.DelegationAttenuation

/-! # Signatures of old keys

The model of `verifyCapabilityTokenWithChain`, and what holds of the signatures that a
verified token rests on. A previous key vouches for what was signed before its cutoff. The
issuance time of a token is part of what is signed; the creation time of a delegation proof
is not, and only the synchronous verifier asks for the rotation state.
-/

namespace Coivitas.Identity

open Foundation Coivitas.Types

/-- The keys of the signer are asked for once more after the chain is validated. -/
structure TokenPorts extends ChainPorts where
  resolveSigner : String → Option ResolvedPublicKeys

variable (P : TokenPorts)

/-! ## The verifier of delegated tokens -/

def ChainStop.toTokenStop : ChainStop → TokenStop
  | .threw => .threw
  | .invalid failure =>
      .invalid (if failure.reason = .signatureInvalid then .signatureInvalid
        else .delegationChainInvalid)

/-- A comparison of times, which is false for an invalid date. -/
def NoLater (issuedAt cutoff : String) : Prop :=
  ∃ i ∈ Calendar.getTime issuedAt, ∃ c ∈ Calendar.getTime cutoff, i ≤ c

instance (issuedAt cutoff : String) : Decidable (NoLater issuedAt cutoff) := by
  unfold NoLater
  infer_instance

/-- The key of the signer of the top-level proof, with the answer that it comes from. -/
def resolveTopLevel (signerDid : String) :
    Except TokenStop (String × Option ResolvedPublicKeys) :=
  if isDidKey signerDid = true then do
    let publicKey ← orThrow (extractPublicKeyFromDIDKey signerDid)
    return (publicKey, none)
  else if isDidAgent signerDid = true then
    match P.resolveSigner signerDid with
    | none => throw (.invalid .signatureInvalid)
    | some resolved => do
        require (resolved.current ≠ "") (.invalid .signatureInvalid)
        return (resolved.current, some resolved)
  else throw (.invalid .signatureInvalid)

def verifyTopLevel (token : CapabilityToken) (publicKey : String)
    (resolved : Option ResolvedPublicKeys) : Except TokenStop Unit := do
  let payload := createCapabilityTokenPayload P.toSignaturePorts token
  let current ← orThrow (P.verify payload token.proof.value publicKey)
  if current then pure ()
  else
    match resolved.bind (·.previous), resolved.bind (·.previousValidBefore) with
    | some previous, some cutoff => do
        require (NoLater token.issuedAt cutoff) (.invalid .signatureInvalid)
        let valid ← orThrow (P.verify payload token.proof.value previous)
        require (valid = true) (.invalid .signatureInvalid)
    | _, _ => throw (.invalid .signatureInvalid)

def verifyCapabilityTokenWithChain (token : CapabilityToken) (now : String) :
    Except TokenStop Unit :=
  if isDelegated token then do
    require (token.isValid = true) (.invalid .invalidTokenFormat)
    require (¬ issuedInFuture token.issuedAt now) (.invalid .invalidTokenFormat)
    require (¬ isTimestampExpired token.expiresAt now) (.invalid .tokenExpired)
    require (token.specVersion ≠ "0.1.0") (.invalid .invalidTokenFormat)
    let _ ← (validateDelegationChain P.toChainPorts token now).mapError ChainStop.toTokenStop
    let (publicKey, resolved) ←
      resolveTopLevel P (didOfVerificationMethod token.proof.verificationMethod)
    verifyTopLevel P token publicKey resolved
  else verifyCapabilityToken P.toSignaturePorts token now none

/-! ## The signatures behind a token -/

/-- A signature that was checked against the keys of an answer, with the issuance time among the
signed bytes. -/
structure SignedArtifact where
  keys : ResolvedPublicKeys
  payload : List UInt8
  signature : String
  issuedAt : Option String

/-- The token, as it is checked against an answer. -/
def CapabilityToken.artifact (token : CapabilityToken) (keys : ResolvedPublicKeys) :
    SignedArtifact :=
  ⟨keys, createCapabilityTokenPayload P.toSignaturePorts token, token.proof.value,
    some token.issuedAt⟩

/-- No time is signed with a delegation proof. -/
def DelegationProof.artifact (proof : DelegationProof) (keys : ResolvedPublicKeys) :
    SignedArtifact :=
  ⟨keys, delegationProofPayload P.toSignaturePorts proof, proof.proof.value, none⟩

/-- The signatures of a delegated token that are checked against the answer of a resolver. -/
inductive Rests (token : CapabilityToken) (chain : List DelegationProof) : SignedArtifact → Prop
  | proof {proof : DelegationProof} {keys : ResolvedPublicKeys} (hproof : proof ∈ chain)
      (hkeys : P.resolvePublicKeys proof.delegatorDid = some keys) :
      Rests token chain (DelegationProof.artifact P proof keys)
  | parent {k : Nat} {previous proof : DelegationProof}
      {resolveToken : Nat → String → Option CapabilityToken} {parentToken : CapabilityToken}
      {keys : ResolvedPublicKeys} (hprevious : chain[k]? = some previous)
      (hproof : chain[k + 1]? = some proof) (htokens : P.resolveToken = some resolveToken)
      (hparent : resolveToken (k + 1) proof.parentTokenId = some parentToken)
      (hkeys : P.resolvePublicKeys previous.delegatorDid = some keys) :
      Rests token chain (CapabilityToken.artifact P parentToken keys)
  | leaf {last : DelegationProof} {keys : ResolvedPublicKeys} (hlast : chain.getLast? = some last)
      (hkeys : P.resolvePublicKeys last.delegatorDid = some keys) :
      Rests token chain (CapabilityToken.artifact P token keys)
  | topLevel {keys : ResolvedPublicKeys} (hne : chain ≠ []) (hkeys : resolveTopLevel P
      (didOfVerificationMethod token.proof.verificationMethod) = .ok (keys.current, some keys)) :
      Rests token chain (CapabilityToken.artifact P token keys)

variable (V : SignaturePorts)

/-- The signature verifies under the current key. -/
def SignedArtifact.Current (a : SignedArtifact) : Prop :=
  V.verify a.payload a.signature a.keys.current = some true

/-- A signature that only a previous key made is covered by a rotation that goes on, with an
issuance time among the signed bytes that is no later than the cutoff. -/
def SignedArtifact.InWindow (a : SignedArtifact) : Prop :=
  ¬ a.Current V → a.keys.rotationState = .rotating ∧
    ∃ cutoff ∈ a.keys.previousValidBefore, ∃ issuedAt ∈ a.issuedAt, NoLater issuedAt cutoff

/-- No delegation proof needs a previous key, and where a token needs one, the rotation goes on and
the texts of the two times are not ordered against the times. -/
structure OldKeysCovered (token : CapabilityToken) (chain : List DelegationProof) : Prop where
  proofs : ∀ proof ∈ chain, ∀ keys, P.resolvePublicKeys proof.delegatorDid = some keys →
    (DelegationProof.artifact P proof keys).Current P.toSignaturePorts
  rotating : ∀ a, Rests P token chain a → ¬ a.Current P.toSignaturePorts →
    a.keys.rotationState = .rotating
  ordered : ∀ a, Rests P token chain a → ¬ a.Current P.toSignaturePorts →
    ∀ cutoff ∈ a.keys.previousValidBefore, ∀ issuedAt ∈ a.issuedAt,
      TextLe issuedAt cutoff → NoLater issuedAt cutoff

section Soundness

variable {P V} {token : CapabilityToken} {now : String} {chain : List DelegationProof}
  {keys : ResolvedPublicKeys}

theorem CapabilityToken.artifact_current : (CapabilityToken.artifact P token keys).Current V ↔
    V.verify (createCapabilityTokenPayload P.toSignaturePorts token) token.proof.value
      keys.current = some true := by
  rw [SignedArtifact.Current, CapabilityToken.artifact]

/-- The synchronous verifier keeps to the window. -/
theorem inWindow_of_verified (h : verifyCapabilityToken P.toSignaturePorts token now (some keys) =
    .ok ()) : (CapabilityToken.artifact P token keys).InWindow P.toSignaturePorts := by
  intro hcurrent
  rw [CapabilityToken.artifact_current] at hcurrent
  simp only [verifyCapabilityToken, checkSignature, bind_eq_ok, exists_unit, require_eq_ok,
    orThrow_eq_ok] at h
  obtain ⟨-, -, -, -, -, -, current, hverify, h⟩ := h
  split at h
  next htrue =>
    subst htrue
    exact absurd hverify hcurrent
  next =>
    split at h
    next previous cutoff hprevious hcutoff =>
      simp only [bind_eq_ok, exists_unit, require_eq_ok] at h
      exact ⟨h.1.1, cutoff, hcutoff, token.issuedAt, rfl, h.1.2⟩
    next => cases h

/-- What the chain validator asks of a signature that the current key did not make. -/
theorem textLe_of_verifyDualKey {C : ChainPorts} {payload : List UInt8}
    {signature signedAt : String}
    (h : verifyDualKey C payload signature keys signedAt = .ok true)
    (hcurrent : C.verify payload signature keys.current ≠ some true) :
    ∃ cutoff ∈ keys.previousValidBefore, TextLe signedAt cutoff := by
  unfold verifyDualKey at h
  split at h
  next => cases h
  next htrue => exact absurd htrue hcurrent
  next =>
    split at h
    next previous cutoff hprevious hcutoff =>
      split at h
      next hle => exact ⟨cutoff, hcutoff, hle⟩
      next => cases h
    next => cases h

/-- The top-level check compares times. -/
theorem noLater_of_verifyTopLevel
    (h : verifyTopLevel P token keys.current (some keys) = .ok ())
    (hcurrent : ¬ (CapabilityToken.artifact P token keys).Current P.toSignaturePorts) :
    ∃ cutoff ∈ keys.previousValidBefore, NoLater token.issuedAt cutoff := by
  rw [CapabilityToken.artifact_current] at hcurrent
  simp only [verifyTopLevel, bind_eq_ok, orThrow_eq_ok] at h
  obtain ⟨current, hverify, h⟩ := h
  split at h
  next htrue =>
    subst htrue
    exact absurd hverify hcurrent
  next =>
    split at h
    next previous cutoff hprevious hcutoff =>
      simp only [bind_eq_ok, exists_unit, require_eq_ok] at h
      exact ⟨cutoff, hcutoff, h.1⟩
    next => cases h

/-- What a verified delegated token passed. -/
theorem verifyCapabilityTokenWithChain_eq_ok (hchain : token.delegationChain = some chain)
    (hne : chain ≠ []) (h : verifyCapabilityTokenWithChain P token now = .ok ()) :
    ∃ resolveToken isRevoked publicKey resolved,
      ChainAccepted P.toChainPorts token now chain resolveToken isRevoked ∧
      resolveTopLevel P (didOfVerificationMethod token.proof.verificationMethod) =
        .ok (publicKey, resolved) ∧
      verifyTopLevel P token publicKey resolved = .ok () := by
  rw [verifyCapabilityTokenWithChain, if_pos ⟨chain, hchain, hne⟩] at h
  simp only [bind_eq_ok, exists_unit, require_eq_ok, mapError_eq_ok] at h
  obtain ⟨-, -, -, -, depth, hvalid, ⟨publicKey, resolved⟩, hresolved, htop⟩ := h
  obtain ⟨-, resolveToken, isRevoked, haccepted⟩ :=
    (validateDelegationChain_eq_ok P.toChainPorts hchain hne).mp hvalid
  exact ⟨resolveToken, isRevoked, publicKey, resolved, haccepted, hresolved, htop⟩

/-- A previous key was used on a token only where the texts of the two times were compared, or the
times themselves. -/
theorem used_of_rests {resolveToken : Nat → String → Option CapabilityToken}
    {isRevoked : Nat → String → Bool} {publicKey : String} {resolved : Option ResolvedPublicKeys}
    (haccepted : ChainAccepted P.toChainPorts token now chain resolveToken isRevoked)
    (hresolved : resolveTopLevel P (didOfVerificationMethod token.proof.verificationMethod) =
      .ok (publicKey, resolved))
    (htop : verifyTopLevel P token publicKey resolved = .ok ()) {a : SignedArtifact}
    (ha : Rests P token chain a) (hcurrent : ¬ a.Current P.toSignaturePorts) :
    (∃ proof ∈ chain, ∃ keys, P.resolvePublicKeys proof.delegatorDid = some keys ∧
        a = DelegationProof.artifact P proof keys) ∨
      ∃ cutoff ∈ a.keys.previousValidBefore, ∃ issuedAt ∈ a.issuedAt,
        TextLe issuedAt cutoff ∨ NoLater issuedAt cutoff := by
  cases ha with
  | proof hproof hkeys => exact Or.inl ⟨_, hproof, _, hkeys, rfl⟩
  | @parent k previous proof resolveToken' parentToken keys hprevious hproof htokens hparent
      hkeys =>
      right
      obtain rfl := Option.some.inj (haccepted.tokens.symm.trans htokens)
      obtain ⟨parentToken', hhop⟩ := haccepted.hops (k + 1) proof hproof
      obtain rfl := Option.some.inj (hhop.resolved.symm.trans hparent)
      have hsigned := hhop.parentSigned
      simp only [Nat.add_eq_zero_iff, Nat.one_ne_zero, and_false, if_false, Nat.add_sub_cancel,
        hprevious, checkParentSignature, bind_eq_ok, require_eq_ok, resolveKeys_eq_ok] at hsigned
      obtain ⟨keys', hkeys', valid, hdual, rfl⟩ := hsigned
      obtain rfl := Option.some.inj (hkeys'.symm.trans hkeys)
      rw [CapabilityToken.artifact_current] at hcurrent
      obtain ⟨cutoff, hcutoff, hle⟩ := textLe_of_verifyDualKey hdual hcurrent
      exact ⟨cutoff, hcutoff, _, rfl, Or.inl hle⟩
  | @leaf last keys hlast hkeys =>
      right
      obtain ⟨-, -, -, keys', hkeys', hdual⟩ := haccepted.leaf last hlast
      obtain rfl := Option.some.inj (hkeys'.symm.trans hkeys)
      rw [CapabilityToken.artifact_current] at hcurrent
      obtain ⟨cutoff, hcutoff, hle⟩ := textLe_of_verifyDualKey hdual hcurrent
      exact ⟨cutoff, hcutoff, _, rfl, Or.inl hle⟩
  | @topLevel keys hne hkeys =>
      right
      obtain ⟨rfl, rfl⟩ := Prod.mk.inj (Except.ok.inj (hresolved.symm.trans hkeys))
      obtain ⟨cutoff, hcutoff, hle⟩ := noLater_of_verifyTopLevel htop hcurrent
      exact ⟨cutoff, hcutoff, _, rfl, Or.inr hle⟩

/-- Without a chain no answer is asked for. -/
theorem not_rests_nil (a : SignedArtifact) : ¬ Rests P token [] a := by
  rintro (⟨hproof, -⟩ | ⟨hprevious, -⟩ | ⟨hlast, -⟩ | ⟨hne, -⟩)
  · cases hproof
  · cases hprevious
  · cases hlast
  · exact hne rfl

end Soundness

/-- The synchronous verifier accepts old keys in the rotation window only. A verified delegated
token rests on signatures within the window exactly when no delegation proof needs a previous key
and every token that needs one is covered. -/
theorem old_keys_in_window_iff (P : TokenPorts) (token : CapabilityToken) (now : String) :
    (∀ keys, verifyCapabilityToken P.toSignaturePorts token now (some keys) = .ok () →
      (CapabilityToken.artifact P token keys).InWindow P.toSignaturePorts) ∧
    (verifyCapabilityTokenWithChain P token now = .ok () → ∀ chain ∈ token.delegationChain,
      ((∀ a, Rests P token chain a → a.InWindow P.toSignaturePorts) ↔
        OldKeysCovered P token chain)) := by
  refine ⟨fun keys => inWindow_of_verified, fun h chain hchain => ?_⟩
  rcases eq_or_ne chain [] with rfl | hne
  · refine iff_of_true (fun a ha => absurd ha (not_rests_nil a)) ⟨by simp, ?_, ?_⟩
    · exact fun a ha => absurd ha (not_rests_nil a)
    · exact fun a ha => absurd ha (not_rests_nil a)
  obtain ⟨resolveToken, isRevoked, publicKey, resolved, haccepted, hresolved, htop⟩ :=
    verifyCapabilityTokenWithChain_eq_ok hchain hne h
  constructor
  · intro hwindow
    refine ⟨fun proof hproof keys hkeys => ?_, fun a ha hcurrent => (hwindow a ha hcurrent).1,
      fun a ha hcurrent cutoff hcutoff issuedAt hissued _ => ?_⟩
    · by_contra hcurrent
      obtain ⟨-, -, -, issuedAt, hissued, -⟩ := hwindow _ (.proof hproof hkeys) hcurrent
      cases hissued
    · obtain ⟨-, cutoff', hcutoff', issuedAt', hissued', hle⟩ := hwindow a ha hcurrent
      obtain rfl := Option.mem_unique hcutoff hcutoff'
      obtain rfl := Option.mem_unique hissued hissued'
      exact hle
  · intro hcovered a ha hcurrent
    refine ⟨hcovered.rotating a ha hcurrent, ?_⟩
    rcases used_of_rests haccepted hresolved htop ha hcurrent with
      ⟨proof, hproof, keys, hkeys, rfl⟩ | ⟨cutoff, hcutoff, issuedAt, hissued, hle⟩
    · exact absurd (hcovered.proofs proof hproof keys hkeys) hcurrent
    · refine ⟨cutoff, hcutoff, issuedAt, hissued, ?_⟩
      exact hle.elim (hcovered.ordered a ha hcurrent cutoff hcutoff issuedAt hissued) id

/-- Other answers, under which the signatures of an accepted chain verify as well. -/
theorem ChainAccepted.rekeyed {C : ChainPorts} {token : CapabilityToken} {now : String}
    {chain : List DelegationProof} {resolveToken : Nat → String → Option CapabilityToken}
    {isRevoked : Nat → String → Bool} (resolve : String → Option ResolvedPublicKeys)
    (h : ChainAccepted C token now chain resolveToken isRevoked)
    (hproofs : ∀ proof ∈ chain, SignedBy { C with resolvePublicKeys := resolve }
      proof.delegatorDid (delegationProofPayload C.toSignaturePorts proof) proof.proof.value
      proof.proof.created)
    (hparents : ∀ k previous proof parentToken, chain[k]? = some previous →
      chain[k + 1]? = some proof → resolveToken (k + 1) proof.parentTokenId = some parentToken →
      SignedBy { C with resolvePublicKeys := resolve } previous.delegatorDid
        (createCapabilityTokenPayload C.toSignaturePorts parentToken) parentToken.proof.value
        parentToken.issuedAt)
    (hleaf : ∀ last ∈ chain.getLast?, SignedBy { C with resolvePublicKeys := resolve }
      last.delegatorDid (createCapabilityTokenPayload C.toSignaturePorts token)
      token.proof.value token.issuedAt) :
    ChainAccepted { C with resolvePublicKeys := resolve } token now chain resolveToken
      isRevoked := by
  have hhops : ∀ k proof, chain[k]? = some proof → ∃ parentToken,
      HopChecked { C with resolvePublicKeys := resolve } token resolveToken isRevoked now k
        (if k = 0 then none else chain[k - 1]?) proof chain[k + 1]? parentToken := by
    intro k proof hk
    obtain ⟨parentToken, hhop⟩ := h.hops k proof hk
    refine ⟨parentToken, hproofs proof (List.mem_of_getElem? hk), hhop.resolved, hhop.holder,
      hhop.issuer, hhop.principal, hhop.snapshot, hhop.snapshotExpiry, hhop.parentId, ?_,
      hhop.attenuates, hhop.continues, hhop.unrevoked, hhop.expiry, hhop.live, hhop.linked⟩
    cases k with
    | zero => exact hhop.parentSigned
    | succ k =>
        obtain ⟨previous, hprevious⟩ : ∃ previous, chain[k]? = some previous :=
          ⟨_, List.getElem?_eq_getElem
            ((Nat.lt_succ_self k).trans (List.getElem?_eq_some_iff.mp hk).1)⟩
        obtain ⟨keys, hkeys, hdual⟩ :=
          hparents k previous proof parentToken hprevious hk hhop.resolved
        simp only [Nat.add_eq_zero_iff, Nat.one_ne_zero, and_false, if_false, Nat.add_sub_cancel,
          hprevious, checkParentSignature, bind_eq_ok, require_eq_ok, resolveKeys_eq_ok]
        exact ⟨keys, hkeys, true, hdual, rfl⟩
  refine ⟨h.schema, h.version, h.tokens, h.revocations, h.depth, h.acyclic, hhops, h.root,
    h.signers, fun last hlast => ?_⟩
  obtain ⟨hdelegatee, hcapabilities, hsigner, -⟩ := h.leaf last hlast
  exact ⟨hdelegatee, hcapabilities, hsigner, hleaf last hlast⟩

/-! ## A proof under a key that was rotated away -/

namespace Relay

/-- The relay with a stable answer for everyone. -/
def stablePorts : TokenPorts where
  toChainPorts := ports ledger [root, writerToken] []
  resolveSigner did := some ⟨(keyPair did).2, none, none, .stable⟩

def ownerKeys : ResolvedPublicKeys := ⟨(keyPair owner).2, none, none, .stable⟩

theorem root_verified_with_keys :
    verifyCapabilityToken stablePorts.toSignaturePorts root today (some ownerKeys) = .ok () := by
  have hroot : VerifiedRoot (ports ledger [root, writerToken] []).toSignaturePorts root today :=
    rootToken_verified _ _ root_isValid List.mem_cons_self
  obtain ⟨key, hkey, hverify⟩ := hroot.signature
  obtain rfl := Option.some.inj (hkey.symm.trans owner_key)
  simp only [verifyCapabilityToken, checkIssuer, checkSignature, bind_eq_ok, exists_unit,
    require_eq_ok, orThrow_eq_ok]
  exact ⟨hroot.schema, Or.inl hroot.issuer, hroot.issued, hroot.unexpired, hroot.undelegated,
    hroot.scopes, true, hverify, rfl⟩

theorem helperToken_signer :
    didOfVerificationMethod helperToken.proof.verificationMethod = writer :=
  didOfVerificationMethod_key (hash_not_mem_of_isDidAgent writer_isDidAgent)

/-- The checks after the chain, for any answers under which the chain is accepted. -/
theorem helperToken_verified {P : TokenPorts}
    (hchain : validateDelegationChain P.toChainPorts helperToken today = .ok 2)
    (hsigner : P.resolveSigner writer = some ⟨(keyPair writer).2, none, none, .stable⟩)
    (hverify : P.verify (createCapabilityTokenPayload P.toSignaturePorts helperToken)
      helperToken.proof.value (keyPair writer).2 = some true) :
    verifyCapabilityTokenWithChain P helperToken today = .ok () := by
  have hkind : ¬ isDidKey writer = true := fun hkey =>
    absurd (isDidAgent_eq_false_of_isDidKey hkey) (by rw [writer_isDidAgent]; decide)
  have hkey : (keyPair writer).2 ≠ "" := by decide
  have hissued : ¬ issuedInFuture helperToken.issuedAt today := by
    show ¬ issuedInFuture "2026-03-01T00:00:00.000Z" today
    decide +kernel
  have hexpires : ¬ isTimestampExpired helperToken.expiresAt today := by
    show ¬ isTimestampExpired "2026-11-01T00:00:00.000Z" today
    decide +kernel
  have hversion : helperToken.specVersion ≠ "0.1.0" := by
    show "0.2.0" ≠ "0.1.0"
    decide
  have hresolved : resolveTopLevel P writer =
      .ok ((keyPair writer).2, some ⟨(keyPair writer).2, none, none, .stable⟩) := by
    rw [resolveTopLevel, if_neg hkind, if_pos writer_isDidAgent, hsigner]
    simp only [bind_eq_ok, exists_unit, require_eq_ok, pure_eq_ok]
    exact ⟨hkey, trivial⟩
  rw [verifyCapabilityTokenWithChain, if_pos ⟨_, rfl, List.cons_ne_nil _ _⟩]
  simp only [bind_eq_ok, exists_unit, require_eq_ok, mapError_eq_ok, helperToken_signer,
    hresolved, verifyTopLevel, orThrow_eq_ok]
  exact ⟨helperToken_isValid, hissued, hexpires, hversion, 2, hchain, _, rfl, true, hverify, rfl⟩

theorem verify_signedToken {P : TokenPorts} (hformat : P.numberFormat = NumberFormat.decimal)
    (hledger : P.verify = verifyIn ledger) {signer : String} {token : CapabilityToken}
    (hsigned : signedToken signer token ∈ ledger) :
    P.verify (createCapabilityTokenPayload P.toSignaturePorts token) token.proof.value
      (keyPair signer).2 = some true := by
  have hpayload : createCapabilityTokenPayload P.toSignaturePorts token =
      (signedToken signer token).payload := by
    simp only [createCapabilityTokenPayload, signedToken, hformat]
  rw [hpayload, hledger]
  exact verifyIn_of_mem hsigned

theorem old_keys_in_window_stable :
    (verifyCapabilityToken stablePorts.toSignaturePorts root today (some ownerKeys) = .ok () ∧
      (CapabilityToken.artifact stablePorts root ownerKeys).InWindow
        stablePorts.toSignaturePorts) ∧
    verifyCapabilityTokenWithChain stablePorts helperToken today = .ok () ∧
      ((∀ a, Rests stablePorts helperToken [editorProof, writerProof] a →
          a.InWindow stablePorts.toSignaturePorts) ↔
        OldKeysCovered stablePorts helperToken [editorProof, writerProof]) := by
  have hverified : verifyCapabilityTokenWithChain stablePorts helperToken today = .ok () :=
    helperToken_verified helperToken_accepted rfl
      (@verify_signedToken stablePorts rfl rfl writer helperToken (by simp [ledger]))
  exact ⟨⟨root_verified_with_keys,
      (old_keys_in_window_iff stablePorts root today).1 ownerKeys root_verified_with_keys⟩,
    hverified, (old_keys_in_window_iff stablePorts helperToken today).2 hverified _ rfl⟩

/-- The key of the editor after a rotation that began on the fifteenth of February. -/
def rotatedKeys : ResolvedPublicKeys where
  current := "03a107bff3ce10be1d70dd18e74bc09967e4d6309ba50d5f1ddc8664125531b8"
  previous := some (keyPair editor).2
  previousValidBefore := some "2026-02-15T00:00:00.000Z"
  rotationState := .rotating

def rotatedPorts : TokenPorts where
  toChainPorts := { ports ledger [root, writerToken] [] with
    resolvePublicKeys := fun did => if did = editor then some rotatedKeys
      else some ⟨(keyPair did).2, none, none, .stable⟩ }
  resolveSigner did := some ⟨(keyPair did).2, none, none, .stable⟩

theorem rotated_keys : rotatedPorts.resolvePublicKeys editor = some rotatedKeys := by
  show (if editor = editor then some rotatedKeys
    else some ⟨(keyPair editor).2, none, none, .stable⟩) = some rotatedKeys
  exact if_pos rfl

/-- What the editor signed before the cutoff verifies under the previous key only. -/
theorem rotated_editor {s : SignedBytes} {signedAt : String} (hs : s ∈ ledger)
    (hkey : s.publicKey = (keyPair editor).2)
    (hbefore : TextLe signedAt "2026-02-15T00:00:00.000Z") :
    verifyIn ledger s.payload s.signature rotatedKeys.current = some false ∧
      SignedBy rotatedPorts.toChainPorts editor s.payload s.signature signedAt := by
  have hfresh : verifyIn ledger s.payload s.signature rotatedKeys.current = some false := by
    have hother : ∀ t ∈ ledger, t.publicKey ≠ rotatedKeys.current := by
      simp only [ledger, List.forall_mem_cons, signedToken, signedProof]
      decide
    refine congrArg some (List.any_eq_false.mpr fun t ht => ?_)
    simp [hother t ht]
  have hprevious : verifyIn ledger s.payload s.signature (keyPair editor).2 = some true :=
    hkey ▸ verifyIn_of_mem hs
  refine ⟨hfresh, rotatedKeys, rotated_keys, ?_⟩
  have hcurrent : rotatedPorts.verify s.payload s.signature rotatedKeys.current = some false :=
    hfresh
  have hold : rotatedPorts.verify s.payload s.signature (keyPair editor).2 = some true :=
    hprevious
  have hwindow : rotatedKeys.previous = some (keyPair editor).2 ∧
      rotatedKeys.previousValidBefore = some "2026-02-15T00:00:00.000Z" := ⟨rfl, rfl⟩
  simp only [verifyDualKey, hcurrent, hwindow, if_pos hbefore, hold]

theorem rotated_other {did signedAt : String} {s : SignedBytes} (hs : s ∈ ledger)
    (hdid : did ≠ editor) (hkey : s.publicKey = (keyPair did).2) :
    SignedBy rotatedPorts.toChainPorts did s.payload s.signature signedAt := by
  have hverify : rotatedPorts.verify s.payload s.signature (keyPair did).2 = some true :=
    hkey ▸ verifyIn_of_mem hs
  refine ⟨⟨(keyPair did).2, none, none, .stable⟩, ?_, ?_⟩
  · show (if did = editor then some rotatedKeys else _) = _
    exact if_neg hdid
  · simp only [verifyDualKey, hverify]

theorem helperToken_accepted_rotated :
    validateDelegationChain rotatedPorts.toChainPorts helperToken today = .ok 2 := by
  have hne : [editorProof, writerProof] ≠ [] := List.cons_ne_nil _ _
  obtain ⟨-, resolveToken, isRevoked, haccepted⟩ :=
    (validateDelegationChain_eq_ok (ports ledger [root, writerToken] []) rfl hne).mp
      helperToken_accepted
  have hbefore : TextLe "2026-02-01T00:00:00.000Z" "2026-02-15T00:00:00.000Z" := by decide
  have hwriter : writer ≠ editor := by decide
  refine (validateDelegationChain_eq_ok rotatedPorts.toChainPorts rfl hne).mpr
    ⟨rfl, resolveToken, isRevoked, haccepted.rekeyed _ ?_ ?_ ?_⟩
  · rw [List.forall_mem_cons, List.forall_mem_singleton, ← payload_signedProof,
      ← payload_signedProof]
    exact ⟨(@rotated_editor (signedProof editorProof) _ (by simp [ledger]) rfl hbefore).2,
      @rotated_other writer _ (signedProof writerProof) (by simp [ledger]) hwriter rfl⟩
  · intro k previous proof parentToken hprevious hproof hresolved
    cases k with
    | succ k => simp at hproof
    | zero =>
        obtain rfl := Option.some.inj hprevious
        obtain rfl := Option.some.inj hproof
        have hfound : [root, writerToken].find? (·.id == writerToken.id) = some writerToken := by
          decide
        obtain rfl : (fun _ id => [root, writerToken].find? (·.id == id)) = resolveToken :=
          Option.some.inj haccepted.tokens
        obtain rfl := Option.some.inj (hfound.symm.trans hresolved)
        rw [← payload_signedToken editor]
        exact (@rotated_editor (signedToken editor writerToken) _ (by simp [ledger]) rfl hbefore).2
  · intro last hlast
    rw [List.getLast?_cons_cons, List.getLast?_singleton] at hlast
    obtain rfl := Option.some.inj hlast
    rw [← payload_signedToken writer]
    exact @rotated_other writer _ (signedToken writer helperToken) (by simp [ledger]) hwriter rfl

/-- The proof of the editor carries no signed time, and its key was rotated away. -/
theorem old_keys_in_window_rotated :
    ¬ ∀ (P : TokenPorts) (token : CapabilityToken) (now : String),
      verifyCapabilityTokenWithChain P token now = .ok () → ∀ chain ∈ token.delegationChain,
        ∀ a, Rests P token chain a → a.InWindow P.toSignaturePorts := by
  intro hclaim
  have hverified : verifyCapabilityTokenWithChain rotatedPorts helperToken today = .ok () :=
    helperToken_verified helperToken_accepted_rotated rfl
      (@verify_signedToken rotatedPorts rfl rfl writer helperToken (by simp [ledger]))
  obtain ⟨hfresh, -⟩ :=
    @rotated_editor (signedProof editorProof) "2026-02-01T00:00:00.000Z" (by simp [ledger]) rfl
      (by decide)
  have hcurrent : ¬ (DelegationProof.artifact rotatedPorts editorProof rotatedKeys).Current
      rotatedPorts.toSignaturePorts := by
    intro hcurrent
    cases hfresh.symm.trans hcurrent
  obtain ⟨-, -, -, issuedAt, hissued, -⟩ := hclaim rotatedPorts helperToken today hverified _ rfl _
    (.proof List.mem_cons_self rotated_keys) hcurrent
  cases hissued

end Relay

end Coivitas.Identity
