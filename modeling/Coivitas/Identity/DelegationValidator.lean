import Coivitas.Identity.Attenuation
import Coivitas.Identity.TokenVerifier

/-! # Validation of delegation chains

The validator of delegated capability tokens: the gates on the whole token, the
checks of every hop against the parent token that the resolver returns, and the
binding of the leaf. A run that returns `valid: true` is `.ok` with its depth.
-/

namespace Coivitas.Identity

open Foundation Coivitas.Types

inductive DcErrorCode where
  | depthExceeded
  | attenuationViolated
  | delegationChainInvalid
  | signatureInvalid
  | parentTokenRevoked
  | parentTokenNotFound
  | parentTokenExpired
  | expiryExceeded
  | delegatorMismatch
  | cycleDetected
  | rootNotPrincipal
  | invalidTokenFormat
  | rotationNotSupported
  deriving DecidableEq

structure ChainFailure where
  reason : DcErrorCode
  brokenAtIndex : Option Nat
  revokedTokenId : Option String
  detail : Option AttenuationDetail
  deriving DecidableEq

/-- A validation that does not accept: a refusal, or a throw. -/
inductive ChainStop where
  | invalid (failure : ChainFailure)
  | threw
  deriving DecidableEq

def refusal (reason : DcErrorCode) : ChainStop := .invalid ⟨reason, none, none, none⟩

def brokenAt (i : Nat) (reason : DcErrorCode) : ChainStop := .invalid ⟨reason, some i, none, none⟩

def mismatchAt (index : Option Nat) (place : MismatchPlace) : ChainStop :=
  .invalid ⟨.delegationChainInvalid, index, none, some (.capabilitiesMismatch place)⟩

/-- What the caller passes in. Each key set is resolved once; the token resolver
and the revocation check are asked once at every hop. -/
structure ChainPorts extends SignaturePorts where
  resolvePublicKeys : String → Option ResolvedPublicKeys
  isRevoked : Option (Nat → String → Bool)
  resolveToken : Option (Nat → String → Option CapabilityToken)

variable (P : ChainPorts)

/-! ## Parts -/

/-- Equality of capability lists, whatever the order of capabilities and keys. -/
def capabilitiesEqual (a b : List Capability) : Prop :=
  a.length = b.length ∧
    (a.map fun c => Json.canonicalize P.numberFormat c.toJson).insertionSort TextLe =
      (b.map fun c => Json.canonicalize P.numberFormat c.toJson).insertionSort TextLe

instance (a b : List Capability) : Decidable (capabilitiesEqual P a b) :=
  inferInstanceAs (Decidable (_ ∧ _))

/-- The current key first, then the previous one for what was signed before its
cutoff. -/
def verifyDualKey (payload : List UInt8) (signature : String) (keys : ResolvedPublicKeys)
    (signedAt : String) : Except ChainStop Bool :=
  match P.verify payload signature keys.current with
  | none => .error .threw
  | some true => .ok true
  | some false =>
      match keys.previous, keys.previousValidBefore with
      | some previous, some cutoff =>
          if TextLe signedAt cutoff then
            match P.verify payload signature previous with
            | none => .error .threw
            | some valid => .ok valid
          else .ok false
      | _, _ => .ok false

/-- No delegatee occurs twice, or is the first delegator. -/
def checkCycle : List String → List DelegationProof → Except ChainStop Unit
  | _, [] => .ok ()
  | seenDids, proof :: rest =>
      if proof.delegateeDid ∈ seenDids then .error (refusal .cycleDetected)
      else checkCycle (seenDids ++ [proof.delegateeDid]) rest

def resolveKeys (did : String) (i : Nat) : Except ChainStop ResolvedPublicKeys :=
  match P.resolvePublicKeys did with
  | some keys => .ok keys
  | none => .error (brokenAt i .signatureInvalid)

/-- The parent token of a hop, checked against the snapshot in its proof. -/
def checkParent (token : CapabilityToken) (i : Nat) (proof : DelegationProof)
    (parentToken : CapabilityToken) : Except ChainStop Unit := do
  require (proof.delegatorDid = parentToken.issuedTo) (brokenAt i .delegatorMismatch)
  require (parentToken.issuerDid = token.issuerDid ∧
    parentToken.principalDid = token.principalDid) (brokenAt i .rootNotPrincipal)
  require (capabilitiesEqual P proof.parentCapabilities parentToken.capabilities)
    (mismatchAt (some i) .parentCapabilities)
  require (proof.parentExpiresAt = parentToken.expiresAt) (mismatchAt (some i) .parentCapabilities)
  require (parentToken.id = proof.parentTokenId) (mismatchAt (some i) .parentCapabilities)

/-- The signature on the parent token: a root is verified as a token of its own,
an intermediate one was signed by the delegator of the previous hop. -/
def checkParentSignature (now : String) (i : Nat) (previous : Option DelegationProof)
    (parentToken : CapabilityToken) : Except ChainStop Unit :=
  match previous with
  | none => do
      require (¬ isDelegated parentToken) (brokenAt 0 .rootNotPrincipal)
      match verifyCapabilityToken P.toSignaturePorts parentToken now none with
      | .ok () => pure ()
      | .error (.invalid _) => throw (brokenAt 0 .signatureInvalid)
      | .error .threw => throw .threw
  | some prevProof => do
      let keys ← resolveKeys P prevProof.delegatorDid i
      let valid ← verifyDualKey P (createCapabilityTokenPayload P.toSignaturePorts parentToken)
        parentToken.proof.value keys parentToken.issuedAt
      require (valid = true) (brokenAt i .signatureInvalid)

def findParent (resolveToken : Nat → String → Option CapabilityToken) (i : Nat)
    (proof : DelegationProof) : Except ChainStop CapabilityToken :=
  match resolveToken i proof.parentTokenId with
  | some parentToken => .ok parentToken
  | none => .error (brokenAt i .parentTokenNotFound)

/-- The checks of one hop, between the previous proof and the next one. -/
def validateHop (token : CapabilityToken) (resolveToken : Nat → String → Option CapabilityToken)
    (isRevoked : Nat → String → Bool) (now : String) (i : Nat) (previous : Option DelegationProof)
    (proof : DelegationProof) (next : Option DelegationProof) : Except ChainStop Unit := do
  let keys ← resolveKeys P proof.delegatorDid i
  let signatureValid ← verifyDualKey P (delegationProofPayload P.toSignaturePorts proof)
    proof.proof.value keys proof.proof.created
  require (signatureValid = true) (brokenAt i .signatureInvalid)
  let parentToken ← findParent resolveToken i proof
  checkParent P token i proof parentToken
  checkParentSignature P now i previous parentToken
  (validateAttenuation P.numberFormat (some ⟨parentToken.specVersion, token.specVersion⟩)
    proof.parentCapabilities proof.attenuatedCapabilities).mapError fun failure =>
      .invalid ⟨.attenuationViolated, some i, none, some failure.detail⟩
  require (∀ nextProof ∈ next,
    capabilitiesEqual P proof.attenuatedCapabilities nextProof.parentCapabilities)
    (mismatchAt (some (i + 1)) .continuity)
  require (isRevoked i proof.parentTokenId = false)
    (.invalid ⟨.parentTokenRevoked, some i, some proof.parentTokenId, none⟩)
  require (¬ TextLt proof.parentExpiresAt token.expiresAt) (brokenAt i .expiryExceeded)
  require (¬ TextLe proof.parentExpiresAt now) (brokenAt i .expiryExceeded)
  require (∀ prevProof ∈ previous, proof.delegatorDid = prevProof.delegateeDid)
    (brokenAt i .delegatorMismatch)

def validateHops (token : CapabilityToken) (resolveToken : Nat → String → Option CapabilityToken)
    (isRevoked : Nat → String → Bool) (now : String) :
    Nat → Option DelegationProof → List DelegationProof → Except ChainStop Unit
  | _, _, [] => .ok ()
  | i, previous, proof :: rest => do
      validateHop P token resolveToken isRevoked now i previous proof rest.head?
      validateHops token resolveToken isRevoked now (i + 1) (some proof) rest

/-- Every proof is signed by the delegator it names. -/
def checkSigners : Nat → List DelegationProof → Except ChainStop Unit
  | _, [] => .ok ()
  | k, proof :: rest => do
      require (didOfVerificationMethod proof.proof.verificationMethod = proof.delegatorDid)
        (brokenAt k .signatureInvalid)
      checkSigners (k + 1) rest

/-- The checks on the leaf, after all hops. -/
def checkLeaf (token : CapabilityToken) (chain : List DelegationProof) (lastProof : DelegationProof) :
    Except ChainStop Unit := do
  let last := chain.length - 1
  require (token.issuerDid = token.principalDid) (refusal .rootNotPrincipal)
  require (lastProof.delegateeDid = token.issuedTo) (refusal .delegatorMismatch)
  require (capabilitiesEqual P token.capabilities lastProof.attenuatedCapabilities)
    (mismatchAt none .leaf)
  require (didOfVerificationMethod token.proof.verificationMethod = lastProof.delegatorDid)
    (brokenAt last .signatureInvalid)
  checkSigners 0 chain
  let keys ← resolveKeys P lastProof.delegatorDid last
  let valid ← verifyDualKey P (createCapabilityTokenPayload P.toSignaturePorts token)
    token.proof.value keys token.issuedAt
  require (valid = true) (brokenAt last .signatureInvalid)

/-! ## The validator -/

def validateDelegationChain (token : CapabilityToken) (now : String) : Except ChainStop Nat :=
  match token.delegationChain with
  | none => .ok 0
  | some [] => .ok 0
  | some (first :: rest) => do
      let chain := first :: rest
      require (token.isValid = true) (refusal .invalidTokenFormat)
      require (token.specVersion ≠ "0.1.0") (refusal .invalidTokenFormat)
      match P.resolveToken, P.isRevoked with
      | some resolveToken, some isRevoked => do
          require (chain.length ≤ maxDelegationDepth) (refusal .depthExceeded)
          checkCycle [first.delegatorDid] chain
          validateHops P token resolveToken isRevoked now 0 none chain
          checkLeaf P token chain (chain.getLast (List.cons_ne_nil _ _))
          return chain.length
      | _, _ => throw (refusal .invalidTokenFormat)

/-! ## What an accepted chain satisfies -/

/-- A signature of one of the resolved keys of an identity. -/
def SignedBy (did : String) (payload : List UInt8) (signature signedAt : String) : Prop :=
  ∃ keys, P.resolvePublicKeys did = some keys ∧
    verifyDualKey P payload signature keys signedAt = .ok true

/-- The checks a hop passed against the parent token resolved for it. -/
structure HopChecked (token : CapabilityToken)
    (resolveToken : Nat → String → Option CapabilityToken) (isRevoked : Nat → String → Bool)
    (now : String) (i : Nat) (previous : Option DelegationProof) (proof : DelegationProof)
    (next : Option DelegationProof) (parentToken : CapabilityToken) : Prop where
  signed : SignedBy P proof.delegatorDid (delegationProofPayload P.toSignaturePorts proof)
    proof.proof.value proof.proof.created
  resolved : resolveToken i proof.parentTokenId = some parentToken
  holder : proof.delegatorDid = parentToken.issuedTo
  issuer : parentToken.issuerDid = token.issuerDid
  principal : parentToken.principalDid = token.principalDid
  snapshot : capabilitiesEqual P proof.parentCapabilities parentToken.capabilities
  snapshotExpiry : proof.parentExpiresAt = parentToken.expiresAt
  parentId : parentToken.id = proof.parentTokenId
  parentSigned : checkParentSignature P now i previous parentToken = .ok ()
  attenuates : Attenuates P.numberFormat proof.parentCapabilities proof.attenuatedCapabilities
  continues : ∀ nextProof ∈ next,
    capabilitiesEqual P proof.attenuatedCapabilities nextProof.parentCapabilities
  unrevoked : isRevoked i proof.parentTokenId = false
  expiry : TextLe token.expiresAt proof.parentExpiresAt
  live : TextLt now proof.parentExpiresAt
  linked : ∀ prevProof ∈ previous, proof.delegatorDid = prevProof.delegateeDid

theorem resolveKeys_eq_ok {did : String} {i : Nat} {keys : ResolvedPublicKeys} :
    resolveKeys P did i = .ok keys ↔ P.resolvePublicKeys did = some keys := by
  unfold resolveKeys
  split <;> simp_all

theorem findParent_eq_ok {resolveToken : Nat → String → Option CapabilityToken} {i : Nat}
    {proof : DelegationProof} {parentToken : CapabilityToken} :
    findParent resolveToken i proof = .ok parentToken ↔
      resolveToken i proof.parentTokenId = some parentToken := by
  unfold findParent
  split <;> simp_all

/-- The guard sequence of a hop read backwards. -/
theorem validateHop_eq_ok {token : CapabilityToken}
    {resolveToken : Nat → String → Option CapabilityToken} {isRevoked : Nat → String → Bool}
    {now : String} {i : Nat} {previous : Option DelegationProof} {proof : DelegationProof}
    {next : Option DelegationProof} :
    validateHop P token resolveToken isRevoked now i previous proof next = .ok () ↔
      ∃ parentToken,
        HopChecked P token resolveToken isRevoked now i previous proof next parentToken := by
  simp only [validateHop, checkParent, bind_eq_ok, exists_unit, require_eq_ok, mapError_eq_ok,
    validateAttenuation_eq_ok, resolveKeys_eq_ok, findParent_eq_ok, ← textLe_iff_not_lt,
    ← textLt_iff_not_le]
  constructor
  · rintro ⟨keys, hkeys, valid, hvalid, rfl, parentToken, hresolved,
      ⟨hholder, ⟨hissuer, hprincipal⟩, hsnapshot, hexpires, hid⟩, hparent, hatten, hcont,
      hrevoked, hexpiry, hlive, hlinked⟩
    exact ⟨parentToken, ⟨keys, hkeys, hvalid⟩, hresolved, hholder, hissuer, hprincipal, hsnapshot,
      hexpires, hid, hparent, hatten, hcont, hrevoked, hexpiry, hlive, hlinked⟩
  · rintro ⟨parentToken, ⟨keys, hkeys, hvalid⟩, hresolved, hholder, hissuer, hprincipal, hsnapshot,
      hexpires, hid, hparent, hatten, hcont, hrevoked, hexpiry, hlive, hlinked⟩
    exact ⟨keys, hkeys, true, hvalid, rfl, parentToken, hresolved,
      ⟨hholder, ⟨hissuer, hprincipal⟩, hsnapshot, hexpires, hid⟩, hparent, hatten, hcont,
      hrevoked, hexpiry, hlive, hlinked⟩

/-- The hop loop visits every proof with its neighbours. -/
theorem validateHops_eq_ok {token : CapabilityToken}
    {resolveToken : Nat → String → Option CapabilityToken} {isRevoked : Nat → String → Bool}
    {now : String} (i : Nat) (previous : Option DelegationProof) (chain : List DelegationProof) :
    validateHops P token resolveToken isRevoked now i previous chain = .ok () ↔
      ∀ k proof, chain[k]? = some proof →
        validateHop P token resolveToken isRevoked now (i + k)
          (if k = 0 then previous else chain[k - 1]?) proof chain[k + 1]? = .ok () := by
  induction chain generalizing i previous with
  | nil => simp [validateHops]
  | cons first rest ih =>
      simp only [validateHops, bind_eq_ok, exists_unit, ih]
      constructor
      · rintro ⟨hfirst, hrest⟩ k proof hk
        cases k with
        | zero =>
            obtain rfl := Option.some.inj hk
            simpa [List.head?_eq_getElem?] using hfirst
        | succ k =>
            have hstep := hrest k proof (by simpa using hk)
            have hindex : i + 1 + k = i + (k + 1) := by omega
            rw [hindex] at hstep
            cases k with
            | zero => simpa using hstep
            | succ k => simpa using hstep
      · intro h
        refine ⟨by simpa [List.head?_eq_getElem?] using h 0 first rfl, ?_⟩
        intro k proof hk
        have hstep := h (k + 1) proof (by simpa using hk)
        have hindex : i + 1 + k = i + (k + 1) := by omega
        rw [hindex]
        cases k with
        | zero => simpa using hstep
        | succ k => simpa using hstep

theorem checkCycle_eq_ok (seenDids : List String) (chain : List DelegationProof) :
    checkCycle seenDids chain = .ok () ↔
      (chain.map DelegationProof.delegateeDid).Nodup ∧
        ∀ proof ∈ chain, proof.delegateeDid ∉ seenDids := by
  induction chain generalizing seenDids with
  | nil => simp [checkCycle]
  | cons first rest ih =>
      rw [checkCycle]
      split
      next hseen => simp [hseen]
      next hfresh =>
        rw [ih, List.map_cons, List.nodup_cons, List.forall_mem_cons]
        simp only [List.mem_append, List.mem_singleton, not_or, List.mem_map, not_exists, not_and]
        constructor
        · rintro ⟨hnodup, hrest⟩
          exact ⟨⟨fun p hp => (hrest p hp).2, hnodup⟩, hfresh, fun p hp => (hrest p hp).1⟩
        · rintro ⟨⟨hne, hnodup⟩, -, hrest⟩
          exact ⟨hnodup, fun p hp => ⟨hrest p hp, hne p hp⟩⟩

theorem checkSigners_eq_ok (k : Nat) (chain : List DelegationProof) :
    checkSigners k chain = .ok () ↔ ∀ proof ∈ chain,
      didOfVerificationMethod proof.proof.verificationMethod = proof.delegatorDid := by
  induction chain generalizing k with
  | nil => simp [checkSigners]
  | cons first rest ih =>
      simp only [checkSigners, bind_eq_ok, exists_unit, require_eq_ok, ih, List.forall_mem_cons]

/-- Everything the validator has checked of a token it accepts. -/
structure ChainAccepted (token : CapabilityToken) (now : String) (chain : List DelegationProof)
    (resolveToken : Nat → String → Option CapabilityToken) (isRevoked : Nat → String → Bool) :
    Prop where
  schema : token.isValid = true
  version : token.specVersion ≠ "0.1.0"
  tokens : P.resolveToken = some resolveToken
  revocations : P.isRevoked = some isRevoked
  depth : chain.length ≤ maxDelegationDepth
  acyclic : ∀ first ∈ chain.head?,
    (first.delegatorDid :: chain.map DelegationProof.delegateeDid).Nodup
  hops : ∀ k proof, chain[k]? = some proof → ∃ parentToken,
    HopChecked P token resolveToken isRevoked now k (if k = 0 then none else chain[k - 1]?) proof
      chain[k + 1]? parentToken
  root : token.issuerDid = token.principalDid
  signers : ∀ proof ∈ chain,
    didOfVerificationMethod proof.proof.verificationMethod = proof.delegatorDid
  leaf : ∀ last ∈ chain.getLast?, last.delegateeDid = token.issuedTo ∧
    capabilitiesEqual P token.capabilities last.attenuatedCapabilities ∧
    didOfVerificationMethod token.proof.verificationMethod = last.delegatorDid ∧
    SignedBy P last.delegatorDid (createCapabilityTokenPayload P.toSignaturePorts token)
      token.proof.value token.issuedAt

/-- The validator accepts a delegated token exactly when all its checks hold. -/
theorem validateDelegationChain_eq_ok {token : CapabilityToken} {now : String} {depth : Nat}
    {chain : List DelegationProof} (hchain : token.delegationChain = some chain)
    (hne : chain ≠ []) :
    validateDelegationChain P token now = .ok depth ↔
      depth = chain.length ∧ ∃ resolveToken isRevoked,
        ChainAccepted P token now chain resolveToken isRevoked := by
  obtain ⟨first, rest, rfl⟩ := List.exists_cons_of_ne_nil hne
  have hcycle : checkCycle [first.delegatorDid] (first :: rest) = .ok () ↔
      (first.delegatorDid :: (first :: rest).map DelegationProof.delegateeDid).Nodup := by
    rw [checkCycle_eq_ok, List.nodup_cons, and_comm]
    refine and_congr ?_ Iff.rfl
    simp only [List.mem_singleton, List.mem_map, not_exists, not_and]
  have hlast : (first :: rest).getLast? = some ((first :: rest).getLast hne) :=
    List.getLast?_eq_some_getLast hne
  unfold validateDelegationChain
  rw [hchain]
  simp only [checkLeaf, bind_eq_ok, exists_unit, require_eq_ok]
  constructor
  · rintro ⟨hschema, hversion, hrun⟩
    split at hrun
    next resolveToken isRevoked htokens hrevocations =>
      simp only [bind_eq_ok, exists_unit, require_eq_ok, pure_eq_ok, hcycle, validateHops_eq_ok,
        validateHop_eq_ok, checkSigners_eq_ok, resolveKeys_eq_ok, Nat.zero_add] at hrun
      obtain ⟨hdepth, hacyclic, hhops, ⟨hroot, hdelegatee, hleaf, hbinding, hsigners, keys, hkeys,
        valid, hvalid, rfl⟩, rfl⟩ := hrun
      refine ⟨rfl, resolveToken, isRevoked, hschema, hversion, htokens, hrevocations, hdepth,
        ?_, hhops, hroot, hsigners, ?_⟩
      · intro p hp
        obtain rfl := Option.some.inj hp
        exact hacyclic
      · intro last hmem
        obtain rfl := Option.some.inj (hlast.symm.trans hmem)
        exact ⟨hdelegatee, hleaf, hbinding, keys, hkeys, hvalid⟩
    next => simp at hrun
  · rintro ⟨rfl, resolveToken, isRevoked, h⟩
    refine ⟨h.schema, h.version, ?_⟩
    simp only [h.tokens, h.revocations, bind_eq_ok, exists_unit, require_eq_ok, pure_eq_ok, hcycle,
      validateHops_eq_ok, validateHop_eq_ok, checkSigners_eq_ok, resolveKeys_eq_ok, Nat.zero_add]
    obtain ⟨hdelegatee, hleaf, hbinding, keys, hkeys, hvalid⟩ := h.leaf _ hlast
    exact ⟨h.depth, h.acyclic first rfl, h.hops, ⟨h.root, hdelegatee, hleaf, hbinding, h.signers,
      keys, hkeys, true, hvalid, rfl⟩, trivial⟩

end Coivitas.Identity
