import Coivitas.Identity.AttenuationOrder
import Coivitas.Identity.DelegationValidator

/-! # Attenuation along an accepted chain

Each hop is checked against its own neighbours only, and across two
representations: the snapshots in the proofs and the parent tokens the resolver
returns. Composed along the chain, the leaf attenuates every resolved ancestor.
-/

namespace Coivitas.Identity

open Foundation Coivitas.Types

variable {P : ChainPorts}

/-- The capabilities with the keys of every meter field in one order. -/
def sortedKeys (capabilities : List Capability) : List Capability :=
  capabilities.map Capability.sortKeys

/-- Equal capability lists are permutations of each other up to key order. -/
theorem capabilitiesEqual_perm {a b : List Capability} (h : capabilitiesEqual P a b) :
    (sortedKeys a).Perm (sortedKeys b) := by
  let text : Capability → String := fun c => Json.canonicalize P.numberFormat c.toJson
  have hperm : (a.map text).Perm (b.map text) := by
    apply (List.perm_insertionSort TextLe _).symm.trans
    rw [h.2]
    exact List.perm_insertionSort TextLe _
  -- The text determines the sorted form, so the permutation carries over to it.
  have hfactor : Function.FactorsThrough Capability.sortKeys text := fun c c' htext =>
    Capability.sortKeys_eq_of_canonicalize P.numberFormat htext
  have hextend : ∀ l : List Capability, (l.map text).map
      (Function.extend text Capability.sortKeys fun _ => ⟨"", .allowlist "" []⟩) =
        sortedKeys l := by
    intro l
    rw [List.map_map, hfactor.extend_comp]
    rfl
  rw [← hextend a, ← hextend b]
  exact hperm.map _

/-- From a hop on, the attenuations of the chain compose down to the leaf. -/
theorem attenuates_leaf {token : CapabilityToken} {now : String} {chain : List DelegationProof}
    {resolveToken : Nat → String → Option CapabilityToken} {isRevoked : Nat → String → Bool}
    (haccepted : ChainAccepted P token now chain resolveToken isRevoked) (n : Nat) :
    ∀ k proof, chain[k]? = some proof → k + n + 1 = chain.length →
      Attenuates P.numberFormat (sortedKeys proof.parentCapabilities)
        (sortedKeys token.capabilities) := by
  induction n with
  | zero =>
      intro k proof hk hlength
      obtain ⟨parentToken, hhop⟩ := haccepted.hops k proof hk
      have hlast : chain.getLast? = some proof := by
        rw [List.getLast?_eq_getElem?, ← hk]
        congr 1
        omega
      obtain ⟨-, hleaf, -⟩ := haccepted.leaf proof hlast
      exact hhop.attenuates.sortKeys.perm (List.Perm.refl _) (capabilitiesEqual_perm hleaf).symm
  | succ n ih =>
      intro k proof hk hlength
      obtain ⟨parentToken, hhop⟩ := haccepted.hops k proof hk
      obtain ⟨next, hnext⟩ : ∃ next, chain[k + 1]? = some next :=
        ⟨chain[k + 1], List.getElem?_eq_getElem (by omega)⟩
      have hrest := ih (k + 1) next hnext (by omega)
      have hcontinues := capabilitiesEqual_perm (hhop.continues next hnext)
      exact hhop.attenuates.sortKeys.trans
        (hrest.perm hcontinues.symm (List.Perm.refl _))

/-- An accepted delegated token attenuates every ancestor the resolver returned,
expires no later than each, and passes through pairwise distinct identities. -/
theorem validateDelegationChain_attenuates {token : CapabilityToken} {now : String} {depth : Nat}
    {chain : List DelegationProof} (hchain : token.delegationChain = some chain)
    (hne : chain ≠ []) (haccepted : validateDelegationChain P token now = .ok depth) :
    ∃ resolveToken, P.resolveToken = some resolveToken ∧
      (∀ k proof, chain[k]? = some proof → ∃ ancestor,
        resolveToken k proof.parentTokenId = some ancestor ∧
        (∀ versions, validateAttenuation P.numberFormat versions
          (sortedKeys ancestor.capabilities) (sortedKeys token.capabilities) = .ok ()) ∧
        TextLe token.expiresAt ancestor.expiresAt) ∧
      ∀ first ∈ chain.head?,
        (first.delegatorDid :: chain.map DelegationProof.delegateeDid).Nodup := by
  obtain ⟨-, resolveToken, isRevoked, hchecked⟩ :=
    (validateDelegationChain_eq_ok P hchain hne).mp haccepted
  refine ⟨resolveToken, hchecked.tokens, ?_, hchecked.acyclic⟩
  intro k proof hk
  obtain ⟨ancestor, hhop⟩ := hchecked.hops k proof hk
  have hlt : k < chain.length := (List.getElem?_eq_some_iff.mp hk).1
  have hleaf := attenuates_leaf hchecked (chain.length - 1 - k) k proof hk (by omega)
  refine ⟨ancestor, hhop.resolved, ?_, hhop.snapshotExpiry ▸ hhop.expiry⟩
  intro versions
  rw [validateAttenuation_eq_ok]
  exact hleaf.perm (capabilitiesEqual_perm hhop.snapshot) (List.Perm.refl _)

/-! An owner issues a token to an editor, who delegates to a writer, who delegates
to a helper. Keys and signatures are those of Ed25519. -/

namespace Relay

def owner : String := "did:key:z6MkuFTkJCZWP6hzDRkwrBHV62CCSLvzPqaj5a66KsBjGA6Y"

def editor : String := "did:agent:bcb87e6537efe28620ec0d8ef6e8e7e50e39bfad"

def writer : String := "did:agent:9b4a34f54d44073828ac05ac188df054c2ab41ff"

def helper : String := "did:agent:87741cbdcbccf24d6c1084e5d683555df72ebc06"

/-- The private and the public key of an identity. -/
def keyPair (did : String) : String × String :=
  if did = owner then ("4613a02a5efca6e8feca5edebc67fb96cf867eba40f30ba1ce0ef2e8d1db4558",
    "dbd990c3c0275fae834c3751a484a0a8b836542fe0296b3f6897f1a5ebf99d3d")
  else if did = editor then ("5c837f3a55605558d46009722323aad8a195c81f4074518c3fbaf5b6524a1f31",
    "ba11280b75ee1c190b2dc439528f1d970c73634298d1f5f98a5c6eff6acfa554")
  else if did = writer then ("e94aa039b83357a3856dabd8706ae972b57d187a8258644f69fb969cce154451",
    "46e4beca45f810a02d8c96a239f78d794a869492cd6aa9d5063b332f6469e79f")
  else ("577246903640b01597764c6c4c80f6725a16dc26e6cc5b6d3cb9ca7f84aa0b92",
    "7c65f03c3e44ffa890bbcb04895a1c9e970596ddddef79c67e204d107c2d80c3")

def channels (values : List String) : List Capability := [⟨"PUBLISH", .allowlist "channel" values⟩]

/-- A root token that the owner issued to the editor. -/
def rootToken (id value : String) : CapabilityToken where
  id := id
  specVersion := "0.1.0"
  issuerDid := owner
  principalDid := owner
  issuedTo := editor
  issuedAt := "2026-01-01T00:00:00.000Z"
  expiresAt := "2027-01-01T00:00:00.000Z"
  capabilities := channels ["blog", "news"]
  revocationUrl := "https://revoke.example/\x7bid\x7d"
  proof := ⟨"2026-01-01T00:00:00.000Z", owner ++ "#key-1", value⟩
  delegationChain := none

/-- The proof that the holder of a token delegated its blog channel. -/
def blogProof (parent : CapabilityToken) (delegatee created value : String) : DelegationProof where
  parentTokenId := parent.id
  delegatorDid := parent.issuedTo
  delegateeDid := delegatee
  parentCapabilities := parent.capabilities
  parentExpiresAt := parent.expiresAt
  attenuatedCapabilities := channels ["blog"]
  proof := ⟨created, parent.issuedTo ++ "#key-1", value⟩
  dcVersion := none

/-- The token of the last delegatee of a chain. -/
def blogToken (parent : CapabilityToken) (chain : List DelegationProof)
    (id delegatee issuedAt expiresAt value : String) : CapabilityToken where
  id := id
  specVersion := "0.2.0"
  issuerDid := parent.issuerDid
  principalDid := parent.principalDid
  issuedTo := delegatee
  issuedAt := issuedAt
  expiresAt := expiresAt
  capabilities := channels ["blog"]
  revocationUrl := "https://revoke.example/\x7bid\x7d"
  proof := ⟨issuedAt, parent.issuedTo ++ "#key-1", value⟩
  delegationChain := some chain

def editorProofOn (root : CapabilityToken) (value : String) : DelegationProof :=
  blogProof root writer "2026-02-01T00:00:00.000Z" value

def writerTokenUnder (root : CapabilityToken) (chain : List DelegationProof) (id value : String) :
    CapabilityToken :=
  blogToken root chain id writer "2026-02-01T00:00:00.000Z" "2026-12-01T00:00:00.000Z" value

def writerProofOn (parent : CapabilityToken) (delegatee value : String) : DelegationProof :=
  blogProof parent delegatee "2026-03-01T00:00:00.000Z" value

def lastTokenUnder (parent : CapabilityToken) (chain : List DelegationProof)
    (id delegatee value : String) : CapabilityToken :=
  blogToken parent chain id delegatee "2026-03-01T00:00:00.000Z" "2026-11-01T00:00:00.000Z" value

def root : CapabilityToken :=
  rootToken "urn:cap:3b241101-e2bb-4255-8caf-4136c566a962"
    "yXKZNpID-ee00PK9oIUIFJfC59rLYggtebe8bK_JH22_7Jf6FfSJQWrdE6EJ3dEXCVePADy1CO3rOAvkD7EvDw"

def editorProof : DelegationProof :=
  editorProofOn root
    "LYBQ0Ckok_sv8UdXCD3uiISLYc2fwPpF0lrlsEYBT7queHCyK__Rk2vdob1g-SSzDIbq8EHvOe67HaXsnRnRAg"

def writerToken : CapabilityToken :=
  writerTokenUnder root [editorProof] "urn:cap:c9bf9e57-1685-4c89-bafb-ff5af830be8a"
    "IJUwn5Ou4VQBEhNrb8cAtlCf0BzySIhGdkVuI3efZB3cbmlXChc4yFOZt7AKG-UHOzpyKP742HGdQ3FCyzWsDQ"

def writerProof : DelegationProof :=
  writerProofOn writerToken helper
    "vZdvpXbN8fHSE6j-oNoUC_vzfGO8uUJaqlyeEAJBzZ7Rl0YSZLwDJ1wACqLjeIrQOxoY_fQgNuJ9lQKHkbZGBw"

def helperToken : CapabilityToken :=
  lastTokenUnder writerToken [editorProof, writerProof]
    "urn:cap:7d444840-9dc0-41d1-b245-5ffdce74fad2" helper
    "aER6JeKA2DpEadSjqXL94ajn-9MiwkHcKzjPoTNq3sk5H5jyo1GalbCGNSafTQOYju0o7jqYZhA5o7My5uS7Bg"

def signedToken (signer : String) (token : CapabilityToken) : SignedBytes :=
  ⟨utf8 (Json.canonicalize NumberFormat.decimal (capabilityTokenPayloadJson token)),
    (keyPair signer).1, (keyPair signer).2, token.proof.value⟩

def signedProof (proof : DelegationProof) : SignedBytes :=
  ⟨utf8 (Json.canonicalize NumberFormat.decimal (.obj proof.signedMembers)),
    (keyPair proof.delegatorDid).1, (keyPair proof.delegatorDid).2, proof.proof.value⟩

/-- The validator in a world with the given signatures, tokens and revocations. -/
def ports (ledger : List SignedBytes) (tokens : List CapabilityToken) (revoked : List String) :
    ChainPorts where
  numberFormat := NumberFormat.decimal
  verify := verifyIn ledger
  resolvePublicKeys did := some ⟨(keyPair did).2, none, none, .stable⟩
  isRevoked := some fun _ id => revoked.contains id
  resolveToken := some fun _ id => tokens.find? (·.id == id)

def today : String := "2026-06-01T00:00:00.000Z"

section Acceptance

variable {ledger : List SignedBytes} {tokens : List CapabilityToken} {revoked : List String}

theorem payload_signedToken (signer : String) (token : CapabilityToken) :
    (signedToken signer token).payload =
      createCapabilityTokenPayload (ports ledger tokens revoked).toSignaturePorts token := by
  simp only [signedToken, createCapabilityTokenPayload, ports]

theorem payload_signedProof (proof : DelegationProof) :
    (signedProof proof).payload =
      delegationProofPayload (ports ledger tokens revoked).toSignaturePorts proof := by
  simp only [signedProof, delegationProofPayload, ports]

theorem signedBy_of_mem {did signedAt : String} {s : SignedBytes} (hs : s ∈ ledger)
    (hkey : s.publicKey = (keyPair did).2) :
    SignedBy (ports ledger tokens revoked) did s.payload s.signature signedAt := by
  refine ⟨_, rfl, ?_⟩
  have hverify : (ports ledger tokens revoked).verify s.payload s.signature (keyPair did).2 =
      some true := hkey ▸ verifyIn_of_mem hs
  simp only [verifyDualKey, hverify]

theorem owner_isDidKey : isDidKey owner = true := by
  rw [isDidKey, show owner.toList = _ from String.toList_ofList,
    show didKeyPrefix = _ from String.toList_ofList,
    show base58Alphabet = _ from String.toList_ofList]
  decide +kernel

theorem owner_key : extractPublicKeyFromDIDKey owner = some (keyPair owner).2 := by
  rw [extractPublicKeyFromDIDKey, if_pos owner_isDidKey,
    show owner.toList = _ from String.toList_ofList,
    show didKeyPrefix = _ from String.toList_ofList,
    show (keyPair owner).2 = _ from congrArg Prod.snd (if_pos rfl)]
  simp only [List.length_cons, List.length_nil, List.drop_succ_cons, List.drop_zero,
    decodeDidKeyPayload, decodeBase58, show base58Alphabet = _ from String.toList_ofList]
  decide +kernel

theorem isDidAgent_ofList (chars : List Char) :
    isDidAgent (String.ofList chars) = isDidAgentText chars := by
  rw [isDidAgent, String.toList_ofList]

theorem editor_isDidAgent : isDidAgent editor = true := (isDidAgent_ofList _).trans (by decide)

theorem writer_isDidAgent : isDidAgent writer = true := (isDidAgent_ofList _).trans (by decide)

theorem helper_isDidAgent : isDidAgent helper = true := (isDidAgent_ofList _).trans (by decide)

theorem rootToken_verified (tokens : List CapabilityToken) (revoked : List String)
    {id value : String} (hschema : (rootToken id value).isValid = true)
    (hsigned : signedToken owner (rootToken id value) ∈ ledger) :
    VerifiedRoot (ports ledger tokens revoked).toSignaturePorts (rootToken id value) today where
  schema := hschema
  issuer := owner_isDidKey
  signer := by
    rw [rootToken, didOfVerificationMethod_key (hash_not_mem_of_isDidKey owner_isDidKey)]
    exact isDidAgent_eq_false_of_isDidKey owner_isDidKey
  issued := show ¬ issuedInFuture "2026-01-01T00:00:00.000Z" today by decide +kernel
  unexpired := show ¬ isTimestampExpired "2027-01-01T00:00:00.000Z" today by decide +kernel
  undelegated := by simp [isDelegated, rootToken]
  scopes := by simp [rootToken, channels, isPhase2Scope]
  signature := by
    refine ⟨_, owner_key, ?_⟩
    rw [← payload_signedToken owner]
    show verifyIn ledger _ _ _ = some true
    exact verifyIn_of_mem hsigned

theorem capabilitiesEqual_self (capabilities : List Capability) :
    capabilitiesEqual P capabilities capabilities := ⟨rfl, rfl⟩

theorem blog_attenuates (values : List String) (hvalues : values = ["blog", "news"] ∨ values = ["blog"]) :
    Attenuates NumberFormat.decimal (channels values) (channels ["blog"]) := by
  apply (@validateAttenuation_eq_ok NumberFormat.decimal none _ _).mp
  rcases hvalues with rfl | rfl
  · decide
  · decide

theorem signedProof_mem {proof : DelegationProof} (hsigned : signedProof proof ∈ ledger) :
    SignedBy (ports ledger tokens revoked) proof.delegatorDid
      (delegationProofPayload (ports ledger tokens revoked).toSignaturePorts proof)
      proof.proof.value proof.proof.created := by
  rw [← payload_signedProof]
  exact signedBy_of_mem hsigned rfl

theorem signedToken_mem (tokens : List CapabilityToken) (revoked : List String) {signer signedAt : String} {token : CapabilityToken}
    (hsigned : signedToken signer token ∈ ledger) :
    SignedBy (ports ledger tokens revoked) signer
      (createCapabilityTokenPayload (ports ledger tokens revoked).toSignaturePorts token)
      token.proof.value signedAt := by
  rw [← payload_signedToken signer]
  exact signedBy_of_mem hsigned rfl

/-- The writer's delegation to the helper, behind an editor's proof on a root token
of the owner. The writer's token may name another chain than that proof. -/
structure Relayed (ledger : List SignedBytes) (tokens : List CapabilityToken) (revoked : List String)
    (root parent leaf : CapabilityToken) (first second : DelegationProof) : Prop where
  rootShape : ∃ id value, root = rootToken id value
  firstShape : ∃ value, first = editorProofOn root value
  parentShape : ∃ origin chain id value, origin.issuerDid = owner ∧ origin.principalDid = owner ∧
    parent = writerTokenUnder origin chain id value
  secondShape : ∃ value, second = writerProofOn parent helper value
  leafShape : ∃ id value, leaf = lastTokenUnder parent [first, second] id helper value
  rootSigned : signedToken owner root ∈ ledger
  firstSigned : signedProof first ∈ ledger
  parentSigned : signedToken editor parent ∈ ledger
  secondSigned : signedProof second ∈ ledger
  leafSigned : signedToken writer leaf ∈ ledger
  rootResolved : tokens.find? (·.id == root.id) = some root
  parentResolved : tokens.find? (·.id == parent.id) = some parent
  rootUnrevoked : revoked.contains root.id = false
  parentUnrevoked : revoked.contains parent.id = false
  rootSchema : root.isValid = true
  leafSchema : leaf.isValid = true

variable {root parent leaf : CapabilityToken} {first second : DelegationProof}

theorem Relayed.first_hop (h : Relayed ledger tokens revoked root parent leaf first second) :
    HopChecked (ports ledger tokens revoked) leaf (fun _ id => tokens.find? (·.id == id))
      (fun _ id => revoked.contains id) today 0 none first (some second) root := by
  obtain ⟨id, value, rfl⟩ := h.rootShape
  obtain ⟨editorValue, rfl⟩ := h.firstShape
  obtain ⟨origin, chain, writerId, writerValue, hissuer, hprincipal, rfl⟩ := h.parentShape
  obtain ⟨proofValue, rfl⟩ := h.secondShape
  obtain ⟨leafId, leafValue, rfl⟩ := h.leafShape
  exact {
    signed := signedProof_mem h.firstSigned
    resolved := h.rootResolved
    holder := rfl
    issuer := hissuer.symm
    principal := hprincipal.symm
    snapshot := capabilitiesEqual_self _
    snapshotExpiry := rfl
    parentId := rfl
    parentSigned := by
      have hverified := rootToken_verified tokens revoked h.rootSchema h.rootSigned
      rw [checkParentSignature,
        (verifyCapabilityToken_eq_ok (ports ledger tokens revoked).toSignaturePorts).mpr hverified]
      simp [hverified.undelegated]
    attenuates := blog_attenuates _ (.inl rfl)
    continues := by
      intro next hnext
      obtain rfl := Option.some.inj hnext
      exact capabilitiesEqual_self _
    unrevoked := h.rootUnrevoked
    expiry := by
      show TextLe "2026-11-01T00:00:00.000Z" "2027-01-01T00:00:00.000Z"
      decide
    live := by
      show TextLt today "2027-01-01T00:00:00.000Z"
      decide
    linked := by simp }

theorem Relayed.second_hop (h : Relayed ledger tokens revoked root parent leaf first second) :
    HopChecked (ports ledger tokens revoked) leaf (fun _ id => tokens.find? (·.id == id))
      (fun _ id => revoked.contains id) today 1 (some first) second none parent := by
  obtain ⟨id, value, rfl⟩ := h.rootShape
  obtain ⟨editorValue, rfl⟩ := h.firstShape
  obtain ⟨origin, chain, writerId, writerValue, hissuer, hprincipal, rfl⟩ := h.parentShape
  obtain ⟨proofValue, rfl⟩ := h.secondShape
  obtain ⟨leafId, leafValue, rfl⟩ := h.leafShape
  exact {
    signed := signedProof_mem h.secondSigned
    resolved := h.parentResolved
    holder := rfl
    issuer := rfl
    principal := rfl
    snapshot := capabilitiesEqual_self _
    snapshotExpiry := rfl
    parentId := rfl
    parentSigned := by
      obtain ⟨keys, hkeys, hverified⟩ := signedToken_mem tokens revoked h.parentSigned
      simp only [checkParentSignature, bind_eq_ok, require_eq_ok, resolveKeys_eq_ok]
      exact ⟨keys, hkeys, true, hverified, rfl⟩
    attenuates := blog_attenuates _ (.inr rfl)
    continues := by simp
    unrevoked := h.parentUnrevoked
    expiry := by
      show TextLe "2026-11-01T00:00:00.000Z" "2026-12-01T00:00:00.000Z"
      decide
    live := by
      show TextLt today "2026-12-01T00:00:00.000Z"
      decide
    linked := by
      intro previous hprevious
      obtain rfl := Option.some.inj hprevious
      rfl }

theorem Relayed.accepted (h : Relayed ledger tokens revoked root parent leaf first second) :
    validateDelegationChain (ports ledger tokens revoked) leaf today = .ok 2 := by
  have hfirst := h.first_hop
  have hsecond := h.second_hop
  obtain ⟨id, value, rfl⟩ := h.rootShape
  obtain ⟨editorValue, rfl⟩ := h.firstShape
  obtain ⟨origin, chain, writerId, writerValue, hissuer, hprincipal, rfl⟩ := h.parentShape
  obtain ⟨proofValue, rfl⟩ := h.secondShape
  obtain ⟨leafId, leafValue, rfl⟩ := h.leafShape
  apply (validateDelegationChain_eq_ok _ rfl (List.cons_ne_nil _ _)).mpr
  refine ⟨rfl, fun _ id => tokens.find? (·.id == id), fun _ id => revoked.contains id, ?_⟩
  exact {
    schema := h.leafSchema
    version := by
      show "0.2.0" ≠ "0.1.0"
      decide
    tokens := rfl
    revocations := rfl
    depth := by
      show 2 ≤ 5
      decide
    acyclic := by
      intro p hp
      obtain rfl := Option.some.inj hp
      show [editor, writer, helper].Nodup
      decide
    hops := by
      intro k proof hk
      match k, hk with
      | 0, hk =>
          obtain rfl := Option.some.inj hk
          exact ⟨_, hfirst⟩
      | 1, hk =>
          obtain rfl := Option.some.inj hk
          exact ⟨_, hsecond⟩
    root := hissuer.trans hprincipal.symm
    signers := by
      rw [List.forall_mem_cons, List.forall_mem_singleton]
      exact ⟨didOfVerificationMethod_key (hash_not_mem_of_isDidAgent editor_isDidAgent),
        didOfVerificationMethod_key (hash_not_mem_of_isDidAgent writer_isDidAgent)⟩
    leaf := by
      intro last hlast
      rw [List.getLast?_cons_cons, List.getLast?_singleton] at hlast
      obtain rfl := Option.some.inj hlast
      exact ⟨rfl, capabilitiesEqual_self _,
        didOfVerificationMethod_key (hash_not_mem_of_isDidAgent writer_isDidAgent),
        signedToken_mem tokens revoked h.leafSigned⟩ }

end Acceptance

/-- The signatures made on the way to the token of the helper. -/
def ledger : List SignedBytes :=
  [signedToken owner root, signedProof editorProof, signedToken editor writerToken,
    signedProof writerProof, signedToken writer helperToken]

/-! ### The schema -/

theorem isSignature_ofList (chars : List Char) : isSignature (String.ofList chars) =
    (chars.length == 128 && chars.all isLowerHex ||
      chars.length == 86 && chars.all isBase64UrlChar) := by
  rw [isSignature, String.toList_ofList]

theorem isCapabilityTokenId_ofList (uuid : List Char) :
    isCapabilityTokenId (String.ofList
      ('u' :: 'r' :: 'n' :: ':' :: 'c' :: 'a' :: 'p' :: ':' :: uuid)) = isUuid uuid := by
  simp only [isCapabilityTokenId, String.toList_ofList]

theorem isIsoText_ofList (chars : List Char) :
    Calendar.isIsoText (String.ofList chars) = Calendar.isoTemplate.accepts chars := by
  rw [Calendar.isIsoText, String.toList_ofList]

theorem agent_method {did : String} (hdid : isDidAgent did = true) :
    isVerificationMethod (did ++ "#key-1") = true :=
  isVerificationMethod_key (hash_not_mem_of_isDidAgent hdid) (.inr hdid)

theorem channels_isValid : capabilitiesValid (channels ["blog", "news"]) = true ∧
    capabilitiesValid (channels ["blog"]) = true := by
  decide +kernel

example : capabilitiesValid (channels []) = false := by decide +kernel

theorem revocationUrl_isValid : isRevocationUrl "https://revoke.example/\x7bid\x7d" = true := by
  rw [isRevocationUrl, show "https://revoke.example/\x7bid\x7d".toList = _ from
    String.toList_ofList]
  decide +kernel

theorem rootToken_isValid {id value : String} (hid : isCapabilityTokenId id = true)
    (hvalue : isSignature value = true) : (rootToken id value).isValid = true := by
  have hissued : Calendar.isIsoText "2026-01-01T00:00:00.000Z" = true :=
    (isIsoText_ofList _).trans (by decide)
  have hexpires : Calendar.isIsoText "2027-01-01T00:00:00.000Z" = true :=
    (isIsoText_ofList _).trans (by decide)
  have hversion : isSpecVersion "0.1.0" = true := by decide
  have heditor : isDidAgentText editor.toList = true := editor_isDidAgent
  have howner := isDidKeyText_of_isDidKey owner_isDidKey
  have hmethod := isVerificationMethod_key (hash_not_mem_of_isDidKey owner_isDidKey) (.inl howner)
  simp only [CapabilityToken.isValid, rootToken, TokenProof.isValid, hid, hvalue, hissued, hexpires,
    hversion, heditor, howner, hmethod, channels_isValid, revocationUrl_isValid,
    Option.all_none, Bool.and_self]

theorem blogProof_isValid {parent : CapabilityToken} {delegatee created value : String}
    (hid : parent.id ≠ "") (hdelegator : isDidAgent parent.issuedTo = true)
    (hdelegatee : isDidAgent delegatee = true)
    (hcapabilities : capabilitiesValid parent.capabilities = true)
    (hexpires : Calendar.isIsoText parent.expiresAt = true)
    (hcreated : Calendar.isIsoText created = true) (hvalue : isSignature value = true) :
    (blogProof parent delegatee created value).isValid = true := by
  have hdelegateeText : isDidAgentText delegatee.toList = true := hdelegatee
  simp only [DelegationProof.isValid, blogProof, TokenProof.isValid, bne_iff_ne.mpr hid,
    isDid_of_isDidAgent hdelegator, hdelegateeText, hcapabilities, hexpires, channels_isValid,
    hcreated, agent_method hdelegator, hvalue, Option.all_none, Bool.and_self]

theorem lastToken_isValid {parent : CapabilityToken} {chain : List DelegationProof}
    {id value : String} (hissuer : isDidKey parent.issuerDid = true)
    (hprincipal : isDidKey parent.principalDid = true) (hholder : isDidAgent parent.issuedTo = true)
    (hid : isCapabilityTokenId id = true) (hvalue : isSignature value = true)
    (hlength : chain.length ≤ 5) (hchain : ∀ proof ∈ chain, proof.isValid = true) :
    (lastTokenUnder parent chain id helper value).isValid = true := by
  have hissued : Calendar.isIsoText "2026-03-01T00:00:00.000Z" = true :=
    (isIsoText_ofList _).trans (by decide)
  have hexpires : Calendar.isIsoText "2026-11-01T00:00:00.000Z" = true :=
    (isIsoText_ofList _).trans (by decide)
  have hversion : isSpecVersion "0.2.0" = true := by decide
  have hhelper : isDidAgentText helper.toList = true := helper_isDidAgent
  simp only [CapabilityToken.isValid, lastTokenUnder, blogToken, TokenProof.isValid, hid, hvalue,
    hissued, hexpires, hversion, hhelper, isDidKeyText_of_isDidKey hissuer,
    isDidKeyText_of_isDidKey hprincipal, agent_method hholder, channels_isValid,
    revocationUrl_isValid, Option.all_some, decide_eq_true hlength, List.all_eq_true.mpr hchain,
    Bool.and_self]

theorem root_isValid : root.isValid = true :=
  rootToken_isValid ((isCapabilityTokenId_ofList _).trans (by decide))
    ((isSignature_ofList _).trans (by decide))

/-- The two proofs behind a last token. -/
theorem proofs_isValid {root parent : CapabilityToken} {delegatee value value' : String}
    (hroot : ∃ id value, root = rootToken id value ∧ id ≠ "")
    (hparent : ∃ origin chain id value, parent = writerTokenUnder origin chain id value ∧ id ≠ "")
    (hdelegatee : isDidAgent delegatee = true)
    (hvalue : isSignature value = true) (hvalue' : isSignature value' = true) :
    ∀ proof ∈ [editorProofOn root value, writerProofOn parent delegatee value'],
      proof.isValid = true := by
  obtain ⟨id, rootValue, rfl, hid⟩ := hroot
  obtain ⟨origin, chain, id', parentValue, rfl, hid'⟩ := hparent
  have hiso : Calendar.isIsoText "2027-01-01T00:00:00.000Z" = true ∧
      Calendar.isIsoText "2026-02-01T00:00:00.000Z" = true ∧
      Calendar.isIsoText "2026-12-01T00:00:00.000Z" = true ∧
      Calendar.isIsoText "2026-03-01T00:00:00.000Z" = true :=
    ⟨(isIsoText_ofList _).trans (by decide), (isIsoText_ofList _).trans (by decide),
      (isIsoText_ofList _).trans (by decide), (isIsoText_ofList _).trans (by decide)⟩
  rw [List.forall_mem_cons, List.forall_mem_singleton]
  exact ⟨blogProof_isValid hid editor_isDidAgent writer_isDidAgent channels_isValid.1 hiso.1
      hiso.2.1 hvalue,
    blogProof_isValid hid' writer_isDidAgent hdelegatee channels_isValid.2 hiso.2.2.1
      hiso.2.2.2 hvalue'⟩

theorem helperToken_isValid : helperToken.isValid = true :=
  lastToken_isValid owner_isDidKey owner_isDidKey writer_isDidAgent
    ((isCapabilityTokenId_ofList _).trans (by decide)) ((isSignature_ofList _).trans (by decide))
    (by decide)
    (proofs_isValid ⟨_, _, rfl, by decide⟩ ⟨_, _, _, _, rfl, by decide⟩ helper_isDidAgent
      ((isSignature_ofList _).trans (by decide)) ((isSignature_ofList _).trans (by decide)))

theorem helperToken_accepted :
    validateDelegationChain (ports ledger [root, writerToken] []) helperToken today = .ok 2 := by
  have hrelayed : Relayed ledger [root, writerToken] [] root writerToken helperToken editorProof
      writerProof := {
    rootShape := ⟨_, _, rfl⟩
    firstShape := ⟨_, rfl⟩
    parentShape := ⟨root, _, _, _, rfl, rfl, rfl⟩
    secondShape := ⟨_, rfl⟩
    leafShape := ⟨_, _, rfl⟩
    rootSigned := by simp [ledger]
    firstSigned := by simp [ledger]
    parentSigned := by simp [ledger]
    secondSigned := by simp [ledger]
    leafSigned := by simp [ledger]
    rootResolved := by decide
    parentResolved := by decide
    rootUnrevoked := rfl
    parentUnrevoked := rfl
    rootSchema := root_isValid
    leafSchema := helperToken_isValid }
  exact hrelayed.accepted

/-- The token of the helper attenuates the tokens of the editor and the writer. -/
theorem helperToken_attenuates :
    validateDelegationChain (ports ledger [root, writerToken] []) helperToken today = .ok 2 ∧
      ∃ resolveToken, (ports ledger [root, writerToken] []).resolveToken = some resolveToken ∧
        (∀ k proof, [editorProof, writerProof][k]? = some proof → ∃ ancestor,
          resolveToken k proof.parentTokenId = some ancestor ∧
          (∀ versions, validateAttenuation NumberFormat.decimal versions
            (sortedKeys ancestor.capabilities) (sortedKeys helperToken.capabilities) = .ok ()) ∧
          TextLe helperToken.expiresAt ancestor.expiresAt) ∧
        ∀ first ∈ [editorProof, writerProof].head?,
          (first.delegatorDid ::
            [editorProof, writerProof].map DelegationProof.delegateeDid).Nodup :=
  ⟨helperToken_accepted, validateDelegationChain_attenuates rfl (List.cons_ne_nil _ _)
    helperToken_accepted⟩

end Relay

end Coivitas.Identity
