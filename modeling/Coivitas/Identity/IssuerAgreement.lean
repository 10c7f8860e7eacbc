import Coivitas.Identity.DelegationAttenuation
import Coivitas.Identity.TokenIssuer

/-! # What the issuer produces and the validator accepts

A lineage is a root token and the delegations made from it, each signed by the
holder of the token it starts from. The issuer checks every step on its own; the
validator reads the whole chain. The last section says which lineages pass.
-/

namespace Coivitas.Identity

open Foundation Coivitas.Types

/-! ## Lineages -/

/-- What is assumed of Ed25519: a signature verifies under the key of its
signer, and is written in the text form of signatures. -/
structure SignatureScheme (I : IssuerPorts) (publicKey : String → String) : Prop where
  verify_sign : ∀ {payload privateKey signature}, I.sign payload privateKey = some signature →
    I.verify payload signature (publicKey privateKey) = some true
  isSignature_sign : ∀ {payload privateKey signature},
    I.sign payload privateKey = some signature → isSignature signature = true

/-- A token with the tokens it descends from, oldest first. `trueKey` is the
public key of each agent. -/
inductive Lineage (I : IssuerPorts) (publicKey trueKey : String → String) :
    List CapabilityToken → CapabilityToken → Prop
  | issue {params : IssueCapabilityTokenParams} {uuid : Uuid} {token : CapabilityToken}
      (hkey : extractPublicKeyFromDIDKey params.issuerDid =
        some (publicKey params.issuerPrivateKey))
      (hissue : issueCapabilityToken I params uuid = .ok token) :
      Lineage I publicKey trueKey [] token
  | delegate {ancestors : List CapabilityToken} {params : DelegateTokenParams} {uuid : Uuid}
      {token : CapabilityToken} (hparent : Lineage I publicKey trueKey ancestors params.parentToken)
      (hkey : publicKey params.delegatorPrivateKey = trueKey params.parentToken.issuedTo)
      (hdelegate : delegateCapabilityToken I params uuid = .ok token) :
      Lineage I publicKey trueKey (ancestors ++ [params.parentToken]) token

/-- A root token as the issuer leaves it. -/
structure IssuedRoot (S : SignaturePorts) (root : CapabilityToken) : Prop where
  id : isCapabilityTokenId root.id = true
  version : root.specVersion = specVersion010
  issuer : isDidKey root.issuerDid = true
  principal : root.principalDid = root.issuerDid
  holder : isDidAgent root.issuedTo = true
  created : root.proof.created = root.issuedAt
  method : root.proof.verificationMethod = root.issuerDid ++ "#key-1"
  signatureText : isSignature root.proof.value = true
  signature : ∃ key, extractPublicKeyFromDIDKey root.issuerDid = some key ∧
    S.verify (createCapabilityTokenPayload S root) root.proof.value key = some true
  chain : root.delegationChain = none

/-- A delegation as the issuer leaves it: the proof between a parent token and
its child, and what the two tokens share. -/
structure Delegated (S : SignaturePorts) (trueKey : String → String) (parent : CapabilityToken)
    (proof : DelegationProof) (child : CapabilityToken) : Prop where
  parentTokenId : proof.parentTokenId = parent.id
  delegator : proof.delegatorDid = parent.issuedTo
  delegatee : proof.delegateeDid = child.issuedTo
  parentCapabilities : proof.parentCapabilities = parent.capabilities
  parentExpiresAt : proof.parentExpiresAt = parent.expiresAt
  attenuated : proof.attenuatedCapabilities = child.capabilities
  created : proof.proof.created = child.issuedAt
  method : proof.proof.verificationMethod = parent.issuedTo ++ "#key-1"
  signatureText : isSignature proof.proof.value = true
  signature : S.verify (delegationProofPayload S proof) proof.proof.value
    (trueKey parent.issuedTo) = some true
  childId : isCapabilityTokenId child.id = true
  childVersion : child.specVersion = specVersion020
  childIssuer : child.issuerDid = parent.issuerDid
  childPrincipal : child.principalDid = parent.principalDid
  childHolder : isDidAgent child.issuedTo = true
  childCreated : child.proof.created = child.issuedAt
  childMethod : child.proof.verificationMethod = parent.issuedTo ++ "#key-1"
  childSignatureText : isSignature child.proof.value = true
  childSignature : S.verify (createCapabilityTokenPayload S child) child.proof.value
    (trueKey parent.issuedTo) = some true
  attenuates : Attenuates S.numberFormat parent.capabilities child.capabilities
  expiry : TextLe child.expiresAt parent.expiresAt

section Issuing

variable {I : IssuerPorts} {publicKey trueKey : String → String}

theorem signOrThrow_eq_ok {payload : List UInt8} {privateKey signature : String} :
    signOrThrow I payload privateKey = .ok signature ↔
      I.sign payload privateKey = some signature := by
  unfold signOrThrow
  split <;> simp_all

theorem isCapabilityTokenId_urn (uuid : Uuid) : isCapabilityTokenId ("urn:cap:" ++ uuid.text) = true := by
  unfold isCapabilityTokenId
  rw [String.toList_append]
  exact uuid.valid

theorem issueCapabilityToken_spec (hscheme : SignatureScheme I publicKey)
    {params : IssueCapabilityTokenParams} {uuid : Uuid} {token : CapabilityToken}
    (hkey : extractPublicKeyFromDIDKey params.issuerDid = some (publicKey params.issuerPrivateKey))
    (hissue : issueCapabilityToken I params uuid = .ok token) :
    IssuedRoot I.toSignaturePorts token := by
  simp only [issueCapabilityToken, bind_eq_ok, exists_unit, require_eq_ok, pure_eq_ok,
    signOrThrow_eq_ok] at hissue
  obtain ⟨hissuer, hholder, -, -, -, signature, hsign, rfl⟩ := hissue
  exact {
    id := isCapabilityTokenId_urn uuid
    version := rfl
    issuer := hissuer
    principal := rfl
    holder := hholder
    created := rfl
    method := rfl
    signatureText := hscheme.isSignature_sign hsign
    signature := ⟨_, hkey, hscheme.verify_sign hsign⟩
    chain := rfl }

/-- A delegation extends the chain of the parent by one proof. -/
theorem delegateCapabilityToken_spec (hscheme : SignatureScheme I publicKey)
    {params : DelegateTokenParams} {uuid : Uuid} {token : CapabilityToken}
    (hkey : publicKey params.delegatorPrivateKey = trueKey params.parentToken.issuedTo)
    (hdelegate : delegateCapabilityToken I params uuid = .ok token) :
    ∃ proof, token.delegationChain =
        some (params.parentToken.delegationChain.getD [] ++ [proof]) ∧
      (params.parentToken.delegationChain.getD []).length + 1 ≤ maxDelegationDepth ∧
      Delegated I.toSignaturePorts trueKey params.parentToken proof token := by
  simp only [delegateCapabilityToken, bind_eq_ok, exists_unit, require_eq_ok, pure_eq_ok,
    mapError_eq_ok, validateAttenuation_eq_ok, signOrThrow_eq_ok, ← textLe_iff_not_lt] at hdelegate
  obtain ⟨hholder, -, -, hexpiry, -, hattenuates, hdepth, proofValue, hproof, tokenValue, htoken,
    rfl⟩ := hdelegate
  refine ⟨_, rfl, hdepth, ?_⟩
  exact {
    parentTokenId := rfl
    delegator := rfl
    delegatee := rfl
    parentCapabilities := rfl
    parentExpiresAt := rfl
    attenuated := rfl
    created := rfl
    method := rfl
    signatureText := hscheme.isSignature_sign hproof
    signature := hkey ▸ hscheme.verify_sign hproof
    childId := isCapabilityTokenId_urn uuid
    childVersion := rfl
    childIssuer := rfl
    childPrincipal := rfl
    childHolder := hholder
    childCreated := rfl
    childMethod := rfl
    childSignatureText := hscheme.isSignature_sign htoken
    childSignature := hkey ▸ hscheme.verify_sign htoken
    attenuates := hattenuates
    expiry := hexpiry }

end Issuing

/-! ## The chain of a lineage -/

/-- The tokens of a lineage are linked by the proofs of its chain: proof `k`
stands between tokens `k` and `k + 1`. -/
structure LineageChain (S : SignaturePorts) (trueKey : String → String)
    (ancestors : List CapabilityToken) (chain : List DelegationProof) (token : CapabilityToken) :
    Prop where
  length : chain.length = ancestors.length
  depth : chain.length ≤ maxDelegationDepth
  root : ∀ root ∈ (ancestors ++ [token]).head?, IssuedRoot S root
  links : ∀ k proof, chain[k]? = some proof → ∃ parent child,
    (ancestors ++ [token])[k]? = some parent ∧ (ancestors ++ [token])[k + 1]? = some child ∧
      Delegated S trueKey parent proof child
  principal : token.issuerDid = token.principalDid
  shared : ∀ t ∈ ancestors ++ [token],
    t.issuerDid = token.issuerDid ∧ t.principalDid = token.principalDid
  expiry : ∀ t ∈ ancestors ++ [token], TextLe token.expiresAt t.expiresAt

section Lineages

variable {I : IssuerPorts} {publicKey trueKey : String → String}
  {ancestors : List CapabilityToken} {token : CapabilityToken}

/-- One more delegation. -/
theorem LineageChain.snoc {S : SignaturePorts} {parent : CapabilityToken}
    {chain : List DelegationProof} {proof : DelegationProof}
    (h : LineageChain S trueKey ancestors chain parent)
    (hdepth : chain.length + 1 ≤ maxDelegationDepth)
    (hlink : Delegated S trueKey parent proof token) :
    LineageChain S trueKey (ancestors ++ [parent]) (chain ++ [proof]) token where
  length := by simp [h.length]
  depth := by simpa using hdepth
  root := by
    intro root hroot
    apply h.root root
    rw [List.head?_append_of_ne_nil _ (by simp)] at hroot
    exact hroot
  links := by
    intro k q hk
    rcases List.getElem?_append .. ▸ hk with hk
    split at hk
    next hlt =>
      obtain ⟨p, c, hp, hc, hdelegated⟩ := h.links k q hk
      have hlength := h.length
      refine ⟨p, c, ?_, ?_, hdelegated⟩
      · rw [List.getElem?_append_left (by simp; omega)]
        exact hp
      · rw [List.getElem?_append_left (by simp; omega)]
        exact hc
    next hge =>
      -- The new proof is the last one, between the parent and the new token.
      have hlast : k - chain.length = 0 := by
        have := (List.getElem?_eq_some_iff.mp hk).1
        simpa using this
      rw [hlast] at hk
      obtain rfl := Option.some.inj hk
      have hindex : k = ancestors.length := by
        have := h.length
        omega
      subst hindex
      exact ⟨parent, token, by simp, by simp, hlink⟩
  principal := by
    rw [hlink.childIssuer, hlink.childPrincipal]
    exact h.principal
  shared := by
    intro t ht
    rcases List.mem_append.mp ht with hmem | hmem
    · rw [hlink.childIssuer, hlink.childPrincipal]
      exact h.shared t hmem
    · obtain rfl := List.mem_singleton.mp hmem
      exact ⟨rfl, rfl⟩
  expiry := by
    intro t ht
    rcases List.mem_append.mp ht with hmem | hmem
    · exact hlink.expiry.trans (h.expiry t hmem)
    · obtain rfl := List.mem_singleton.mp hmem
      exact TextLe.refl _

theorem Lineage.chain (hscheme : SignatureScheme I publicKey)
    (hlineage : Lineage I publicKey trueKey ancestors token) :
    LineageChain I.toSignaturePorts trueKey ancestors (token.delegationChain.getD []) token := by
  induction hlineage with
  | issue hkey hissue =>
      have hroot := issueCapabilityToken_spec hscheme hkey hissue
      rw [hroot.chain]
      exact {
        length := rfl
        depth := Nat.zero_le _
        root := by simpa using hroot
        links := by simp
        principal := hroot.principal.symm
        shared := by simp
        expiry := by simpa using TextLe.refl _ }
  | delegate hparent hkey hdelegate ih =>
      obtain ⟨proof, hchain, hdepth, hlink⟩ := delegateCapabilityToken_spec hscheme hkey hdelegate
      rw [hchain]
      exact ih.snoc hdepth hlink

end Lineages

/-! ## Schema checks on issued records -/

section Schema

variable {S : SignaturePorts} {trueKey : String → String}

theorem isSpecVersion_issued : isSpecVersion specVersion010 = true ∧ isSpecVersion specVersion020 = true := by
  decide +kernel

/-- The times of a token are texts in the format of the schema. -/
structure Dated (t : CapabilityToken) : Prop where
  issuedAt : Calendar.isIsoText t.issuedAt = true
  expiresAt : Calendar.isIsoText t.expiresAt = true

/-- Of an issued root token the schema leaves its times, its capabilities and its revocation
URL to check. -/
theorem IssuedRoot.isValid_iff {root : CapabilityToken} (h : IssuedRoot S root) :
    root.isValid = true ↔
      Dated root ∧ capabilitiesValid root.capabilities = true ∧
        isRevocationUrl root.revocationUrl = true := by
  have hkey := isDidKeyText_of_isDidKey h.issuer
  have hmethod := isVerificationMethod_key (hash_not_mem_of_isDidKey h.issuer) (.inl hkey)
  have hholder : isDidAgentText root.issuedTo.toList = true := h.holder
  simp only [CapabilityToken.isValid, TokenProof.isValid, h.id, h.version, h.principal, hkey, hholder,
    h.created, h.method, hmethod, h.signatureText, h.chain, isSpecVersion_issued.1, Bool.true_and,
    Bool.and_true, Option.all_none, Bool.and_eq_true]
  constructor
  · rintro ⟨⟨⟨⟨hissued, hexpires⟩, hcapabilities⟩, hurl⟩, -⟩
    exact ⟨⟨hissued, hexpires⟩, hcapabilities, hurl⟩
  · rintro ⟨⟨hissued, hexpires⟩, hcapabilities, hurl⟩
    exact ⟨⟨⟨⟨hissued, hexpires⟩, hcapabilities⟩, hurl⟩, hissued⟩

theorem Delegated.proof_isValid_iff {parent child : CapabilityToken} {proof : DelegationProof}
    (h : Delegated S trueKey parent proof child) (hid : isCapabilityTokenId parent.id = true)
    (hparent : isDidAgent parent.issuedTo = true) :
    proof.isValid = true ↔
      (Calendar.isIsoText child.issuedAt = true ∧ Calendar.isIsoText parent.expiresAt = true) ∧
        (capabilitiesValid parent.capabilities = true ∧
          capabilitiesValid child.capabilities = true) ∧
        proof.dcVersion.all isDcVersion = true := by
  have hmethod := isVerificationMethod_key (hash_not_mem_of_isDidAgent hparent) (.inr hparent)
  have hdelegatee : isDidAgentText child.issuedTo.toList = true := h.childHolder
  have hne : (parent.id != "") = true := by
    apply bne_iff_ne.mpr
    intro hempty
    rw [hempty] at hid
    exact absurd hid (by decide)
  simp only [DelegationProof.isValid, TokenProof.isValid, h.parentTokenId, h.delegator, h.delegatee,
    h.parentCapabilities, h.parentExpiresAt, h.attenuated, h.created, h.method, hmethod,
    h.signatureText, hne, isDid_of_isDidAgent hparent, hdelegatee, Bool.true_and, Bool.and_true,
    Bool.and_eq_true]
  constructor
  · rintro ⟨⟨⟨⟨hparent, hexpires⟩, hchild⟩, hissued⟩, hversion⟩
    exact ⟨⟨hissued, hexpires⟩, ⟨hparent, hchild⟩, hversion⟩
  · rintro ⟨⟨hissued, hexpires⟩, ⟨hparent, hchild⟩, hversion⟩
    exact ⟨⟨⟨⟨hparent, hexpires⟩, hchild⟩, hissued⟩, hversion⟩

/-- Of a delegated token the schema also leaves its chain to check. -/
theorem Delegated.child_isValid_iff {parent child : CapabilityToken} {proof : DelegationProof}
    {chain : List DelegationProof} (h : Delegated S trueKey parent proof child)
    (hparent : isDidAgent parent.issuedTo = true) (hissuer : isDidKey child.issuerDid = true)
    (hprincipal : child.issuerDid = child.principalDid)
    (hchain : child.delegationChain = some chain) (hdepth : chain.length ≤ maxDelegationDepth) :
    child.isValid = true ↔
      Dated child ∧ (capabilitiesValid child.capabilities = true ∧
        isRevocationUrl child.revocationUrl = true) ∧ ∀ p ∈ chain, p.isValid = true := by
  have hkey := isDidKeyText_of_isDidKey hissuer
  have hmethod := isVerificationMethod_key (hash_not_mem_of_isDidAgent hparent) (.inr hparent)
  have hholder : isDidAgentText child.issuedTo.toList = true := h.childHolder
  have hlength : decide (chain.length ≤ 5) = true := by simpa [maxDelegationDepth] using hdepth
  simp only [CapabilityToken.isValid, TokenProof.isValid, h.childId, h.childVersion, ← hprincipal,
    hkey, hholder, h.childCreated, h.childMethod, hmethod, h.childSignatureText, hchain,
    hlength, isSpecVersion_issued.2, Option.all_some, List.all_eq_true, Bool.true_and,
    Bool.and_true, Bool.and_eq_true]
  constructor
  · rintro ⟨⟨⟨⟨⟨hissued, hexpires⟩, hcapabilities⟩, hurl⟩, -⟩, hproofs⟩
    exact ⟨⟨hissued, hexpires⟩, ⟨hcapabilities, hurl⟩, hproofs⟩
  · rintro ⟨⟨hissued, hexpires⟩, ⟨hcapabilities, hurl⟩, hproofs⟩
    exact ⟨⟨⟨⟨⟨hissued, hexpires⟩, hcapabilities⟩, hurl⟩, hissued⟩, hproofs⟩

end Schema

/-! ## Which lineages the validator accepts -/

/-- The resolvers return the true keys and parent tokens, and nothing is revoked. -/
structure TrueResolvers (P : ChainPorts) (trueKey : String → String)
    (ancestors : List CapabilityToken) : Prop where
  keys : ∀ did, ∃ keys, P.resolvePublicKeys did = some keys ∧ keys.current = trueKey did
  tokens : ∃ resolveToken, P.resolveToken = some resolveToken ∧
    ∀ k, ∀ t ∈ ancestors, resolveToken k t.id = some t
  unrevoked : P.isRevoked = some fun _ _ => false

/-- The clock stands between the issuance times and the expiry of the token. -/
structure WithinLifetime (I : IssuerPorts) (now : String) (ancestors : List CapabilityToken)
    (token : CapabilityToken) : Prop where
  clock : Calendar.IsInstant now
  issued : ∀ t ∈ ancestors ++ [token], ∀ i ∈ I.getTime t.issuedAt, ∀ n ∈ I.getTime now, i ≤ n
  unexpired : ¬ I.isTimestampExpired token.expiresAt now

/-- The texts and sizes of the schema. -/
structure MeetsSchema (ancestors : List CapabilityToken) (token : CapabilityToken) : Prop where
  dated : ∀ t ∈ ancestors ++ [token], Dated t
  capabilities : ∀ t ∈ ancestors ++ [token], capabilitiesValid t.capabilities = true
  rootUrl : ∀ root ∈ ancestors.head?, isRevocationUrl root.revocationUrl = true
  leafUrl : isRevocationUrl token.revocationUrl = true
  dcVersions : ∀ proof ∈ token.delegationChain.getD [], proof.dcVersion.all isDcVersion = true

/-- What the validator asks of a delegated token and the issuer does not: no agent
holds twice, a root token of version 0.1.0 has only the scopes of that version, the
parents' expiry is after the clock in the order of texts too, and the schema. -/
structure MeetsValidator (now : String) (ancestors : List CapabilityToken)
    (token : CapabilityToken) : Prop where
  holders : ((ancestors ++ [token]).map CapabilityToken.issuedTo).Nodup
  rootScopes : ∀ root ∈ ancestors.head?, ∀ cap ∈ root.capabilities, ¬ isPhase2Scope cap.scope
  rootUnexpired : ∀ root ∈ ancestors.head?, ¬ isTimestampExpired root.expiresAt now
  unexpired : ∀ t ∈ ancestors, TextLt now t.expiresAt
  schema : MeetsSchema ancestors token

section Agreement

variable {P : ChainPorts} {I : IssuerPorts} {trueKey : String → String}
  {ancestors : List CapabilityToken} {chain : List DelegationProof} {token : CapabilityToken}
  {now : String}

/-- With dates of the schema's format the issuance times are not in the verifier's future. -/
theorem WithinLifetime.not_issuedInFuture
    (htime : WithinLifetime I now ancestors token) {t : CapabilityToken}
    (ht : t ∈ ancestors ++ [token]) (hdated : Dated t) : ¬ issuedInFuture t.issuedAt now := by
  rintro ⟨i, hi, n, hn, hlt⟩
  have hle := htime.issued t ht i (I.getTime_iso _ hdated.issuedAt ▸ hi) n
    (I.getTime_iso _ htime.clock.1 ▸ hn)
  omega

namespace LineageChain

/-- Every token after the root is the child of a proof. -/
theorem link_to (h : LineageChain P.toSignaturePorts trueKey ancestors chain token) {k : Nat}
    {child : CapabilityToken} (hchild : (ancestors ++ [token])[k + 1]? = some child) :
    ∃ parent proof, (ancestors ++ [token])[k]? = some parent ∧ chain[k]? = some proof ∧
      Delegated P.toSignaturePorts trueKey parent proof child := by
  have hlt : k < chain.length := by
    have hbound := (List.getElem?_eq_some_iff.mp hchild).1
    have hlength := h.length
    rw [List.length_append, List.length_singleton] at hbound
    omega
  obtain ⟨parent, child', hparent, hchild', hlink⟩ :=
    h.links k chain[k] (List.getElem?_eq_getElem hlt)
  obtain rfl := Option.some.inj (hchild.symm.trans hchild')
  exact ⟨parent, chain[k], hparent, List.getElem?_eq_getElem hlt, hlink⟩

/-- The last proof leads to the leaf. -/
theorem link_to_leaf (h : LineageChain P.toSignaturePorts trueKey ancestors chain token)
    {last : DelegationProof} (hlast : chain.getLast? = some last) :
    ∃ parent ∈ ancestors ++ [token], Delegated P.toSignaturePorts trueKey parent last token := by
  rw [List.getLast?_eq_getElem?] at hlast
  obtain ⟨parent, child, hparent, hchild, hlink⟩ := h.links _ last hlast
  have hindex : chain.length - 1 + 1 = ancestors.length := by
    have hlt := (List.getElem?_eq_some_iff.mp hlast).1
    have hlength := h.length
    omega
  obtain rfl : token = child := by simpa [hindex] using hchild
  exact ⟨parent, List.mem_iff_getElem?.mpr ⟨_, hparent⟩, hlink⟩

theorem issued (h : LineageChain P.toSignaturePorts trueKey ancestors chain token)
    {t : CapabilityToken} (ht : t ∈ ancestors ++ [token]) :
    isCapabilityTokenId t.id = true ∧ isDidAgent t.issuedTo = true := by
  obtain ⟨k, hk⟩ := List.mem_iff_getElem?.mp ht
  cases k with
  | zero =>
      have hroot := h.root t (by rw [List.head?_eq_getElem?]; exact hk)
      exact ⟨hroot.id, hroot.holder⟩
  | succ k =>
      obtain ⟨parent, proof, -, -, hlink⟩ := h.link_to hk
      exact ⟨hlink.childId, hlink.childHolder⟩

/-- The first delegator and the delegatees are the holders of the tokens. -/
theorem holders_eq (h : LineageChain P.toSignaturePorts trueKey ancestors chain token)
    {first : DelegationProof} (hfirst : chain.head? = some first) :
    first.delegatorDid :: chain.map DelegationProof.delegateeDid =
      (ancestors ++ [token]).map CapabilityToken.issuedTo := by
  apply List.ext_getElem?
  intro k
  cases k with
  | zero =>
      rw [List.head?_eq_getElem?] at hfirst
      obtain ⟨parent, child, hparent, -, hlink⟩ := h.links 0 first hfirst
      rw [List.getElem?_map, hparent]
      simp [hlink.delegator]
  | succ k =>
      rw [List.getElem?_cons_succ, List.getElem?_map, List.getElem?_map]
      cases hk : chain[k]? with
      | some proof =>
          obtain ⟨parent, child, -, hchild, hlink⟩ := h.links k proof hk
          rw [hchild]
          simp [hlink.delegatee]
      | none =>
          have hlength := h.length
          have hge := List.getElem?_eq_none_iff.mp hk
          have hnone : (ancestors ++ [token])[k + 1]? = none := by
            apply List.getElem?_eq_none_iff.mpr
            simp
            omega
          rw [hnone]
          rfl

/-- Every token before the leaf is the parent of a proof. -/
theorem link_from (h : LineageChain P.toSignaturePorts trueKey ancestors chain token) {k : Nat}
    {parent : CapabilityToken} (hparent : ancestors[k]? = some parent) :
    ∃ proof child, chain[k]? = some proof ∧ (ancestors ++ [token])[k + 1]? = some child ∧
      Delegated P.toSignaturePorts trueKey parent proof child := by
  have hlt := (List.getElem?_eq_some_iff.mp hparent).1
  obtain ⟨proof, hproof⟩ : ∃ proof, chain[k]? = some proof :=
    ⟨_, List.getElem?_eq_getElem (h.length ▸ hlt)⟩
  obtain ⟨parent', child, hparent', hchild, hlink⟩ := h.links k proof hproof
  rw [List.getElem?_append_left hlt, hparent] at hparent'
  obtain rfl := Option.some.inj hparent'
  exact ⟨_, child, hproof, hchild, hlink⟩

theorem proof_isValid_iff (h : LineageChain P.toSignaturePorts trueKey ancestors chain token)
    {k : Nat} {proof : DelegationProof} {parent child : CapabilityToken}
    (hparent : (ancestors ++ [token])[k]? = some parent)
    (hlink : Delegated P.toSignaturePorts trueKey parent proof child) :
    proof.isValid = true ↔
      (Calendar.isIsoText child.issuedAt = true ∧ Calendar.isIsoText parent.expiresAt = true) ∧
        (capabilitiesValid parent.capabilities = true ∧
          capabilitiesValid child.capabilities = true) ∧
        proof.dcVersion.all isDcVersion = true := by
  obtain ⟨hid, hholder⟩ := h.issued (List.mem_iff_getElem?.mpr ⟨k, hparent⟩)
  exact hlink.proof_isValid_iff hid hholder

/-- Of the leaf the schema leaves its times, its capabilities, its revocation URL and the
proofs to check. -/
theorem leaf_isValid_iff (h : LineageChain P.toSignaturePorts trueKey ancestors chain token)
    (hchain : token.delegationChain = some chain) (hne : chain ≠ []) :
    token.isValid = true ↔
      Dated token ∧ (capabilitiesValid token.capabilities = true ∧
        isRevocationUrl token.revocationUrl = true) ∧ ∀ proof ∈ chain, proof.isValid = true := by
  obtain ⟨parent, hmem, hlink⟩ := h.link_to_leaf (List.getLast?_eq_some_getLast hne)
  obtain ⟨-, hholder⟩ := h.issued hmem
  have hissuer : isDidKey token.issuerDid = true := by
    obtain ⟨root, hroot⟩ : ∃ root, (ancestors ++ [token]).head? = some root :=
      ⟨_, List.head?_eq_some_head (by simp)⟩
    have hmem : root ∈ ancestors ++ [token] := List.mem_of_mem_head? hroot
    rw [← (h.shared root hmem).1]
    exact (h.root root hroot).issuer
  exact hlink.child_isValid_iff hholder hissuer h.principal hchain h.depth

/-- The leaf and the root pass the schema exactly when the texts and sizes of the whole
lineage do. -/
theorem meetsSchema_iff (h : LineageChain P.toSignaturePorts trueKey ancestors chain token)
    (hchain : token.delegationChain = some chain) (hne : chain ≠ []) {root : CapabilityToken}
    (hroot : ancestors.head? = some root) :
    token.isValid = true ∧ root.isValid = true ↔ MeetsSchema ancestors token := by
  have hhead : (ancestors ++ [token]).head? = some root := by
    rw [List.head?_append_of_ne_nil _ (by rintro rfl; cases hroot)]
    exact hroot
  have hfirst : (ancestors ++ [token])[0]? = some root := List.head?_eq_getElem? ▸ hhead
  rw [h.leaf_isValid_iff hchain hne, (h.root root hhead).isValid_iff]
  constructor
  · rintro ⟨⟨hleaf, ⟨hcapabilities, hurl⟩, hproofs⟩, hrootDated, hrootCapabilities, hrootUrl⟩
    -- Every token is the root or the child of a proof, and the leaf or the parent of one.
    have hchild : ∀ t ∈ ancestors ++ [token], Calendar.isIsoText t.issuedAt = true ∧
        capabilitiesValid t.capabilities = true := by
      intro t ht
      obtain ⟨k, hk⟩ := List.mem_iff_getElem?.mp ht
      cases k with
      | zero =>
          obtain rfl := Option.some.inj (hfirst.symm.trans hk)
          exact ⟨hrootDated.issuedAt, hrootCapabilities⟩
      | succ k =>
          obtain ⟨parent, proof, hparent, hproof, hlink⟩ := h.link_to hk
          have hvalid := hproofs proof (List.mem_iff_getElem?.mpr ⟨k, hproof⟩)
          obtain ⟨⟨hissued, -⟩, ⟨-, hcapabilities⟩, -⟩ :=
            (h.proof_isValid_iff hparent hlink).mp hvalid
          exact ⟨hissued, hcapabilities⟩
    have hparent : ∀ t ∈ ancestors ++ [token], Calendar.isIsoText t.expiresAt = true := by
      intro t ht
      obtain hancestor | hlast := List.mem_append.mp ht
      · obtain ⟨k, hk⟩ := List.mem_iff_getElem?.mp hancestor
        obtain ⟨proof, child, hproof, -, hlink⟩ := h.link_from hk
        have hvalid := hproofs proof (List.mem_iff_getElem?.mpr ⟨k, hproof⟩)
        obtain ⟨hid, hholder⟩ := h.issued ht
        exact ((hlink.proof_isValid_iff hid hholder).mp hvalid).1.2
      · obtain rfl := List.mem_singleton.mp hlast
        exact hleaf.expiresAt
    exact {
      dated := fun t ht => ⟨(hchild t ht).1, hparent t ht⟩
      capabilities := fun t ht => (hchild t ht).2
      rootUrl := by
        rw [hroot]
        rintro _ ⟨⟩
        exact hrootUrl
      leafUrl := hurl
      dcVersions := by
        rw [hchain, Option.getD_some]
        intro proof hproof
        obtain ⟨k, hk⟩ := List.mem_iff_getElem?.mp hproof
        obtain ⟨parent, child, hparent, -, hlink⟩ := h.links k proof hk
        exact ((h.proof_isValid_iff hparent hlink).mp (hproofs proof hproof)).2.2 }
  · intro hmeets
    have hleaf : token ∈ ancestors ++ [token] := by simp
    have hrootMem : root ∈ ancestors ++ [token] := List.mem_of_mem_head? hhead
    refine ⟨⟨hmeets.dated token hleaf, ⟨hmeets.capabilities token hleaf, hmeets.leafUrl⟩, ?_⟩,
      hmeets.dated root hrootMem, hmeets.capabilities root hrootMem, hmeets.rootUrl root hroot⟩
    intro proof hproof
    obtain ⟨k, hk⟩ := List.mem_iff_getElem?.mp hproof
    obtain ⟨parent, child, hparent, hchild, hlink⟩ := h.links k proof hk
    have hparentMem := List.mem_iff_getElem?.mpr ⟨k, hparent⟩
    have hchildMem := List.mem_iff_getElem?.mpr ⟨k + 1, hchild⟩
    have hversions := hmeets.dcVersions
    rw [hchain, Option.getD_some] at hversions
    exact (h.proof_isValid_iff hparent hlink).mpr
      ⟨⟨(hmeets.dated child hchildMem).issuedAt, (hmeets.dated parent hparentMem).expiresAt⟩,
        ⟨hmeets.capabilities parent hparentMem, hmeets.capabilities child hchildMem⟩,
        hversions proof hproof⟩

/-- Of the root token the verifier leaves its expiry, its scopes and the schema to check. -/
theorem verifiedRoot_iff (h : LineageChain P.toSignaturePorts trueKey ancestors chain token)
    (htime : WithinLifetime I now ancestors token) {root : CapabilityToken}
    (hroot : (ancestors ++ [token]).head? = some root) :
    VerifiedRoot P.toSignaturePorts root now ↔
      root.isValid = true ∧ ¬ isTimestampExpired root.expiresAt now ∧
        ∀ cap ∈ root.capabilities, ¬ isPhase2Scope cap.scope := by
  have hissued := h.root root hroot
  have hmem : root ∈ ancestors ++ [token] := List.mem_of_mem_head? hroot
  constructor
  · intro hverified
    exact ⟨hverified.schema, hverified.unexpired, hverified.scopes hissued.version⟩
  · rintro ⟨hschema, hunexpired, hscopes⟩
    exact {
      schema := hschema
      issuer := hissued.issuer
      signer := by
        rw [hissued.method, didOfVerificationMethod_key (hash_not_mem_of_isDidKey hissued.issuer)]
        exact isDidAgent_eq_false_of_isDidKey hissued.issuer
      issued := htime.not_issuedInFuture hmem (hissued.isValid_iff.mp hschema).1
      unexpired := hunexpired
      undelegated := by simp [isDelegated, hissued.chain]
      scopes := fun _ => hscopes
      signature := hissued.signature }

theorem signedBy_of_trueKey (hkeys : ∀ did, ∃ keys, P.resolvePublicKeys did = some keys ∧
      keys.current = trueKey did) {did signature : String} (signedAt : String)
    {payload : List UInt8} (hverify : P.verify payload signature (trueKey did) = some true) :
    SignedBy P did payload signature signedAt := by
  obtain ⟨keys, hresolved, hcurrent⟩ := hkeys did
  refine ⟨keys, hresolved, ?_⟩
  rw [verifyDualKey, hcurrent, hverify]

theorem capabilitiesEqual_refl (capabilities : List Capability) :
    capabilitiesEqual P capabilities capabilities := ⟨rfl, rfl⟩

/-- Every hop of a lineage passes, once its root token does. -/
theorem hopChecked (h : LineageChain P.toSignaturePorts trueKey ancestors chain token)
    (hlive : ∀ t ∈ ancestors, TextLt now t.expiresAt)
    (hkeys : ∀ did, ∃ keys, P.resolvePublicKeys did = some keys ∧ keys.current = trueKey did)
    {resolveToken : Nat → String → Option CapabilityToken}
    (hresolve : ∀ k, ∀ t ∈ ancestors, resolveToken k t.id = some t)
    (hroot : ∀ root ∈ (ancestors ++ [token]).head?, VerifiedRoot P.toSignaturePorts root now)
    {k : Nat} {proof : DelegationProof} (hk : chain[k]? = some proof) :
    ∃ parentToken, HopChecked P token resolveToken (fun _ _ => false) now k
      (if k = 0 then none else chain[k - 1]?) proof chain[k + 1]? parentToken := by
  obtain ⟨parent, child, hparent, hchild, hlink⟩ := h.links k proof hk
  have hlt : k < ancestors.length := h.length ▸ (List.getElem?_eq_some_iff.mp hk).1
  have hancestor : parent ∈ ancestors := by
    rw [List.getElem?_append_left hlt] at hparent
    exact List.mem_iff_getElem?.mpr ⟨k, hparent⟩
  have hmem : parent ∈ ancestors ++ [token] := List.mem_append_left _ hancestor
  refine ⟨parent, ?_⟩
  exact {
    signed := hlink.delegator ▸ signedBy_of_trueKey hkeys _ hlink.signature
    resolved := hlink.parentTokenId ▸ hresolve k parent hancestor
    holder := hlink.delegator
    issuer := (h.shared parent hmem).1
    principal := (h.shared parent hmem).2
    snapshot := hlink.parentCapabilities ▸ capabilitiesEqual_refl _
    snapshotExpiry := hlink.parentExpiresAt
    parentId := hlink.parentTokenId.symm
    parentSigned := by
      cases k with
      | zero =>
          have hverified := hroot parent (by rw [List.head?_eq_getElem?]; exact hparent)
          have hroot := (verifyCapabilityToken_eq_ok P.toSignaturePorts).mpr hverified
          rw [if_pos rfl, checkParentSignature, hroot]
          simp [hverified.undelegated]
      | succ k =>
          -- An intermediate parent carries the signature of the previous delegator.
          obtain ⟨grandparent, previous, -, hprevious, hlink'⟩ := h.link_to hparent
          rw [if_neg (Nat.succ_ne_zero k), Nat.add_sub_cancel, hprevious]
          obtain ⟨keys, hkeys, hsigned⟩ := signedBy_of_trueKey hkeys parent.issuedAt
            hlink'.childSignature
          simp only [checkParentSignature, bind_eq_ok, require_eq_ok, resolveKeys_eq_ok,
            hlink'.delegator]
          exact ⟨keys, hkeys, true, hsigned, rfl⟩
    attenuates := by
      rw [hlink.parentCapabilities, hlink.attenuated]
      exact hlink.attenuates
    continues := by
      intro next hnext
      obtain ⟨parent', child', hparent', -, hlink'⟩ := h.links (k + 1) next hnext
      obtain rfl := Option.some.inj (hchild.symm.trans hparent')
      rw [hlink.attenuated, hlink'.parentCapabilities]
      exact capabilitiesEqual_refl _
    unrevoked := rfl
    expiry := hlink.parentExpiresAt ▸ h.expiry parent hmem
    live := hlink.parentExpiresAt ▸ hlive parent hancestor
    linked := by
      cases k with
      | zero => simp
      | succ k =>
          intro previous hprevious
          rw [if_neg (Nat.succ_ne_zero k), Nat.add_sub_cancel] at hprevious
          obtain ⟨parent', child', -, hchild', hlink'⟩ := h.links k previous hprevious
          obtain rfl := Option.some.inj (hparent.symm.trans hchild')
          rw [hlink.delegator, hlink'.delegatee] }

/-- The checks of the validator on a lineage, without its signatures. -/
theorem accepted_iff (h : LineageChain P.toSignaturePorts trueKey ancestors chain token)
    (htime : WithinLifetime I now ancestors token)
    (hresolvers : TrueResolvers P trueKey ancestors)
    (hchain : token.delegationChain = some chain) (hne : chain ≠ []) :
    (∃ depth, validateDelegationChain P token now = .ok depth) ↔
      MeetsValidator now ancestors token := by
  obtain ⟨resolveToken, htokens, hresolve⟩ := hresolvers.tokens
  have hanc : ancestors ≠ [] := fun hnil => hne (by simpa [hnil] using h.length)
  obtain ⟨root, rest, rfl⟩ := List.exists_cons_of_ne_nil hanc
  obtain ⟨first, hfirst⟩ : ∃ first, chain.head? = some first :=
    ⟨_, List.head?_eq_some_head hne⟩
  have hrootIff := h.verifiedRoot_iff htime (List.head?_cons (a := root))
  have hschemaIff := h.meetsSchema_iff hchain hne (List.head?_cons (a := root))
  simp only [validateDelegationChain_eq_ok P hchain hne, exists_and_right, exists_eq, true_and]
  constructor
  · rintro ⟨resolveToken', isRevoked, haccepted⟩
    -- The first hop has verified the root token.
    rw [List.head?_eq_getElem?] at hfirst
    obtain ⟨parent, hhop⟩ := haccepted.hops 0 first hfirst
    obtain rfl : resolveToken' = resolveToken :=
      Option.some.inj (haccepted.tokens.symm.trans htokens)
    obtain ⟨parent', child, hparent', -, hlink⟩ := h.links 0 first hfirst
    obtain rfl : root = parent' := Option.some.inj hparent'
    have hresolved := hhop.resolved
    rw [hlink.parentTokenId, hresolve 0 root List.mem_cons_self] at hresolved
    obtain rfl := Option.some.inj hresolved
    have hsigned := hhop.parentSigned
    rw [if_pos rfl, checkParentSignature] at hsigned
    simp only [bind_eq_ok, exists_unit, require_eq_ok] at hsigned
    obtain ⟨-, hsigned⟩ := hsigned
    have hverified : VerifiedRoot P.toSignaturePorts root now := by
      apply (verifyCapabilityToken_eq_ok P.toSignaturePorts).mp
      split at hsigned
      next hok => exact hok
      next => simp at hsigned
      next => simp at hsigned
    obtain ⟨hrootValid, hunexpired, hscopes⟩ := hrootIff.mp hverified
    exact {
      holders := by
        rw [← h.holders_eq (List.head?_eq_getElem? .. ▸ hfirst)]
        exact haccepted.acyclic first (List.head?_eq_getElem? .. ▸ hfirst)
      rootScopes := by simpa using hscopes
      rootUnexpired := by simpa using hunexpired
      unexpired := by
        intro t ht
        obtain ⟨k, hk⟩ := List.mem_iff_getElem?.mp ht
        obtain ⟨proof, _, hproof, -, hlink⟩ := h.link_from hk
        obtain ⟨_, hhop⟩ := haccepted.hops k proof hproof
        exact hlink.parentExpiresAt ▸ hhop.live
      schema := hschemaIff.mp ⟨haccepted.schema, hrootValid⟩ }
  · intro hmeets
    obtain ⟨hvalid, hrootValid⟩ := hschemaIff.mpr hmeets.schema
    have hverified : VerifiedRoot P.toSignaturePorts root now :=
      hrootIff.mpr ⟨hrootValid, hmeets.rootUnexpired root rfl, hmeets.rootScopes root rfl⟩
    refine ⟨resolveToken, fun _ _ => false, ?_⟩
    exact {
      schema := hvalid
      version := by
        obtain ⟨parent, -, hlink⟩ := h.link_to_leaf (List.getLast?_eq_some_getLast hne)
        rw [hlink.childVersion]
        decide
      tokens := htokens
      revocations := hresolvers.unrevoked
      depth := h.depth
      acyclic := by
        intro p hp
        rw [h.holders_eq hp]
        exact hmeets.holders
      hops := by
        intro k proof hk
        apply h.hopChecked hmeets.unexpired hresolvers.keys hresolve _ hk
        intro root' hroot'
        obtain rfl := Option.some.inj hroot'
        exact hverified
      root := h.principal
      signers := by
        intro proof hproof
        obtain ⟨k, hk⟩ := List.mem_iff_getElem?.mp hproof
        obtain ⟨parent, child, hparent, -, hlink⟩ := h.links k proof hk
        obtain ⟨-, hholder⟩ := h.issued (List.mem_iff_getElem?.mpr ⟨k, hparent⟩)
        rw [hlink.method, hlink.delegator]
        exact didOfVerificationMethod_key (hash_not_mem_of_isDidAgent hholder)
      leaf := by
        intro last hlast
        obtain ⟨parent, hmem, hlink⟩ := h.link_to_leaf hlast
        obtain ⟨-, hholder⟩ := h.issued hmem
        rw [hlink.delegatee, hlink.attenuated, hlink.childMethod, hlink.delegator,
          didOfVerificationMethod_key (hash_not_mem_of_isDidAgent hholder)]
        exact ⟨rfl, capabilitiesEqual_refl _, rfl,
          signedBy_of_trueKey hresolvers.keys _ hlink.childSignature⟩ }

/-- Among calendar instants a token that has not expired has parents after the clock, in time
and in the order of texts. -/
theorem unexpired_of_isInstant (h : LineageChain P.toSignaturePorts trueKey ancestors chain token)
    (htime : WithinLifetime I now ancestors token)
    (hinstants : ∀ t ∈ ancestors ++ [token], Calendar.IsInstant t.expiresAt) :
    ∀ t ∈ ancestors, TextLt now t.expiresAt ∧ ¬ isTimestampExpired t.expiresAt now := by
  intro t ht
  have hmem : t ∈ ancestors ++ [token] := List.mem_append_left _ ht
  have hleaf : token ∈ ancestors ++ [token] := by simp
  have hexpired : ∀ e n, Calendar.getTime token.expiresAt = some e →
      Calendar.getTime now = some n → n < e := by
    intro e n he hn
    by_contra hle
    exact htime.unexpired ⟨e, (I.getTime_iso _ (hinstants token hleaf).1).trans he, n,
      (I.getTime_iso _ htime.clock.1).trans hn, not_lt.mp hle⟩
  constructor
  · rw [textLt_iff_not_le]
    intro hle
    obtain ⟨e, n, he, hn, hen⟩ := Calendar.getTime_le_of_textLe (hinstants token hleaf)
      htime.clock ((h.expiry t hmem).trans hle)
    exact absurd (hexpired e n he hn) (not_lt.mpr hen)
  · rintro ⟨e, he, n, hn, hen⟩
    obtain ⟨l, e', hl, he', hle⟩ := Calendar.getTime_le_of_textLe (hinstants token hleaf)
      (hinstants t hmem) (h.expiry t hmem)
    obtain rfl := Option.some.inj (he.symm.trans he')
    exact absurd (hexpired l n hl hn) (not_lt.mpr (hle.trans hen))

end LineageChain

/-- The validator accepts the token of a lineage exactly when it was not delegated
or meets the checks that the issuer leaves out. -/
theorem validateDelegationChain_lineage_iff {publicKey : String → String}
    (hscheme : SignatureScheme I publicKey) (hports : P.toSignaturePorts = I.toSignaturePorts)
    (hlineage : Lineage I publicKey trueKey ancestors token)
    (hresolvers : TrueResolvers P trueKey ancestors)
    (htime : WithinLifetime I now ancestors token) :
    (∃ depth, validateDelegationChain P token now = .ok depth) ↔
      ancestors = [] ∨ MeetsValidator now ancestors token := by
  have hchain := hlineage.chain hscheme
  rw [← hports] at hchain
  have hlength := hchain.length
  cases hdelegation : token.delegationChain with
  | none =>
      rw [hdelegation] at hlength
      have hnil : ancestors = [] := List.length_eq_zero_iff.mp hlength.symm
      simp [validateDelegationChain, hdelegation, hnil]
  | some chain =>
      rw [hdelegation] at hchain hlength
      cases chain with
      | nil =>
          have hnil : ancestors = [] := List.length_eq_zero_iff.mp hlength.symm
          simp [validateDelegationChain, hdelegation, hnil]
      | cons first rest =>
          have hne : ancestors ≠ [] := by
            rintro rfl
            simp at hlength
          rw [hchain.accepted_iff htime hresolvers hdelegation (List.cons_ne_nil _ _)]
          simp [hne]

end Agreement

/-! The tokens of the relay as the issuer makes them, and a delegation back to the
editor, which the issuer makes as well. -/

namespace Relay

/-- Signing in a world in which only the listed bytes are signed. -/
def signIn (ledger : List SignedBytes) (payload : List UInt8) (privateKey : String) :
    Option String :=
  (ledger.find? fun s => s.privateKey == privateKey && s.payload == payload).map (·.signature)

def publicKey (privateKey : String) : String :=
  (([owner, editor, writer, helper].map keyPair).lookup privateKey).getD ""

def trueKey (did : String) : String := (keyPair did).2

def issuerPorts (ledger : List SignedBytes) : IssuerPorts where
  numberFormat := NumberFormat.decimal
  verify := verifyIn ledger
  sign := signIn ledger
  parseUrl url :=
    if url = "https://revoke.example/placeholder" then some ("https:", "revoke.example") else none
  getTime := Calendar.getTime
  getTime_iso _ _ := rfl

theorem issuerPorts_scheme {ledger : List SignedBytes}
    (hkeys : ∀ s ∈ ledger, publicKey s.privateKey = s.publicKey)
    (htexts : ∀ s ∈ ledger, isSignature s.signature = true) :
    SignatureScheme (issuerPorts ledger) publicKey := by
  have hentry : ∀ {payload privateKey signature}, signIn ledger payload privateKey = some signature →
      ∃ s ∈ ledger, s.privateKey = privateKey ∧ s.payload = payload ∧ s.signature = signature := by
    intro payload privateKey signature hsign
    obtain ⟨s, hfind, rfl⟩ := Option.map_eq_some_iff.mp hsign
    have hmatch := List.find?_some hfind
    simp only [Bool.and_eq_true, beq_iff_eq] at hmatch
    exact ⟨s, List.mem_of_find?_eq_some hfind, hmatch.1, hmatch.2, rfl⟩
  constructor
  · intro payload privateKey signature hsign
    obtain ⟨s, hs, rfl, rfl, rfl⟩ := hentry hsign
    rw [hkeys s hs]
    exact verifyIn_of_mem hs
  · intro payload privateKey signature hsign
    obtain ⟨s, hs, -, -, rfl⟩ := hentry hsign
    exact htexts s hs

theorem signIn_skip {s : SignedBytes} {ledger : List SignedBytes} {payload : List UInt8}
    {privateKey : String} (hne : s.privateKey ≠ privateKey ∨ s.payload ≠ payload) :
    signIn (s :: ledger) payload privateKey = signIn ledger payload privateKey := by
  have hmatch : (s.privateKey == privateKey && s.payload == payload) = false := by
    rcases hne with hkey | hpayload
    · simp [hkey]
    · simp [hpayload]
  simp only [signIn, List.find?_cons, hmatch]

theorem signIn_head (s : SignedBytes) (ledger : List SignedBytes) :
    signIn (s :: ledger) s.payload s.privateKey = some s.signature := by
  simp [signIn]

theorem signedToken_payload_ne (signer : String) (token : CapabilityToken) (proof : DelegationProof) :
    (signedProof proof).payload ≠ (signedToken signer token).payload := by
  rw [@payload_signedProof [] [] [], @payload_signedToken [] [] []]
  exact (createCapabilityTokenPayload_ne_delegationProofPayload _ token proof).symm

theorem keys_differ : (keyPair owner).1 ≠ (keyPair editor).1 ∧
    (keyPair owner).1 ≠ (keyPair writer).1 ∧ (keyPair editor).1 ≠ (keyPair writer).1 := by
  decide +kernel

theorem publicKey_keyPair : publicKey (keyPair owner).1 = (keyPair owner).2 ∧
    publicKey (keyPair editor).1 = (keyPair editor).2 ∧
    publicKey (keyPair writer).1 = (keyPair writer).2 := by
  decide +kernel

/-- The signatures of the owner, of the editor and of a last delegation by the
writer. -/
def relayLedger (last : DelegationProof) (token : CapabilityToken) : List SignedBytes :=
  [signedToken owner root, signedProof editorProof, signedToken editor writerToken,
    signedProof last, signedToken writer token]

section Signing

variable {last : DelegationProof} {token : CapabilityToken}

theorem sign_root : signIn (relayLedger last token) (signedToken owner root).payload
    (keyPair owner).1 = some root.proof.value :=
  signIn_head _ _

theorem sign_editorProof : signIn (relayLedger last token) (signedProof editorProof).payload
    (keyPair editor).1 = some editorProof.proof.value := by
  rw [relayLedger, signIn_skip (.inl keys_differ.1)]
  exact signIn_head _ _

theorem sign_writerToken : signIn (relayLedger last token) (signedToken editor writerToken).payload
    (keyPair editor).1 = some writerToken.proof.value := by
  rw [relayLedger, signIn_skip (.inl keys_differ.1),
    signIn_skip (.inr (signedToken_payload_ne editor writerToken editorProof))]
  exact signIn_head _ _

theorem sign_last (hlast : last.delegatorDid = writer) :
    signIn (relayLedger last token) (signedProof last).payload (keyPair writer).1 =
      some last.proof.value := by
  rw [relayLedger, signIn_skip (.inl keys_differ.2.1), signIn_skip (.inl keys_differ.2.2),
    signIn_skip (.inl keys_differ.2.2), ← hlast]
  exact signIn_head _ _

theorem sign_token : signIn (relayLedger last token) (signedToken writer token).payload
    (keyPair writer).1 = some token.proof.value := by
  rw [relayLedger, signIn_skip (.inl keys_differ.2.1), signIn_skip (.inl keys_differ.2.2),
    signIn_skip (.inl keys_differ.2.2), signIn_skip (.inr (signedToken_payload_ne writer token last))]
  exact signIn_head _ _

theorem relayLedger_scheme (hlast : last.delegatorDid = writer)
    (hproof : isSignature last.proof.value = true) (htoken : isSignature token.proof.value = true) :
    SignatureScheme (issuerPorts (relayLedger last token)) publicKey := by
  obtain ⟨howner, heditor, hwriter⟩ := publicKey_keyPair
  have hsignatures : isSignature root.proof.value = true ∧
      isSignature editorProof.proof.value = true ∧ isSignature writerToken.proof.value = true :=
    ⟨(isSignature_ofList _).trans (by decide), (isSignature_ofList _).trans (by decide),
      (isSignature_ofList _).trans (by decide)⟩
  apply issuerPorts_scheme
  · simp only [relayLedger, List.forall_mem_cons]
    refine ⟨howner, heditor, heditor, ?_, hwriter, by simp⟩
    simp only [signedProof, hlast]
    exact hwriter
  · simp only [relayLedger, List.forall_mem_cons]
    exact ⟨hsignatures.1, hsignatures.2.1, hsignatures.2.2, hproof, htoken, by simp⟩

end Signing

def revocationUrl : String := "https://revoke.example/\x7bid\x7d"

theorem revocationUrl_valid (ledger : List SignedBytes) :
    isValidRevocationUrlTemplate (issuerPorts ledger) revocationUrl = true := by
  have hfilled : (replacePlaceholder "placeholder".toList revocationUrl.toList).map String.ofList =
      some "https://revoke.example/placeholder" := by decide +kernel
  obtain ⟨filled, htext, hfilled⟩ := Option.map_eq_some_iff.mp hfilled
  simp only [isValidRevocationUrlTemplate, htext, hfilled, issuerPorts, if_pos]
  decide

def rootUuid : Uuid := ⟨"3b241101-e2bb-4255-8caf-4136c566a962", by decide +kernel⟩

def rootParams : IssueCapabilityTokenParams where
  issuerDid := owner
  issuedTo := editor
  capabilities := channels ["blog", "news"]
  expiresAt := "2027-01-01T00:00:00.000Z"
  revocationUrl := revocationUrl
  issuerPrivateKey := (keyPair owner).1
  issuedAt := "2026-01-01T00:00:00.000Z"

/-- The parameters under which the holder of a token delegates its blog channel. -/
def blogParams (parent : CapabilityToken) (delegatee issuedAt expiresAt : String) :
    DelegateTokenParams where
  parentToken := parent
  delegatorPrivateKey := (keyPair parent.issuedTo).1
  delegateeDid := delegatee
  attenuatedCapabilities := channels ["blog"]
  expiresAt := expiresAt
  revocationUrl := revocationUrl
  issuedAt := issuedAt
  dcVersion := none

theorem root_issued {last : DelegationProof} {token : CapabilityToken} :
    issueCapabilityToken (issuerPorts (relayLedger last token)) rootParams rootUuid = .ok root := by
  have hid : "urn:cap:" ++ rootUuid.text = root.id := by decide +kernel
  have hpayload : createCapabilityTokenPayload (issuerPorts (relayLedger last token)).toSignaturePorts
      (rootPayload rootParams rootUuid) = (signedToken owner root).payload := by
    simp only [createCapabilityTokenPayload, capabilityTokenPayloadJson, rootPayload, hid, signedToken,
      issuerPorts]
    rfl
  simp only [issueCapabilityToken, bind_eq_ok, exists_unit, require_eq_ok, pure_eq_ok,
    signOrThrow_eq_ok, hpayload]
  have hlive : ¬ isTimestampExpired rootParams.expiresAt rootParams.issuedAt := by decide +kernel
  refine ⟨owner_isDidKey, editor_isDidAgent, by decide, hlive, revocationUrl_valid _,
    root.proof.value, ?_, ?_⟩
  · simp only [issuerPorts, rootParams]
    exact sign_root
  · simp only [rootPayload, hid]
    rfl

/-- What the issuer makes of a blog delegation that its holder signs. -/
theorem blog_delegated {ledger : List SignedBytes} {parent : CapabilityToken}
    {delegatee issuedAt expiresAt id proofValue value signer : String} (uuid : Uuid)
    {proof : DelegationProof} {token : CapabilityToken}
    (hproof : proof = blogProof parent delegatee issuedAt proofValue)
    (htoken : token = blogToken parent (parent.delegationChain.getD [] ++ [proof]) id delegatee issuedAt
      expiresAt value)
    (hid : "urn:cap:" ++ uuid.text = id) (hdelegatee : isDidAgent delegatee = true)
    (hfuture : ¬ isTimestampExpired expiresAt issuedAt) (hexpiry : TextLe expiresAt parent.expiresAt)
    (hattenuates : Attenuates NumberFormat.decimal parent.capabilities (channels ["blog"]))
    (hdepth : (parent.delegationChain.getD []).length + 1 ≤ maxDelegationDepth)
    (hproofSigned : signIn ledger (signedProof proof).payload (keyPair parent.issuedTo).1 =
      some proofValue)
    (htokenSigned : signIn ledger (signedToken signer token).payload (keyPair parent.issuedTo).1 =
      some value) :
    delegateCapabilityToken (issuerPorts ledger) (blogParams parent delegatee issuedAt expiresAt) uuid =
      .ok token := by
  subst hid
  have hproofPayload : delegationProofPayload (issuerPorts ledger).toSignaturePorts
      (delegationPayload (blogParams parent delegatee issuedAt expiresAt)) =
        (signedProof proof).payload := by
    rw [hproof]
    simp only [delegationProofPayload, delegationPayload, blogParams, signedProof, blogProof,
      issuerPorts, DelegationProof.signedMembers]
  simp only [delegateCapabilityToken, bind_eq_ok, exists_unit, require_eq_ok, pure_eq_ok,
    mapError_eq_ok, validateAttenuation_eq_ok, signOrThrow_eq_ok, ← textLe_iff_not_lt, hproofPayload]
  refine ⟨hdelegatee, by simp [blogParams, channels], hfuture, hexpiry, revocationUrl_valid _,
    hattenuates, hdepth, proofValue, hproofSigned, value, ?_, ?_⟩
  · have htokenPayload : createCapabilityTokenPayload (issuerPorts ledger).toSignaturePorts
        (childPayload (blogParams parent delegatee issuedAt expiresAt) uuid proof) =
          (signedToken signer token).payload := by
      rw [htoken]
      simp only [createCapabilityTokenPayload, capabilityTokenPayloadJson, childPayload, blogParams,
        signedToken, blogToken, specVersion020, revocationUrl, issuerPorts]
    have hfilled : { delegationPayload (blogParams parent delegatee issuedAt expiresAt) with
        proof := { (delegationPayload (blogParams parent delegatee issuedAt expiresAt)).proof with
          value := proofValue } } = proof := by
      rw [hproof]
      rfl
    rw [hfilled, htokenPayload]
    exact htokenSigned
  · rw [htoken, hproof]
    rfl

def writerUuid : Uuid := ⟨"c9bf9e57-1685-4c89-bafb-ff5af830be8a", by decide +kernel⟩

theorem writerToken_lineage {last : DelegationProof} {token : CapabilityToken} :
    Lineage (issuerPorts (relayLedger last token)) publicKey trueKey [root] writerToken := by
  have hroot : Lineage (issuerPorts (relayLedger last token)) publicKey trueKey [] root := by
    refine .issue ?_ root_issued
    simp only [rootParams, publicKey_keyPair.1]
    exact owner_key
  refine @Lineage.delegate _ _ _ _ (blogParams root writer _ _) _ _ hroot publicKey_keyPair.2.1
    (blog_delegated writerUuid rfl rfl ?_ writer_isDidAgent ?_ ?_ (blog_attenuates _ (.inl rfl)) ?_
      sign_editorProof sign_writerToken)
  · decide +kernel
  · decide +kernel
  · decide +kernel
  · decide +kernel

/-- The writer delegates to any agent. -/
theorem lastToken_lineage {delegatee id proofValue value : String} {last : DelegationProof}
    {token : CapabilityToken} (uuid : Uuid) (hlast : last = writerProofOn writerToken delegatee proofValue)
    (htoken : token = lastTokenUnder writerToken [editorProof, last] id delegatee value)
    (hid : "urn:cap:" ++ uuid.text = id) (hdelegatee : isDidAgent delegatee = true) :
    Lineage (issuerPorts (relayLedger last token)) publicKey trueKey [root, writerToken] token := by
  have hdelegator : last.delegatorDid = writer := by rw [hlast]; rfl
  have hproofValue : last.proof.value = proofValue := by rw [hlast]; rfl
  have hvalue : token.proof.value = value := by rw [htoken]; rfl
  refine @Lineage.delegate _ _ _ [root] (blogParams writerToken delegatee _ _) _ _ writerToken_lineage
    publicKey_keyPair.2.2 (blog_delegated uuid hlast htoken hid hdelegatee ?_ ?_
      (blog_attenuates _ (.inr rfl)) ?_ (hproofValue ▸ sign_last hdelegator) (hvalue ▸ sign_token))
  · decide +kernel
  · decide +kernel
  · decide +kernel

theorem relay_trueResolvers (ledger : List SignedBytes) :
    TrueResolvers (ports ledger [root, writerToken] []) trueKey [root, writerToken] where
  keys did := ⟨_, rfl, rfl⟩
  tokens := by
    have hfound : ∀ t ∈ [root, writerToken], [root, writerToken].find? (·.id == t.id) = some t := by
      decide +kernel
    exact ⟨_, rfl, fun _ => hfound⟩
  unrevoked := rfl

theorem relay_withinLifetime {ledger : List SignedBytes} {chain : List DelegationProof}
    {id delegatee value : String} :
    WithinLifetime (issuerPorts ledger) today [root, writerToken]
      (lastTokenUnder writerToken chain id delegatee value) := by
  have hissued : ∀ issuedAt ∈ ["2026-01-01T00:00:00.000Z", "2026-02-01T00:00:00.000Z",
      "2026-03-01T00:00:00.000Z"],
      ∀ i ∈ Calendar.getTime issuedAt, ∀ n ∈ Calendar.getTime today, i ≤ n := by
    decide +kernel
  simp only [List.forall_mem_cons, List.not_mem_nil, false_imp_iff, implies_true, and_true]
    at hissued
  refine ⟨by decide +kernel, ?_, ?_⟩
  · simp only [List.cons_append, List.nil_append, List.forall_mem_cons, List.not_mem_nil,
      false_imp_iff, implies_true, and_true]
    exact hissued
  · show ¬ isTimestampExpired "2026-11-01T00:00:00.000Z" today
    decide +kernel

def helperUuid : Uuid := ⟨"7d444840-9dc0-41d1-b245-5ffdce74fad2", by decide +kernel⟩

theorem helperToken_lineage : Lineage (issuerPorts (relayLedger writerProof helperToken)) publicKey
    trueKey [root, writerToken] helperToken :=
  lastToken_lineage helperUuid rfl rfl (by decide +kernel) helper_isDidAgent

theorem helperToken_scheme :
    SignatureScheme (issuerPorts (relayLedger writerProof helperToken)) publicKey :=
  relayLedger_scheme rfl ((isSignature_ofList _).trans (by decide))
    ((isSignature_ofList _).trans (by decide))

theorem helperToken_unexpired : ∀ t ∈ [root, writerToken],
    TextLt today t.expiresAt ∧ ¬ isTimestampExpired t.expiresAt today := by
  have hchain : LineageChain
      (ports (relayLedger writerProof helperToken) [root, writerToken] []).toSignaturePorts trueKey
      [root, writerToken] [editorProof, writerProof] helperToken :=
    helperToken_lineage.chain helperToken_scheme
  have hlife : WithinLifetime (issuerPorts (relayLedger writerProof helperToken)) today
      [root, writerToken] helperToken := relay_withinLifetime
  exact hchain.unexpired_of_isInstant hlife (by decide +kernel)

theorem helperToken_meets : MeetsValidator today [root, writerToken] helperToken where
  holders := by decide +kernel
  rootScopes := by decide
  rootUnexpired := by
    rintro _ ⟨⟩
    exact (helperToken_unexpired root (by simp)).2
  unexpired t ht := (helperToken_unexpired t ht).1
  schema := {
    dated := by
      simp only [List.cons_append, List.nil_append, List.forall_mem_cons, List.not_mem_nil,
        false_imp_iff, implies_true, and_true]
      exact ⟨⟨(isIsoText_ofList _).trans (by decide), (isIsoText_ofList _).trans (by decide)⟩,
        ⟨(isIsoText_ofList _).trans (by decide), (isIsoText_ofList _).trans (by decide)⟩,
        ⟨(isIsoText_ofList _).trans (by decide), (isIsoText_ofList _).trans (by decide)⟩⟩
    capabilities := by
      simp only [List.cons_append, List.nil_append, List.forall_mem_cons, List.not_mem_nil,
        false_imp_iff, implies_true, and_true]
      exact ⟨channels_isValid.1, channels_isValid.1, channels_isValid.2⟩
    rootUrl := by
      rintro _ ⟨⟩
      exact revocationUrl_isValid
    leafUrl := revocationUrl_isValid
    dcVersions := by decide }

/-- The lineage of the helper's token is accepted. -/
theorem helperToken_agreed :
    Lineage (issuerPorts (relayLedger writerProof helperToken)) publicKey trueKey [root, writerToken]
        helperToken ∧
      ∃ depth, validateDelegationChain
        (ports (relayLedger writerProof helperToken) [root, writerToken] []) helperToken today =
          .ok depth :=
  ⟨helperToken_lineage, (validateDelegationChain_lineage_iff helperToken_scheme rfl
    helperToken_lineage (relay_trueResolvers _) relay_withinLifetime).mpr (.inr helperToken_meets)⟩

def returnProof : DelegationProof :=
  writerProofOn writerToken editor
    "f2wnO74GEM3cOA6-RJHAZrvCOOQxClPeiKt2dB7Gvy6YBHau7zvZcMjt-MxGLoROAPlTwtMeyksbm1VIE1bKCw"

/-- The writer delegates back to the editor. -/
def returnedToken : CapabilityToken :=
  lastTokenUnder writerToken [editorProof, returnProof]
    "urn:cap:1b9d6bcd-bbfd-4b2d-9b5d-ab8dfbbd4bed" editor
    "8IXf8AvfFYNA1_lSnFuP-Y3o06XXAry-XlA7A6w45I3tWUO83LnZYqwFzf8qDcAwz3Q-inc1Wgg-h_DG0DVFCg"

def returnedUuid : Uuid := ⟨"1b9d6bcd-bbfd-4b2d-9b5d-ab8dfbbd4bed", by decide +kernel⟩

/-- The issuer makes a token for the editor that the validator refuses. -/
theorem returnedToken_refused :
    SignatureScheme (issuerPorts (relayLedger returnProof returnedToken)) publicKey ∧
      Lineage (issuerPorts (relayLedger returnProof returnedToken)) publicKey trueKey
        [root, writerToken] returnedToken ∧
      TrueResolvers (ports (relayLedger returnProof returnedToken) [root, writerToken] []) trueKey
        [root, writerToken] ∧
      WithinLifetime (issuerPorts (relayLedger returnProof returnedToken)) today
        [root, writerToken] returnedToken ∧
      validateDelegationChain (ports (relayLedger returnProof returnedToken) [root, writerToken] [])
        returnedToken today = .error (refusal .cycleDetected) := by
  have hscheme : SignatureScheme (issuerPorts (relayLedger returnProof returnedToken)) publicKey :=
    relayLedger_scheme rfl ((isSignature_ofList _).trans (by decide))
      ((isSignature_ofList _).trans (by decide))
  have hlineage : Lineage (issuerPorts (relayLedger returnProof returnedToken)) publicKey trueKey
      [root, writerToken] returnedToken :=
    lastToken_lineage returnedUuid rfl rfl (by decide +kernel) editor_isDidAgent
  -- The schema accepts the token, so it is the search for cycles that refuses it.
  have hvalid : returnedToken.isValid = true := by
    have hchain : LineageChain
        (ports (relayLedger returnProof returnedToken) [root, writerToken] []).toSignaturePorts
        trueKey [root, writerToken] [editorProof, returnProof] returnedToken :=
      hlineage.chain hscheme
    exact (hchain.leaf_isValid_iff rfl (by simp)).mpr
      ⟨⟨(isIsoText_ofList _).trans (by decide), (isIsoText_ofList _).trans (by decide)⟩,
        ⟨channels_isValid.2, revocationUrl_isValid⟩,
        proofs_isValid ⟨_, _, rfl, by decide⟩ ⟨_, _, _, _, rfl, by decide⟩ editor_isDidAgent
          ((isSignature_ofList _).trans (by decide)) ((isSignature_ofList _).trans (by decide))⟩
  refine ⟨hscheme, hlineage, relay_trueResolvers _, relay_withinLifetime, ?_⟩
  simp only [validateDelegationChain, hvalid]
  rfl

end Relay

end Coivitas.Identity
