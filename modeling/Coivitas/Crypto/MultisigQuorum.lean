import Coivitas.Crypto.Multisig
import Mathlib.Data.Set.Card

/-! # The quorum of a multisig token

The verifier tells signers apart by their ids, and counts signatures. Two
entries with one key under two ids, in one encoding or in two, are counted
twice. `distinctQuorum_iff` says that this is the only way in which an accepted
token can fall short of a quorum of different keys.
-/

namespace Coivitas.Crypto.Multisig

open Foundation Sha256

variable (P : MultisigPorts)

/-- The bytes every signer signs: those of the caller, or the canonical payload. -/
def signedBytes (token : MultisigToken) (options : VerifyMultisigProofOptions) : List UInt8 :=
  options.cspSignedBytes.getD (canonicalSerialize P.numberFormat token.csp)

/-- The public key of a signer, whatever text it is written in. -/
def SignerInfo.key? (signer : SignerInfo) : Option (List UInt8) := normalizeKey signer.publicKey

/-- The signature of the signer verifies over the message under the 32-byte key. -/
def SignsWith (message : List UInt8) (signer : SignerInfo) (key : List UInt8) : Prop :=
  signer.key? = some key ∧ key.length = 32 ∧
    ∃ signature, normalizeKey signer.signature = some signature ∧
      P.ed25519Verify signature message key = some true

/-- The keys under which a signature of the token verifies. -/
def verifiedKeys (token : MultisigToken) (message : List UInt8) : Set (List UInt8) :=
  {key | ∃ signer ∈ token.signers, SignsWith P message signer key}

/-- A quorum of distinct keys: enough signers with different keys and verified
signatures, and each key counted once. -/
structure DistinctQuorum (token : MultisigToken) (options : VerifyMultisigProofOptions)
    (result : VerifyMultisigProofResult) : Prop where
  quorum : ∃ signers : List SignerInfo, signers.Sublist token.signers ∧
    token.threshold ≤ (signers.length : ℚ) ∧
    signers.Pairwise (fun a b => a.key? ≠ b.key?) ∧
    ∀ signer ∈ signers, ∃ key, SignsWith P (signedBytes P token options) signer key
  countedOnce : result.validCount ≤ (verifiedKeys P token (signedBytes P token options)).ncard

theorem countValid_eq {proofMap : OrderedMap String String}
    {merkleRootBytes message : List UInt8} (signers : List (SignerInfo × Nat))
    {validCount result : Nat}
    (h : countValid P proofMap merkleRootBytes message signers validCount = .ok result) :
    result = validCount + signers.length := by
  induction signers generalizing validCount with
  | nil => exact (Except.ok.inj h).symm
  | cons entry signers ih =>
      simp only [countValid, bind_eq_ok, exists_unit] at h
      rw [ih h.2, List.length_cons]
      omega

theorem signsWith_of_verifySigner {proofMap : OrderedMap String String}
    {merkleRootBytes message : List UInt8} {signer : SignerInfo} {i : Nat}
    (h : verifySigner P proofMap merkleRootBytes message signer i = .ok ()) :
    ∃ key, SignsWith P message signer key := by
  simp only [verifySigner, bind_eq_ok] at h
  obtain ⟨signature, hsignature, key, hkey, leaf, -, h⟩ := h
  obtain ⟨hkey, hlength⟩ := assertSignerPublicKey_eq_ok.mp hkey
  split at h
  next => cases h
  next pathStr _ =>
    simp only [bind_eq_ok, exists_unit, require_eq_ok] at h
    obtain ⟨pathBytes, -, inclusionValid, -, -, h⟩ := h
    split at h
    next => cases h
    next valid hverify =>
      obtain rfl : valid = true := require_eq_ok.mp h
      exact ⟨key, hkey, hlength, signature, (assertSignerSignature_eq_ok.mp hsignature).1,
        hverify⟩

/-- What acceptance shows: enough signers, all of them verified and counted. -/
structure AllVerified (token : MultisigToken) (options : VerifyMultisigProofOptions)
    (result : VerifyMultisigProofResult) : Prop where
  enough : token.threshold ≤ (token.signers.length : ℚ)
  signed : ∀ signer ∈ token.signers, ∃ key, SignsWith P (signedBytes P token options) signer key
  counted : result.validCount = token.signers.length

theorem allVerified_of_accepted {token : MultisigToken} {options : VerifyMultisigProofOptions}
    {result : VerifyMultisigProofResult}
    (haccepted : verifyMultisigProof P token options = .ok result) :
    AllVerified P token options result := by
  simp only [verifyMultisigProof, bind_eq_ok, exists_unit, require_eq_ok, pure_eq_ok]
    at haccepted
  obtain ⟨-, -, -, signerIdSet, -, -, proofMap, -, merkleRootBytes, -, validCount, hcount,
    hquorum, rfl⟩ := haccepted
  have hall : validCount = token.signers.length := by
    have hcount := countValid_eq P _ hcount
    rwa [Nat.zero_add, List.length_zipIdx] at hcount
  refine ⟨hall ▸ not_lt.mp hquorum, ?_, hall⟩
  intro signer hsigner
  obtain ⟨i, hi⟩ := List.mem_iff_getElem?.mp hsigner
  exact signsWith_of_verifySigner P (verifySigner_of_countValid P _ hcount (signer, i)
    (List.mem_zipIdx_iff_getElem?.mpr hi))

section Verified

variable {P} {token : MultisigToken} {options : VerifyMultisigProofOptions}
  {result : VerifyMultisigProofResult}

/-- The verified keys of an accepted token are the keys of its signers. -/
theorem AllVerified.verifiedKeys_eq (h : AllVerified P token options result) :
    verifiedKeys P token (signedBytes P token options) =
      ((token.signers.map fun signer => signer.key?.getD []).toFinset : Set (List UInt8)) := by
  ext key
  simp only [verifiedKeys, Set.mem_ofPred_eq, List.coe_toFinset, List.mem_map]
  constructor
  · rintro ⟨signer, hsigner, hkey, -⟩
    exact ⟨signer, hsigner, by rw [hkey, Option.getD_some]⟩
  · rintro ⟨signer, hsigner, rfl⟩
    obtain ⟨key, hkey⟩ := h.signed signer hsigner
    refine ⟨signer, hsigner, ?_⟩
    rwa [hkey.1, Option.getD_some]

/-- Each signer has its own key exactly when there are as many keys as signers. -/
theorem AllVerified.pairwise_iff_card (h : AllVerified P token options result) :
    token.signers.Pairwise (fun a b => a.key? ≠ b.key?) ↔
      token.signers.length ≤ (verifiedKeys P token (signedBytes P token options)).ncard := by
  have hnodup : token.signers.Pairwise (fun a b => a.key? ≠ b.key?) ↔
      (token.signers.map fun signer => signer.key?.getD []).Nodup := by
    rw [List.Nodup, List.pairwise_map]
    refine List.Pairwise.iff_of_mem fun {a b} ha hb => ?_
    obtain ⟨keyA, hkeyA, -⟩ := h.signed a ha
    obtain ⟨keyB, hkeyB, -⟩ := h.signed b hb
    simp [hkeyA, hkeyB]
  rw [hnodup, h.verifiedKeys_eq, Set.ncard_coe_finset, List.card_toFinset]
  constructor
  · intro hnodup
    rw [hnodup.dedup, List.length_map]
  · intro hlength
    rw [← List.length_map (f := fun signer : SignerInfo => signer.key?.getD [])] at hlength
    exact List.dedup_eq_self.mp ((List.dedup_sublist _).eq_of_length_le hlength)

end Verified

/-- An accepted token has a quorum of distinct keys exactly when no two of its
signer entries decode to the same public key. -/
theorem distinctQuorum_iff {token : MultisigToken} {options : VerifyMultisigProofOptions}
    {result : VerifyMultisigProofResult}
    (haccepted : verifyMultisigProof P token options = .ok result) :
    DistinctQuorum P token options result ↔
      token.signers.Pairwise fun a b =>
        normalizeKey a.publicKey ≠ normalizeKey b.publicKey := by
  have hall := allVerified_of_accepted P haccepted
  constructor
  · intro h
    refine hall.pairwise_iff_card.mpr ?_
    rw [← hall.counted]
    exact h.countedOnce
  · intro hdistinct
    refine ⟨⟨token.signers, List.Sublist.refl _, hall.enough, hdistinct, hall.signed⟩, ?_⟩
    rw [hall.counted]
    exact hall.pairwise_iff_card.mp hdistinct

/-! ## One key under two ids -/

namespace Editorial

/-- The key and the signature of the editor under another id, the key in hex. -/
def editorAlias : SignerInfo where
  id := "did:key:writer"
  role := .agent
  publicKey := "ba11280b75ee1c190b2dc439528f1d970c73634298d1f5f98a5c6eff6acfa554"
  signature := editor.signature

/-- The two signers have two keys, and the alias has the key of the editor. -/
theorem normalizeKey_signers :
    normalizeKey editor.publicKey ≠ normalizeKey writer.publicKey ∧
      normalizeKey editorAlias.publicKey = normalizeKey editor.publicKey := by
  rw [show normalizeKey editor.publicKey = _ from normalizeKey_ofList _,
    show normalizeKey writer.publicKey = _ from normalizeKey_ofList _,
    show normalizeKey editorAlias.publicKey = _ from normalizeKey_ofList _]
  decide

theorem quorum_of_editorial :
    verifyMultisigProof ports token {} = .ok ⟨2, 2⟩ ∧ DistinctQuorum ports token {} ⟨2, 2⟩ := by
  refine ⟨token_accepted, (distinctQuorum_iff ports token_accepted).mpr ?_⟩
  exact List.pairwise_pair.mpr normalizeKey_signers.1

def doubledToken : MultisigToken where
  multisigVersion := "1.0.0"
  threshold := 2
  signers := [editor, editorAlias]
  merkleRoot := "fd139a3553c458eb25f99b84a1195bc008b3a04f37c3b83b7472d1b4358c421c"
  inclusionProofs :=
    [{ signerId := "did:key:editor", path := "KRc_FxHMr-XxUNircN_lUq3rp2xq1LlnSoAI5h7WJ6QB" },
      { signerId := "did:key:writer", path := "_vI6gmEZskdacLYFbgriOFCYTD08LqB8qS7WDLhUiX4A" }]
  csp := csp

def aliasLeaf : List UInt8 :=
  hexPairs "29173f1711ccafe5f150d8ab70dfe552adeba76c6ad4b9674a8008e61ed627a4".toList

def doubledRoot : List UInt8 :=
  hexPairs "fd139a3553c458eb25f99b84a1195bc008b3a04f37c3b83b7472d1b4358c421c".toList

/-- The leaf of the alias, and the root over it and the leaf of the editor. -/
theorem generateMerkleLeaf_aliasLeaf :
    generateMerkleLeaf NumberFormat.decimal editorAlias.leafInput = .ok aliasLeaf ∧
      combine editorLeaf aliasLeaf = doubledRoot := by
  rw [generateMerkleLeaf_of_ne (by decide) (by decide), combine, Packed.sha256_eq,
    Packed.sha256_eq,
    show leafText NumberFormat.decimal editorAlias.leafInput = _ from leafText_ofList _ _,
    show editorLeaf = hexPairs _ from congrArg hexPairs String.toList_ofList,
    show aliasLeaf = hexPairs _ from congrArg hexPairs String.toList_ofList,
    show doubledRoot = hexPairs _ from congrArg hexPairs String.toList_ofList]
  decide +kernel

theorem generateMerkleLeaf_alias :
    generateMerkleLeaf NumberFormat.decimal editorAlias.leafInput = .ok aliasLeaf ∧
      verifyMerkleInclusion editorLeaf (aliasLeaf ++ [1]) doubledRoot = .ok true ∧
      verifyMerkleInclusion aliasLeaf (editorLeaf ++ [0]) doubledRoot = .ok true := by
  have heditor := length_of_generateMerkleLeaf generateMerkleLeaf_signers.1
  have halias := length_of_generateMerkleLeaf generateMerkleLeaf_aliasLeaf.1
  have hspelled := spelled_of_buildMerkleTree (buildMerkleTree_pair heditor halias)
    (List.forall_mem_cons.mpr ⟨heditor, List.forall_mem_singleton.mpr halias⟩)
  rw [generateMerkleLeaf_aliasLeaf.2] at hspelled
  have hfirst : [editorLeaf, aliasLeaf][0]? = some editorLeaf := rfl
  have hsecond : [editorLeaf, aliasLeaf][1]? = some aliasLeaf := rfl
  exact ⟨generateMerkleLeaf_aliasLeaf.1, hspelled.included hfirst heditor rfl,
    hspelled.included hsecond halias rfl⟩

theorem decode_doubled :
    decodeMerkleRoot doubledToken.merkleRoot = .ok doubledRoot ∧
      fromBase64Url "KRc_FxHMr-XxUNircN_lUq3rp2xq1LlnSoAI5h7WJ6QB".toList =
        some (aliasLeaf ++ [1]) := by
  unfold decodeMerkleRoot
  rw [decodeText_eq_ok (by decide),
    show normalizeKey doubledToken.merkleRoot = _ from normalizeKey_ofList _,
    show "KRc_FxHMr-XxUNircN_lUq3rp2xq1LlnSoAI5h7WJ6QB".toList = _ from String.toList_ofList,
    show aliasLeaf = hexPairs _ from congrArg hexPairs String.toList_ofList,
    show doubledRoot = hexPairs _ from congrArg hexPairs String.toList_ofList]
  decide

theorem exists_doubledProofMap :
    ∃ proofMap, collectProofs [editorAlias.id, editor.id] doubledToken.inclusionProofs.zipIdx
        OrderedMap.empty = .ok proofMap ∧
      proofMap.get? editor.id =
        some "KRc_FxHMr-XxUNircN_lUq3rp2xq1LlnSoAI5h7WJ6QB" ∧ proofMap.get? editorAlias.id =
        some "_vI6gmEZskdacLYFbgriOFCYTD08LqB8qS7WDLhUiX4A" := by
  have h : (collectProofs [editorAlias.id, editor.id] doubledToken.inclusionProofs.zipIdx
      OrderedMap.empty).toOption.any (fun proofMap => decide (
        proofMap.get? editor.id =
        some "KRc_FxHMr-XxUNircN_lUq3rp2xq1LlnSoAI5h7WJ6QB" ∧ proofMap.get? editorAlias.id =
        some "_vI6gmEZskdacLYFbgriOFCYTD08LqB8qS7WDLhUiX4A")) = true := by
    decide
  obtain ⟨proofMap, hproofMap, hpaths⟩ := exists_ok_of_any h
  exact ⟨proofMap, hproofMap, of_decide_eq_true hpaths⟩

theorem doubledToken_accepted : verifyMultisigProof ports doubledToken {} = .ok ⟨2, 2⟩ := by
  obtain ⟨proofMap, hproofs, hgetEditor, hgetAlias⟩ := exists_doubledProofMap
  obtain ⟨signature, hsignature⟩ := Option.map_eq_some_iff.mp length_signers.1.1
  obtain ⟨key, hkey⟩ := Option.map_eq_some_iff.mp length_signers.1.2
  -- One signature and one key pass for both entries.
  have hverify : ports.ed25519Verify signature (canonicalSerialize NumberFormat.decimal csp)
      key = some true :=
    congrArg some (decide_eq_true ⟨rfl, editor, by simp, hsignature.1, hkey.1⟩)
  have heditor : verifySigner ports proofMap doubledRoot
      (canonicalSerialize NumberFormat.decimal csp) editor 0 = .ok () :=
    verifySigner_eq_ok ports (assertSignerSignature_eq_ok.mpr hsignature)
      (assertSignerPublicKey_eq_ok.mpr hkey) generateMerkleLeaf_signers.1 hgetEditor
      (decodeMerklePath_eq_ok.mpr decode_doubled.2) generateMerkleLeaf_alias.2.1 hverify
  have halias : verifySigner ports proofMap doubledRoot
      (canonicalSerialize NumberFormat.decimal csp) editorAlias 1 = .ok () :=
    verifySigner_eq_ok ports (assertSignerSignature_eq_ok.mpr hsignature)
      (assertSignerPublicKey_eq_ok.mpr ⟨normalizeKey_signers.2.trans hkey.1, hkey.2⟩)
      generateMerkleLeaf_alias.1 hgetAlias (decodeMerklePath_eq_ok.mpr decode_token.2.2)
      generateMerkleLeaf_alias.2.2 hverify
  have hcount : countValid ports proofMap doubledRoot
      (canonicalSerialize ports.numberFormat doubledToken.csp) doubledToken.signers.zipIdx 0 =
        .ok 2 := by
    show countValid ports proofMap doubledRoot _ [(editor, 0), (editorAlias, 1)] 0 = .ok 2
    simp only [countValid, bind_eq_ok, exists_unit]
    exact ⟨heditor, halias, trivial⟩
  have hids : checkThreshold ports doubledToken = .ok () ∧
      collectSignerIds doubledToken.signers.zipIdx [] = .ok [editorAlias.id, editor.id] :=
    ⟨rfl, by decide⟩
  exact verifyMultisigProof_eq_ok ports rfl rfl hids.1 hids.2 rfl hproofs decode_doubled.1
    Option.getD_none hcount (by decide)

/-- A quorum of two from a single key. -/
theorem one_key_counted_twice :
    verifyMultisigProof ports doubledToken {} = .ok ⟨2, 2⟩ ∧
      ¬ DistinctQuorum ports doubledToken {} ⟨2, 2⟩ := by
  refine ⟨doubledToken_accepted, fun hquorum => ?_⟩
  have hall := allVerified_of_accepted ports doubledToken_accepted
  have hpairwise := hall.pairwise_iff_card.mpr hquorum.countedOnce
  exact List.pairwise_pair.mp hpairwise normalizeKey_signers.2.symm

end Editorial

end Coivitas.Crypto.Multisig
