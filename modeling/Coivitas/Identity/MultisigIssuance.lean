import Coivitas.Crypto.MultisigCompleteness
import Coivitas.Identity.MultisigCredentials

/-! # The tokens that the issuer builds

What the issuer makes of a valid input, when the factory takes it, and that it is then as the
verifier wants it, up to the signatures.
-/

namespace Coivitas.Identity.MultisigCredentials

open Foundation Crypto Crypto.Multisig

variable (P : CredentialPorts)

/-! ## The tokens that are issued -/

/-- What the issuer has built of an input. -/
structure Built (input : IssueMultisigTokenInput) (token : MultisigToken) (tree : MerkleTree) :
    Prop where
  version : token.multisigVersion = "1.0.0"
  threshold : token.threshold = input.threshold
  csp : token.csp = input.csp
  cosigned : List.Forall₂ (fun entry info => cosign P (input.message P) entry = .ok info)
    input.signers.zipIdx token.signers
  read : ∀ signer ∈ input.signers, signer.KeysRead
  quorum : input.threshold ≤
    (input.signers.countP (keyVerifies P (input.message P)) : ℚ)
  built : buildMerkleTree (signerLeaves P.toMultisigPorts token.signers) = .ok tree
  root : token.merkleRoot = encode (input.merkleRootEncoding.getD .hex) tree.root
  proofs : List.Forall₂ (fun entry proof => inclusionProof tree entry = .ok proof)
    token.signers.zipIdx token.inclusionProofs

/-- Inputs that the schema and the bounds of the threshold allow. -/
structure ValidInput (F : FormatPorts) (input : IssueMultisigTokenInput) : Prop where
  nonempty : 1 ≤ input.signers.length
  ids : ∀ signer ∈ input.signers, isNonEmpty signer.id = true ∧ isSignerId F signer.id = true
  distinct : (input.signers.map SignerKeyMaterial.id).Nodup
  integer : isInteger input.threshold = true
  positive : 1 ≤ input.threshold
  enough : input.threshold ≤ (input.signers.length : ℚ)
  csp : isSignedPayload F input.csp = true

section Building

variable {P} {F : FormatPorts} {input : IssueMultisigTokenInput} {token : MultisigToken}
  {tree : MerkleTree}

/-- The signatures that verify are counted. -/
theorem count_verdicts {message : List UInt8} {signers : List SignerInfo} {verdicts : List Bool}
    (hcosigned : List.Forall₂ (fun entry info => cosign P message entry = .ok info)
      input.signers.zipIdx signers)
    (hverdicts : collect (preVerify P message) signers.zipIdx = .ok verdicts) :
    verdicts.count true = input.signers.countP (keyVerifies P message) := by
  have hverdict : ∀ (entry : SignerInfo × Nat) verdict, preVerify P message entry = .ok verdict →
      verdict = signatureVerifies P message entry.1 := by
    intro entry verdict h
    rw [preVerify, mapError_eq_ok] at h
    rw [signatureVerifies, h]
    rfl
  have hinfos : verdicts = signers.map (signatureVerifies P message) := by
    have hmap : verdicts.map id = signers.zipIdx.map fun entry =>
        signatureVerifies P message entry.1 :=
      map_eq_of_forall₂ (collect_eq_ok.mp hverdicts) hverdict
    rwa [List.map_id, map_zipIdx_fst] at hmap
  have hsigners : signers.map (signatureVerifies P message) =
      input.signers.map (keyVerifies P message) := by
    have hmap : signers.map (signatureVerifies P message) =
        input.signers.zipIdx.map fun entry => keyVerifies P message entry.1 :=
      map_eq_of_forall₂ hcosigned fun entry info h => signatureVerifies_of_cosign h
    rwa [map_zipIdx_fst] at hmap
  rw [hinfos, hsigners, List.count_eq_countP, List.countP_map]
  congr 1
  funext signer
  simp

theorem leaves_of_collect {N : NumberFormat} {signers : List SignerInfo}
    {leaves : List (List UInt8)}
    (h : collect (fun signer : SignerInfo => generateMerkleLeaf N signer.leafInput) signers =
      .ok leaves) :
    leaves = signers.map fun signer => Sha256.sha256 (leafText N signer.leafInput) := by
  have hmap : leaves.map id =
      signers.map fun signer => Sha256.sha256 (leafText N signer.leafInput) :=
    map_eq_of_forall₂ (collect_eq_ok.mp h) fun signer leaf hleaf => generateMerkleLeaf_eq_ok hleaf
  rwa [List.map_id] at hmap

theorem built_of_buildToken (h : buildToken P input = .ok token) :
    ∃ tree, Built P input token tree := by
  simp only [buildToken, bind_eq_ok, exists_unit, require_eq_ok, pure_eq_ok] at h
  obtain ⟨-, -, signers, hsigners, verdicts, hverdicts, hquorum, leaves, hleaves, tree, htree,
    proofs, hproofs, rfl⟩ := h
  have hcosigned := collect_eq_ok.mp hsigners
  obtain rfl := leaves_of_collect hleaves
  refine ⟨tree, rfl, rfl, rfl, hcosigned, ?_, ?_, htree, rfl, collect_eq_ok.mp hproofs⟩
  · intro signer hsigner
    obtain ⟨i, hi⟩ := List.mem_iff_getElem?.mp hsigner
    have hentry : (signer, i) ∈ input.signers.zipIdx := List.mem_zipIdx_iff_getElem?.mpr hi
    obtain ⟨info, hinfo, hcosign⟩ := exists_right_of_forall₂ hcosigned hentry
    obtain ⟨j, hj⟩ := List.mem_iff_getElem?.mp hinfo
    have hother : (info, j) ∈ signers.zipIdx := List.mem_zipIdx_iff_getElem?.mpr hj
    obtain ⟨verdict, -, hverdict⟩ := exists_right_of_forall₂ (collect_eq_ok.mp hverdicts) hother
    obtain ⟨seed, signature, hseed, -, rfl⟩ := cosign_eq_ok.mp hcosign
    rw [preVerify, mapError_eq_ok, verify_eq_ok_iff] at hverdict
    obtain ⟨-, key, -, -, hkey, hlength, -⟩ := hverdict
    exact ⟨⟨seed, hseed⟩, key, hkey, hlength⟩
  · rw [IssueMultisigTokenInput.message, ← count_verdicts hcosigned hverdicts]
    exact not_lt.mp hquorum

theorem checkSigners_of_nodup (signers : List (SignerKeyMaterial × Nat)) (ids : List String)
    (hread : ∀ entry ∈ signers, entry.1.id ≠ "" ∧ entry.1.publicKey ≠ "" ∧ entry.1.privateKey ≠ "")
    (hfresh : ∀ entry ∈ signers, entry.1.id ∉ ids)
    (hnodup : (signers.map fun entry => entry.1.id).Nodup) : checkSigners signers ids = .ok () := by
  induction signers generalizing ids with
  | nil => rfl
  | cons entry signers ih =>
      obtain ⟨signer, i⟩ := entry
      obtain ⟨⟨hid, hpublic, hprivate⟩, hread⟩ := List.forall_mem_cons.mp hread
      obtain ⟨hnew, hfresh⟩ := List.forall_mem_cons.mp hfresh
      rw [List.map_cons, List.nodup_cons] at hnodup
      obtain ⟨hother, hnodup⟩ := hnodup
      simp only [checkSigners, bind_eq_ok, exists_unit, require_eq_ok]
      exact ⟨hid, hnew, hpublic, hprivate,
        ih (signer.id :: ids) hread (forall_not_mem_cons hother hfresh) hnodup⟩

/-- A signer entry whose signature and key are read. -/
def SignerInfo.Read (info : SignerInfo) : Prop :=
  ∃ signature key, normalizeKey info.signature = some signature ∧ signature.length = 64 ∧
    normalizeKey info.publicKey = some key ∧ key.length = 32

theorem ne_of_normalizeKey {text : String} {bytes : List UInt8}
    (hread : normalizeKey text = some bytes) (hpos : 0 < bytes.length) : text ≠ "" := by
  rintro rfl
  exact absurd (length_normalizeKey_le hread) (Nat.not_le.mpr hpos)

theorem read_of_cosigned {message : List UInt8} {signers : List SignerInfo} (hlaw : CurveLaw P)
    (hread : ∀ signer ∈ input.signers, signer.KeysRead)
    (hcosigned : List.Forall₂ (fun entry info => cosign P message entry = .ok info)
      input.signers.zipIdx signers) : ∀ info ∈ signers, SignerInfo.Read info := by
  intro info hinfo
  obtain ⟨⟨signer, i⟩, hsigner, hcosign⟩ := exists_left_of_forall₂ hcosigned hinfo
  obtain ⟨seed, signature, hseed, hsign, rfl⟩ := cosign_eq_ok.mp hcosign
  obtain ⟨-, key, hkey, hlength⟩ := hread signer (List.fst_mem_of_mem_zipIdx hsigner)
  obtain ⟨other, hother, hother64, -⟩ := hlaw.sign_verifies message seed hseed.length
  obtain rfl := Option.some.inj (hsign.symm.trans hother)
  exact ⟨signature, key, normalizeKey_toHex signature, hother64, hkey, hlength⟩

theorem ids_of_cosigned {message : List UInt8} {signers : List SignerInfo}
    (hcosigned : List.Forall₂ (fun entry info => cosign P message entry = .ok info)
      input.signers.zipIdx signers) :
    signers.map SignerInfo.id = input.signers.map SignerKeyMaterial.id := by
  have hmap : signers.map SignerInfo.id = input.signers.zipIdx.map fun entry => entry.1.id := by
    refine map_eq_of_forall₂ hcosigned fun entry info h => ?_
    obtain ⟨seed, signature, -, -, rfl⟩ := cosign_eq_ok.mp h
    rfl
  rwa [map_zipIdx_fst] at hmap

theorem ValidInput.id_ne (hvalid : ValidInput F input) {id : String}
    (hid : id ∈ input.signers.map SignerKeyMaterial.id) : id ≠ "" := by
  obtain ⟨signer, hsigner, rfl⟩ := List.mem_map.mp hid
  exact bne_iff_ne.mp (hvalid.ids signer hsigner).1

theorem checked_of_valid (hvalid : ValidInput F input)
    (hread : ∀ signer ∈ input.signers, signer.KeysRead) :
    checkThreshold P input = .ok () ∧ checkSigners input.signers.zipIdx [] = .ok () := by
  constructor
  · simp only [checkThreshold, bind_eq_ok, exists_unit, require_eq_ok, not_lt]
    exact ⟨Nat.one_le_iff_ne_zero.mp hvalid.nonempty, ⟨hvalid.integer, hvalid.positive⟩,
      hvalid.enough⟩
  · refine checkSigners_of_nodup _ [] (fun entry hentry => ?_) (by simp) ?_
    · have hmem := List.fst_mem_of_mem_zipIdx hentry
      obtain ⟨⟨seed, keyBytes, hprivate, hlength, -⟩, key, hpublic, hkey⟩ := hread _ hmem
      exact ⟨hvalid.id_ne (List.mem_map_of_mem hmem), ne_of_normalizeKey hpublic (by omega),
        ne_of_normalizeKey hprivate (by omega)⟩
    · rw [map_zipIdx_fst]
      exact hvalid.distinct

/-- With keys that are read and a quorum of signatures, a token is built. -/
theorem exists_built (hvalid : ValidInput F input) (hlaw : CurveLaw P)
    (hread : ∀ signer ∈ input.signers, signer.KeysRead)
    (hquorum : input.threshold ≤ (input.signers.countP (keyVerifies P (input.message P)) : ℚ)) :
    ∃ token, buildToken P input = .ok token := by
  obtain ⟨hthreshold, hchecked⟩ := @checked_of_valid P F input hvalid hread
  have hcosign : ∀ entry ∈ input.signers.zipIdx, ∃ info,
      cosign P (input.message P) entry = .ok info := by
    rintro ⟨signer, i⟩ hentry
    obtain ⟨⟨seed, hseed⟩, -⟩ := hread signer (List.fst_mem_of_mem_zipIdx hentry)
    obtain ⟨signature, hsign, -⟩ := hlaw.sign_verifies (input.message P) seed hseed.length
    exact ⟨_, cosign_eq_ok.mpr ⟨seed, signature, hseed, hsign, rfl⟩⟩
  obtain ⟨signers, hsigners⟩ := exists_collect hcosign
  have hcosigned := collect_eq_ok.mp hsigners
  have hinfos := read_of_cosigned hlaw hread hcosigned
  have hids := ids_of_cosigned hcosigned
  have hverify : ∀ entry ∈ signers.zipIdx, ∃ verdict,
      preVerify P (input.message P) entry = .ok verdict := by
    intro entry hentry
    obtain ⟨signature, key, hsignature, hlength, hkey, hkeyLength⟩ :=
      hinfos entry.1 (List.fst_mem_of_mem_zipIdx hentry)
    exact ⟨_, mapError_eq_ok.mpr (verify_eq_ok_iff.mpr
      ⟨signature, key, hsignature, hlength, hkey, hkeyLength, rfl⟩)⟩
  obtain ⟨verdicts, hverdicts⟩ := exists_collect hverify
  have hleaf : ∀ info ∈ signers, ∃ leaf,
      generateMerkleLeaf P.numberFormat info.leafInput = .ok leaf := by
    intro info hinfo
    obtain ⟨signature, key, hsignature, hlength, -⟩ := hinfos info hinfo
    exact ⟨_, generateMerkleLeaf_of_ne (hvalid.id_ne (hids ▸ List.mem_map_of_mem hinfo))
      (ne_of_normalizeKey hsignature (by omega))⟩
  obtain ⟨leaves, hleaves⟩ := exists_collect hleaf
  have hne : leaves ≠ [] := by
    rw [← List.length_pos_iff, ← (collect_eq_ok.mp hleaves).length_eq, ← hcosigned.length_eq, List.length_zipIdx]
    exact hvalid.nonempty
  obtain ⟨tree, htree, hspelled⟩ := exists_buildMerkleTree hne fun leaf hleaf => by
    obtain ⟨info, -, hinfo⟩ := exists_left_of_forall₂ (collect_eq_ok.mp hleaves) hleaf
    rw [generateMerkleLeaf_eq_ok hinfo, Sha256.length_sha256]
  have hproof : ∀ entry ∈ signers.zipIdx, ∃ proof, inclusionProof tree entry = .ok proof := by
    intro entry hentry
    have hi : entry.2 < leaves.length := by
      rw [← (collect_eq_ok.mp hleaves).length_eq]
      exact List.snd_lt_of_mem_zipIdx hentry
    obtain ⟨path, hpath, -⟩ := hspelled.path entry.2 _ (List.getElem?_eq_getElem hi)
    exact ⟨_, by rw [inclusionProof, hpath]⟩
  obtain ⟨proofs, hproofs⟩ := exists_collect hproof
  simp only [buildToken, bind_eq_ok, exists_unit, require_eq_ok, pure_eq_ok]
  refine ⟨_, hthreshold, hchecked, signers, hsigners, verdicts, hverdicts, ?_, leaves, hleaves,
    tree, htree, proofs, hproofs, rfl⟩
  rw [not_lt]
  exact (count_verdicts hcosigned hverdicts) ▸ hquorum

/-! ## The factory -/

/-- What the factory asks for beyond the schema and the issuer. -/
structure Issuable (input : IssueMultisigTokenInput) : Prop where
  plural : 2 ≤ input.signers.length
  bounded : input.threshold ≤ multisigThresholdMaxSanity
  named : ∀ signer ∈ input.signers, signer.id ≠ "did:"

theorem inclusionProof_eq_ok {entry : SignerInfo × Nat} {proof : InclusionProof} :
    inclusionProof tree entry = .ok proof ↔ ∃ path, tree.paths[entry.2]? = some path ∧
      proof = ⟨entry.1.id, encodeMerklePath path⟩ := by
  unfold inclusionProof
  cases tree.paths[entry.2]? with
  | none => simp
  | some path => simp [eq_comm]

theorem isRecord_of_isSignedPayload {csp : Json} (h : isSignedPayload F csp = true) :
    isRecord csp = true := by
  cases csp with
  | obj members => rfl
  | _ => simp [isSignedPayload, hasMember, member?] at h

namespace Built

variable (h : Built P input token tree)
include h

theorem length_signers : token.signers.length = input.signers.length := by
  rw [← h.cosigned.length_eq, List.length_zipIdx]

theorem ids : token.signers.map SignerInfo.id = input.signers.map SignerKeyMaterial.id :=
  ids_of_cosigned h.cosigned

theorem length_proofs : token.inclusionProofs.length = token.signers.length := by
  rw [← h.proofs.length_eq, List.length_zipIdx]

theorem signerIds :
    token.inclusionProofs.map InclusionProof.signerId = token.signers.map SignerInfo.id := by
  have hmap : token.inclusionProofs.map InclusionProof.signerId =
      token.signers.zipIdx.map fun entry => entry.1.id := by
    refine map_eq_of_forall₂ h.proofs fun entry proof hproof => ?_
    obtain ⟨path, -, rfl⟩ := inclusionProof_eq_ok.mp hproof
    rfl
  rwa [map_zipIdx_fst] at hmap

theorem length_leaves :
    (signerLeaves P.toMultisigPorts token.signers).length = input.signers.length := by
  rw [signerLeaves, List.length_map, h.length_signers]

theorem enough (hvalid : ValidInput F input) :
    token.threshold ≤ (token.signers.length : ℚ) := by
  rw [h.threshold, h.length_signers]
  exact hvalid.enough

theorem exists_signer {info : SignerInfo} (hinfo : info ∈ token.signers) :
    ∃ signer ∈ input.signers, info.id = signer.id := by
  have hmem : info.id ∈ input.signers.map SignerKeyMaterial.id :=
    h.ids ▸ List.mem_map_of_mem hinfo
  obtain ⟨signer, hsigner, hid⟩ := List.mem_map.mp hmem
  exact ⟨signer, hsigner, hid.symm⟩

/-- Every proof is of a signer and has the text of a path of the tree. -/
theorem path_of_proof {proof : InclusionProof} (hproof : proof ∈ token.inclusionProofs) :
    proof.signerId ∈ token.signers.map SignerInfo.id ∧
      ∃ (i : Nat) (path : List UInt8), tree.paths[i]? = some path ∧ proof.path = encodeMerklePath path := by
  obtain ⟨entry, hentry, hincluded⟩ := exists_left_of_forall₂ h.proofs hproof
  obtain ⟨path, hpath, rfl⟩ := inclusionProof_eq_ok.mp hincluded
  exact ⟨List.mem_map_of_mem (List.fst_mem_of_mem_zipIdx hentry), entry.2, path, hpath, rfl⟩

theorem toMerklePath_path (hplural : 2 ≤ input.signers.length) {i : Nat} {path : List UInt8}
    (hpath : tree.paths[i]? = some path) :
    toMerklePath (encodeMerklePath path) = .ok (encodeMerklePath path) := by
  have hlength := input.length_signers
  refine toMerklePath_of_tree h.built (fun leaf hleaf => ?_) (h.length_leaves ▸ hplural)
    (h.length_leaves ▸ hlength.le) hpath
  obtain ⟨signer, -, rfl⟩ := List.mem_map.mp hleaf
  exact Sha256.length_sha256 _

theorem toMerklePath_proof (hplural : 2 ≤ input.signers.length) {proof : InclusionProof}
    (hproof : proof ∈ token.inclusionProofs) : toMerklePath proof.path = .ok proof.path := by
  obtain ⟨-, i, path, hpath, htext⟩ := h.path_of_proof hproof
  rw [htext]
  exact h.toMerklePath_path hplural hpath

/-- The only proof of an only signer is empty. -/
theorem path_of_only (honly : input.signers.length = 1) :
    ∃ proof ∈ token.inclusionProofs, proof.path = "" := by
  obtain ⟨leaf, hleaf⟩ := List.length_eq_one_iff.mp (h.length_leaves.trans honly)
  have hpaths := paths_of_singleton (hleaf ▸ h.built)
  have hone : token.inclusionProofs.length = 1 := by
    rw [h.length_proofs, h.length_signers, honly]
  obtain ⟨proof, hproofs⟩ := List.length_eq_one_iff.mp hone
  have hmem : proof ∈ token.inclusionProofs := hproofs ▸ List.mem_singleton_self proof
  obtain ⟨-, i, path, hpath, htext⟩ := h.path_of_proof hmem
  obtain rfl : path = [] := by
    rw [hpaths] at hpath
    exact List.mem_singleton.mp (List.mem_of_getElem? hpath)
  exact ⟨proof, hmem, htext⟩

theorem spelled : Spelled (signerLeaves P.toMultisigPorts token.signers) tree := by
  refine spelled_of_buildMerkleTree h.built fun leaf hleaf => ?_
  obtain ⟨signer, -, rfl⟩ := List.mem_map.mp hleaf
  exact Sha256.length_sha256 _

theorem decodeMerkleRoot :
    Multisig.decodeMerkleRoot token.merkleRoot = .ok tree.root := by
  unfold Multisig.decodeMerkleRoot
  refine (decodeText_eq_ok (by decide)).mpr ⟨?_, h.spelled.length_root⟩
  rw [h.root]
  cases input.merkleRootEncoding.getD .hex with
  | hex => exact normalizeKey_toHex _
  | base64url => exact normalizeKey_toBase64Url_key h.spelled.length_root

theorem isBase64UrlText_root : isBase64UrlText token.merkleRoot = true := by
  rw [h.root]
  refine isBase64UrlText_of_all (fun hempty => ?_) (all_encode _ _)
  have hlength := length_encode (input.merkleRootEncoding.getD .hex) h.spelled.length_root
  rw [hempty] at hlength
  split at hlength <;> cases hlength

theorem root_ne : token.merkleRoot ≠ "" := by
  intro hempty
  have htext := h.isBase64UrlText_root
  rw [hempty] at htext
  cases htext

/-- The factory takes the token as it is, or not at all. -/
theorem created_iff (hvalid : ValidInput F input) (hlaw : CurveLaw P) {other : MultisigToken} :
    createMultisigToken P.numberFormat token = .ok other ↔ Issuable input ∧ other = token := by
  have hread := read_of_cosigned hlaw h.read h.cosigned
  have hids : ∀ info ∈ token.signers, isSignerId F info.id = true := by
    intro info hinfo
    obtain ⟨signer, hsigner, hid⟩ := h.exists_signer hinfo
    exact hid ▸ (hvalid.ids signer hsigner).2
  have hdistinct : (token.signers.map SignerInfo.id).Nodup := h.ids ▸ hvalid.distinct
  constructor
  · intro hcreated
    simp only [createMultisigToken, bind_eq_ok, exists_unit, require_eq_ok, pure_eq_ok,
      toMultisigVersion] at hcreated
    obtain ⟨version, ⟨-, -, rfl⟩, -, -, hbounded, -, signerIdSet, hsigners, -, -, hproofs, -, -,
      rfl⟩ := hcreated
    refine ⟨⟨?_, h.threshold ▸ not_lt.mp hbounded, ?_⟩, rfl⟩
    · by_contra hsingle
      obtain ⟨proof, hproof, hempty⟩ := h.path_of_only (by have := hvalid.nonempty; omega)
      obtain ⟨i, hi⟩ := List.mem_iff_getElem?.mp hproof
      have hpath := toMerklePath_of_createProofs hproofs (proof, i)
        (List.mem_zipIdx_iff_getElem?.mpr hi)
      rw [hempty] at hpath
      exact toMerklePath_empty hpath
    · intro signer hsigner
      have hmem : signer.id ∈ token.signers.map SignerInfo.id :=
        h.ids ▸ List.mem_map_of_mem hsigner
      obtain ⟨info, hinfo, hid⟩ := List.mem_map.mp hmem
      obtain ⟨i, hi⟩ := List.mem_iff_getElem?.mp hinfo
      have hnamed := toSignerId_of_createSigners hsigners (info, i)
        (List.mem_zipIdx_iff_getElem?.mpr hi)
      exact hid ▸ (toSignerId_iff (hids info hinfo)).mp hnamed
  · rintro ⟨hissuable, hsame⟩
    rw [hsame]
    have hnamed : ∀ info ∈ token.signers, toSignerId info.id = .ok info.id := by
      intro info hinfo
      obtain ⟨signer, hsigner, hid⟩ := h.exists_signer hinfo
      exact (toSignerId_iff (hids info hinfo)).mpr (hid ▸ hissuable.named signer hsigner)
    obtain ⟨signerIdSet, hsigners, -, hcollected⟩ := createSigners_of_nodup token.signers.zipIdx []
      (fun entry hentry => by
        have hinfo := List.fst_mem_of_mem_zipIdx hentry
        obtain ⟨signature, key, hsignature, hlength, hkey, hkeyLength⟩ := hread entry.1 hinfo
        exact ⟨ne_of_normalizeKey hkey (by omega), ne_of_normalizeKey hsignature (by omega),
          hnamed entry.1 hinfo⟩)
      (by simp) (by rw [map_zipIdx_fst]; exact hdistinct)
    have hproofs : createProofs signerIdSet token.inclusionProofs.zipIdx [] = .ok () := by
      refine createProofs_of_nodup _ [] (fun entry hentry => ?_) (by simp)
        (by rw [map_zipIdx_fst _ InclusionProof.signerId, h.signerIds]; exact hdistinct)
      have hproof := List.fst_mem_of_mem_zipIdx hentry
      obtain ⟨info, hinfo, hid⟩ := List.mem_map.mp (h.path_of_proof hproof).1
      obtain ⟨i, hi⟩ := List.mem_iff_getElem?.mp hinfo
      refine ⟨hid ▸ hnamed info hinfo, h.toMerklePath_proof hissuable.plural hproof, ?_⟩
      exact hid ▸ hcollected (info, i) (List.mem_zipIdx_iff_getElem?.mpr hi)
    have hcsp : isRecord token.csp = true := h.csp ▸ isRecord_of_isSignedPayload hvalid.csp
    simp only [createMultisigToken, bind_eq_ok, exists_unit, require_eq_ok, pure_eq_ok,
      toMultisigVersion, not_lt]
    refine ⟨"1.0.0", ⟨?_, ?_, h.version⟩, h.threshold ▸ hvalid.integer,
      h.threshold ▸ hvalid.positive, h.threshold ▸ hissuable.bounded, h.enough hvalid,
      signerIdSet, hsigners, h.root_ne, h.length_proofs, hproofs, ?_, hcsp, ?_⟩
    · rw [h.version]
      decide
    · rw [h.version]
      exact List.mem_singleton_self _
    · rintro hnull
      rw [hnull] at hcsp
      cases hcsp
    · rw [← h.version]

/-- The entries of the token are as the verifier wants them. -/
theorem committed (hvalid : ValidInput F input) (hplural : 2 ≤ input.signers.length)
    (hunanimous : ∀ signer ∈ input.signers, keyVerifies P (input.message P) signer = true) :
    Committed P.toMultisigPorts token (input.message P) tree where
  version := h.version
  integer := h.threshold ▸ hvalid.integer
  positive := h.threshold ▸ hvalid.positive
  enough := h.enough hvalid
  ids := fun info hinfo => by
    obtain ⟨signer, hsigner, hid⟩ := h.exists_signer hinfo
    exact hid ▸ hvalid.id_ne (List.mem_map_of_mem hsigner)
  distinct := h.ids ▸ hvalid.distinct
  signed := fun info hinfo => by
    obtain ⟨entry, hentry, hcosign⟩ := exists_left_of_forall₂ h.cosigned hinfo
    exact signed_iff.mp ((signatureVerifies_of_cosign hcosign).trans
      (hunanimous entry.1 (List.fst_mem_of_mem_zipIdx hentry)))
  spelled := h.spelled
  root := h.decodeMerkleRoot
  proofs := by
    refine h.proofs.imp fun entry proof hproof => ?_
    obtain ⟨path, hpath, rfl⟩ := inclusionProof_eq_ok.mp hproof
    refine ⟨rfl, path, hpath, rfl, ?_⟩
    intro (hempty : encodeMerklePath path = "")
    have htext := h.toMerklePath_path hplural hpath
    rw [hempty] at htext
    exact toMerklePath_empty htext

/-- The schema allows the token. -/
theorem fitsSchema (hvalid : ValidInput F input) (hlaw : CurveLaw P)
    (hplural : 2 ≤ input.signers.length) : token.fitsSchema F = true := by
  have hread := read_of_cosigned hlaw h.read h.cosigned
  have hdistinct : (token.signers.map SignerInfo.id).Nodup := h.ids ▸ hvalid.distinct
  have hsigners : ∀ info ∈ token.signers, info.fitsSchema F = true := by
    intro info hinfo
    obtain ⟨signer, hsigner, hid⟩ := h.exists_signer hinfo
    obtain ⟨signature, key, hsignature, hlength, hkey, hkeyLength⟩ := hread info hinfo
    obtain ⟨hne, hallowed⟩ := hvalid.ids signer hsigner
    simp only [SignerInfo.fitsSchema, Bool.and_eq_true, hid, isNonEmpty, bne_iff_ne]
    exact ⟨⟨⟨bne_iff_ne.mp hne, hallowed⟩, ne_of_normalizeKey hkey (by omega)⟩,
      ne_of_normalizeKey hsignature (by omega)⟩
  have hproofs : ∀ proof ∈ token.inclusionProofs, proof.fitsSchema = true := by
    intro proof hproof
    obtain ⟨info, hinfo, hid⟩ := List.mem_map.mp (h.path_of_proof hproof).1
    obtain ⟨signer, hsigner, hsame⟩ := h.exists_signer hinfo
    have hne : proof.signerId ≠ "" := by
      rw [← hid, hsame]
      exact hvalid.id_ne (List.mem_map_of_mem hsigner)
    have hpath := h.toMerklePath_proof hplural hproof
    simp only [toMerklePath, bind_eq_ok, exists_unit, require_eq_ok, pure_eq_ok] at hpath
    obtain ⟨hempty, hlength, htext, -⟩ := hpath
    simp only [InclusionProof.fitsSchema, Bool.and_eq_true, isNonEmpty, bne_iff_ne,
      decide_eq_true_eq]
    exact ⟨⟨⟨hne, hempty⟩, (length_toList_le _).trans hlength⟩, htext⟩
  have hlength := h.length_signers
  have hlengthProofs := h.length_proofs
  have hfull : token.signers ≠ [] := List.length_pos_iff.mp (by omega)
  have hfullProofs : token.inclusionProofs ≠ [] := List.length_pos_iff.mp (by omega)
  simp only [MultisigToken.fitsSchema, Bool.and_eq_true, beq_iff_eq, decide_eq_true_eq,
    Bool.not_eq_true', List.isEmpty_eq_false_iff, List.all_eq_true, Bool.or_eq_true, isNonEmpty,
    bne_iff_ne]
  refine ⟨⟨⟨⟨⟨⟨⟨⟨⟨⟨⟨h.version, ?_⟩, ?_⟩, hfull⟩, hdistinct.of_map _⟩, hsigners⟩, h.root_ne⟩,
    Or.inl h.isBase64UrlText_root⟩, hfullProofs⟩, ?_⟩, hproofs⟩, ?_⟩
  · exact h.threshold ▸ hvalid.integer
  · exact h.threshold ▸ hvalid.positive
  · exact List.Nodup.of_map InclusionProof.signerId (h.signerIds ▸ hdistinct)
  · exact h.csp ▸ hvalid.csp

/-- A token that is accepted has only signatures that verify. -/
theorem unanimous_of_accepted (hlaw : CurveLaw P) {options : VerifyMultisigTokenOptions}
    {result : VerifyMultisigTokenResult}
    (haccepted : verifyMultisigToken P token options = .ok result) :
    ∀ signer ∈ input.signers, keyVerifies P (input.message P) signer = true := by
  simp only [verifyMultisigToken, bind_eq_ok, exists_unit, require_eq_ok] at haccepted
  obtain ⟨-, -, -, cspChallenge, -, -, cspAudience, -, -, cspNotAfter, -, -, l1Result, hproof,
    -⟩ := haccepted
  have hverified := (allVerified_of_accepted P.toMultisigPorts hproof).signed
  intro signer hsigner
  obtain ⟨i, hi⟩ := List.mem_iff_getElem?.mp hsigner
  obtain ⟨info, hinfo, hcosign⟩ := exists_right_of_forall₂ h.cosigned
    (List.mem_zipIdx_iff_getElem?.mpr hi : (signer, i) ∈ input.signers.zipIdx)
  obtain ⟨signature, key, hsignature, hlength, hkey, hkeyLength⟩ :=
    read_of_cosigned hlaw h.read h.cosigned info hinfo
  obtain ⟨other, hother, -, signature', hsignature', hverify⟩ := hverified info hinfo
  obtain rfl := Option.some.inj (hkey.symm.trans hother)
  obtain rfl := Option.some.inj (hsignature.symm.trans hsignature')
  have hsigned : Signed P.toMultisigPorts (input.message P) info := by
    refine ⟨signature, key, hsignature, hlength, hkey, hkeyLength, ?_⟩
    rw [IssueMultisigTokenInput.message, ← h.csp]
    exact hverify
  rw [← signatureVerifies_of_cosign hcosign]
  exact signed_iff.mpr hsigned

end Built

end Building

end Coivitas.Identity.MultisigCredentials
