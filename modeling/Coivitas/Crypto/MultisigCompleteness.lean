import Coivitas.Crypto.MerklePaths
import Coivitas.Crypto.MultisigQuorum
import Coivitas.Crypto.MultisigSchema

/-! # Tokens built as the verifier reads them are accepted

A token whose signers all verify, with the audit paths of the tree over its own signers, passes
`verifyMultisigProof`.
-/

namespace Coivitas.Crypto.Multisig

open Foundation Sha256

/-! ## Ids and paths -/

theorem collectSignerIds_of_nodup (signers : List (SignerInfo × Nat)) (ids : List String)
    (hne : ∀ entry ∈ signers, entry.1.id ≠ "") (hfresh : ∀ entry ∈ signers, entry.1.id ∉ ids)
    (hnodup : (signers.map fun entry => entry.1.id).Nodup) :
    ∃ result, collectSignerIds signers ids = .ok result ∧
      ∀ entry ∈ signers, entry.1.id ∈ result := by
  suffices h : ∃ result, collectSignerIds signers ids = .ok result ∧ ids ⊆ result ∧
      ∀ entry ∈ signers, entry.1.id ∈ result by
    obtain ⟨result, hresult, -, hmem⟩ := h
    exact ⟨result, hresult, hmem⟩
  induction signers generalizing ids with
  | nil => exact ⟨ids, rfl, List.Subset.refl ids, by simp⟩
  | cons entry signers ih =>
      obtain ⟨signer, i⟩ := entry
      obtain ⟨hid, hne⟩ := List.forall_mem_cons.mp hne
      obtain ⟨hnew, hfresh⟩ := List.forall_mem_cons.mp hfresh
      rw [List.map_cons, List.nodup_cons] at hnodup
      obtain ⟨hother, hnodup⟩ := hnodup
      obtain ⟨result, hresult, hsubset, hmem⟩ :=
        ih (signer.id :: ids) hne (forall_not_mem_cons hother hfresh) hnodup
      refine ⟨result, ?_, fun id hid => hsubset (List.mem_cons_of_mem _ hid),
        List.forall_mem_cons.mpr ⟨hsubset List.mem_cons_self, hmem⟩⟩
      simp only [collectSignerIds, bind_eq_ok, exists_unit, require_eq_ok]
      exact ⟨hid, hnew, hresult⟩

theorem collectProofs_of_nodup {signerIdSet : List String} (proofs : List (InclusionProof × Nat))
    (proofMap : OrderedMap String String)
    (hne : ∀ entry ∈ proofs, entry.1.signerId ≠ "" ∧ entry.1.path ≠ "" ∧
      entry.1.signerId ∈ signerIdSet)
    (hfresh : ∀ entry ∈ proofs, proofMap.get? entry.1.signerId = none)
    (hnodup : (proofs.map fun entry => entry.1.signerId).Nodup) :
    ∃ result, collectProofs signerIdSet proofs proofMap = .ok result ∧
      ∀ entry ∈ proofs, result.get? entry.1.signerId = some entry.1.path := by
  suffices h : ∃ result, collectProofs signerIdSet proofs proofMap = .ok result ∧
      (∀ id path, proofMap.get? id = some path → result.get? id = some path) ∧
      ∀ entry ∈ proofs, result.get? entry.1.signerId = some entry.1.path by
    obtain ⟨result, hresult, -, hget⟩ := h
    exact ⟨result, hresult, hget⟩
  induction proofs generalizing proofMap with
  | nil => exact ⟨proofMap, rfl, fun _ _ h => h, by simp⟩
  | cons entry proofs ih =>
      obtain ⟨proof, i⟩ := entry
      obtain ⟨⟨hid, hpath, hmem⟩, hne⟩ := List.forall_mem_cons.mp hne
      obtain ⟨hnew, hfresh⟩ := List.forall_mem_cons.mp hfresh
      rw [List.map_cons, List.nodup_cons] at hnodup
      obtain ⟨hother, hnodup⟩ := hnodup
      have hrest : ∀ entry ∈ proofs,
          (proofMap.set proof.signerId proof.path).get? entry.1.signerId = none := by
        intro entry hentry
        rw [OrderedMap.get?_set, if_neg, hfresh entry hentry]
        intro heq
        exact hother (List.mem_map.mpr ⟨entry, hentry, heq.symm⟩)
      obtain ⟨result, hresult, hkept, hget⟩ := ih _ hne hrest hnodup
      refine ⟨result, ?_, fun id path hold => hkept id path ?_, List.forall_mem_cons.mpr
        ⟨hkept _ _ (by rw [OrderedMap.get?_set, if_pos rfl]), hget⟩⟩
      · simp only [collectProofs, bind_eq_ok, exists_unit, require_eq_ok, OrderedMap.has, hnew]
        exact ⟨hid, hpath, rfl, hmem, hresult⟩
      · rw [OrderedMap.get?_set, if_neg, hold]
        rintro rfl
        cases hnew.symm.trans hold

theorem countValid_of_verified {P : MultisigPorts} {proofMap : OrderedMap String String}
    {merkleRootBytes message : List UInt8} {signers : List (SignerInfo × Nat)}
    (hverified : ∀ entry ∈ signers,
      verifySigner P proofMap merkleRootBytes message entry.1 entry.2 = .ok ()) (validCount : Nat) :
    countValid P proofMap merkleRootBytes message signers validCount =
      .ok (validCount + signers.length) := by
  induction signers generalizing validCount with
  | nil => rfl
  | cons entry signers ih =>
      obtain ⟨hentry, hverified⟩ := List.forall_mem_cons.mp hverified
      have hrest := ih hverified (validCount + 1)
      simp only [countValid, bind_eq_ok, exists_unit]
      refine ⟨hentry, hrest.trans ?_⟩
      rw [List.length_cons, Nat.add_assoc, Nat.add_comm 1]

/-! ## Texts of paths -/

theorem isBase64UrlText_of_all {text : String} (hne : text.toList ≠ [])
    (hall : text.toList.all isBase64UrlChar = true) : isBase64UrlText text = true := by
  simp only [isBase64UrlText, rdropWhile_of_all hall, hall, Bool.and_true, Bool.not_eq_true',
    List.isEmpty_eq_false_iff]
  exact hne

theorem isBase64UrlText_toBase64Url {bytes : List UInt8} (hne : bytes ≠ []) :
    isBase64UrlText (toBase64Url bytes) = true := by
  refine isBase64UrlText_of_all (List.length_pos_iff.mp ?_) (all_encode .base64url bytes)
  rw [length_toBase64Url]
  have hpos := List.length_pos_iff.mpr hne
  omega

theorem toNat_of_isBase64UrlChar {c : Char} (hc : isBase64UrlChar c = true) : c.toNat < 128 := by
  have hall : base64UrlChars.all (fun c => c.toNat < 128) = true := by
    rw [base64UrlChars_eq]
    decide
  rw [isBase64UrlChar, List.contains_iff_mem] at hc
  exact of_decide_eq_true (List.all_eq_true.mp hall c hc)

theorem toMerklePath_encode {bytes : List UInt8} (hne : bytes ≠ [])
    (hlength : bytes.length ≤ 6144) :
    toMerklePath (encodeMerklePath bytes) = .ok (encodeMerklePath bytes) := by
  have htext := length_toBase64Url bytes
  have hascii : ∀ c ∈ (toBase64Url bytes).toList, c.toNat < 128 := by
    intro c hc
    rw [toBase64Url, String.toList_ofList] at hc
    exact toNat_of_isBase64UrlChar (List.all_eq_true.mp (all_base64Text _) c hc)
  rw [encodeMerklePath, toMerklePath]
  simp only [bind_eq_ok, exists_unit, require_eq_ok, pure_eq_ok]
  refine ⟨?_, ?_, isBase64UrlText_toBase64Url hne, trivial⟩
  · intro hempty
    rw [hempty] at htext
    have hpos := List.length_pos_iff.mpr hne
    have hzero : ("" : String).toList.length = 0 := rfl
    omega
  · rw [codeUnits_of_ascii _ hascii, List.length_map, htext, merklePathMaxLength]
    omega

theorem paths_of_buildMerkleTree {leaves : List (List UInt8)} {tree : MerkleTree}
    (hbuild : buildMerkleTree leaves = .ok tree) (hplural : 2 ≤ leaves.length) {i : Nat}
    {path : List UInt8} (hpath : tree.paths[i]? = some path) :
    i < leaves.length ∧
      path = pathBytes ((Merkle.auditPath (merkleLevels leaves).dropLast i).map segment) := by
  simp only [buildMerkleTree, bind_eq_ok, exists_unit, require_eq_ok] at hbuild
  obtain ⟨-, -, hbuild⟩ := hbuild
  split at hbuild
  next onlyLeaf => exact absurd hplural (by simp)
  next =>
    split at hbuild
    next => cases hbuild
    next root hroot =>
      obtain rfl := Except.ok.inj hbuild
      rw [List.getElem?_map, Option.map_eq_some_iff] at hpath
      obtain ⟨k, hk, rfl⟩ := hpath
      obtain ⟨hi, rfl⟩ := List.getElem?_eq_some_iff.mp hk
      rw [List.getElem_range, pathSegments_eq]
      exact ⟨by simpa using hi, rfl⟩

/-- Under a tree of two leaves or more, with as many as an array holds, every path is a text that
the factory takes. -/
theorem toMerklePath_of_tree {leaves : List (List UInt8)} {tree : MerkleTree}
    (hbuild : buildMerkleTree leaves = .ok tree) (hleaves : ∀ leaf ∈ leaves, leaf.length = 32)
    (hplural : 2 ≤ leaves.length) (hlength : leaves.length ≤ 2 ^ 32) {i : Nat} {path : List UInt8}
    (hpath : tree.paths[i]? = some path) :
    toMerklePath (encodeMerklePath path) = .ok (encodeMerklePath path) := by
  obtain ⟨hi, rfl⟩ := paths_of_buildMerkleTree hbuild hplural hpath
  have hne := Merkle.auditPath_ne_nil combine leaves.length (le_refl _) hplural hi
  have hle := Merkle.length_auditPath_le combine leaves.length hlength i
  have hnodes : ∀ level ∈ merkleLevels leaves, ∀ node ∈ level, node.length = 32 :=
    Merkle.forall_mem_levels combine (fun left right _ _ => length_combine left right) _ hleaves
  have hsiblings := Merkle.forall_mem_auditPath
    (fun level hlevel => hnodes level (List.mem_of_mem_dropLast hlevel)) i
  have hbytes := length_pathBytes hsiblings
  have hpos := List.length_pos_iff.mpr hne
  rw [← merkleLevels] at hpos hle
  refine toMerklePath_encode (List.length_pos_iff.mp ?_) ?_
  · omega
  · omega

/-- The path of an only leaf is empty. -/
theorem paths_of_singleton {leaf : List UInt8} {tree : MerkleTree}
    (hbuild : buildMerkleTree [leaf] = .ok tree) : tree.paths = [[]] := by
  simp only [buildMerkleTree, bind_eq_ok, exists_unit, require_eq_ok] at hbuild
  obtain ⟨-, -, hbuild⟩ := hbuild
  obtain rfl := Except.ok.inj hbuild
  rfl

/-! ## The token -/

variable (P : MultisigPorts)

def signerLeaves (signers : List SignerInfo) : List (List UInt8) :=
  signers.map fun signer => sha256 (leafText P.numberFormat signer.leafInput)

/-- A signer whose key and signature are read and whose signature verifies. -/
def Signed (message : List UInt8) (signer : SignerInfo) : Prop :=
  ∃ signature key, normalizeKey signer.signature = some signature ∧ signature.length = 64 ∧
    normalizeKey signer.publicKey = some key ∧ key.length = 32 ∧
    P.ed25519Verify signature message key = some true

/-- The proof of a signer is the text of its path in the tree. -/
def Proves (tree : MerkleTree) (entry : SignerInfo × Nat) (proof : InclusionProof) : Prop :=
  proof.signerId = entry.1.id ∧ ∃ path, tree.paths[entry.2]? = some path ∧
    proof.path = encodeMerklePath path ∧ proof.path ≠ ""

/-- A token with the tree over its signers. -/
structure Committed (token : MultisigToken) (message : List UInt8) (tree : MerkleTree) : Prop where
  version : token.multisigVersion = "1.0.0"
  integer : isInteger token.threshold = true
  positive : 1 ≤ token.threshold
  enough : token.threshold ≤ (token.signers.length : ℚ)
  ids : ∀ signer ∈ token.signers, signer.id ≠ ""
  distinct : (token.signers.map SignerInfo.id).Nodup
  signed : ∀ signer ∈ token.signers, Signed P message signer
  spelled : Spelled (signerLeaves P token.signers) tree
  root : decodeMerkleRoot token.merkleRoot = .ok tree.root
  proofs : List.Forall₂ (Proves tree) token.signers.zipIdx token.inclusionProofs

section Acceptance

variable {P} {token : MultisigToken} {message : List UInt8} {tree : MerkleTree}

theorem Signed.signature_ne {signer : SignerInfo} (h : Signed P message signer) :
    signer.signature ≠ "" := by
  intro hempty
  obtain ⟨signature, key, hread, hlength, -⟩ := h
  have hle := length_normalizeKey_le hread
  rw [hempty, hlength] at hle
  exact absurd hle (by decide)

theorem Committed.length_proofs (h : Committed P token message tree) :
    token.inclusionProofs.length = token.signers.length := by
  rw [← h.proofs.length_eq, List.length_zipIdx]

theorem Committed.signerIds (h : Committed P token message tree) :
    (token.inclusionProofs.zipIdx.map fun entry => entry.1.signerId) =
      token.signers.map SignerInfo.id := by
  rw [map_zipIdx_fst, map_eq_of_forall₂ h.proofs fun _ _ hproves => hproves.1, map_zipIdx_fst]

theorem Committed.verifySigner (h : Committed P token message tree)
    {proofMap : OrderedMap String String}
    (hproofs : ∀ entry ∈ token.inclusionProofs.zipIdx,
      proofMap.get? entry.1.signerId = some entry.1.path) {signer : SignerInfo} {i : Nat}
    (hsigner : (signer, i) ∈ token.signers.zipIdx) :
    verifySigner P proofMap tree.root message signer i = .ok () := by
  have hget : token.signers[i]? = some signer := List.mem_zipIdx_iff_getElem?.mp hsigner
  have hmem : signer ∈ token.signers := List.mem_of_getElem? hget
  have hsigned := h.signed signer hmem
  obtain ⟨proof, hproof, hid, path, hpath, htext, -⟩ := exists_right_of_forall₂ h.proofs hsigner
  obtain ⟨j, hj⟩ := List.mem_iff_getElem?.mp hproof
  have hleaf : (signerLeaves P token.signers)[i]? =
      some (sha256 (leafText P.numberFormat signer.leafInput)) := by
    rw [signerLeaves, List.getElem?_map, hget, Option.map_some]
  have hstored : proofMap.get? signer.id = some (encodeMerklePath path) := by
    rw [← hid, hproofs (proof, j) (List.mem_zipIdx_iff_getElem?.mpr hj), htext]
  obtain ⟨signature, key, hsignature, hlength, hkey, hkeyLength, hverify⟩ := hsigned
  exact verifySigner_eq_ok P (assertSignerSignature_eq_ok.mpr ⟨hsignature, hlength⟩)
    (assertSignerPublicKey_eq_ok.mpr ⟨hkey, hkeyLength⟩)
    (generateMerkleLeaf_of_ne (h.ids signer hmem) (h.signed signer hmem).signature_ne) hstored
    (decodeMerklePath_eq_ok.mpr (fromBase64Url_toBase64Url path))
    (h.spelled.included hleaf (length_sha256 _) hpath) hverify

/-- The verifier accepts the token and counts every signer. -/
theorem Committed.accepted (h : Committed P token message tree)
    {options : VerifyMultisigProofOptions}
    (hschema : checkSchema P token options.enforceFullSchema = .ok ())
    (hmessage : options.cspSignedBytes.getD (canonicalSerialize P.numberFormat token.csp) =
      message) :
    verifyMultisigProof P token options = .ok ⟨token.signers.length, token.threshold⟩ := by
  have hthreshold : checkThreshold P token = .ok () := by
    simp only [checkThreshold, bind_eq_ok, exists_unit, require_eq_ok, not_lt]
    exact ⟨⟨h.integer, h.positive⟩, h.enough, h.enough⟩
  obtain ⟨signerIdSet, hids, hcollected⟩ := collectSignerIds_of_nodup token.signers.zipIdx []
    (fun entry hentry => h.ids _ (List.fst_mem_of_mem_zipIdx hentry)) (by simp)
    (by rw [map_zipIdx_fst]; exact h.distinct)
  have hmember : ∀ entry ∈ token.inclusionProofs.zipIdx, entry.1.signerId ≠ "" ∧
      entry.1.path ≠ "" ∧ entry.1.signerId ∈ signerIdSet := by
    intro entry hentry
    obtain ⟨⟨signer, i⟩, hsigner, hid, path, -, -, hpath⟩ :=
      exists_left_of_forall₂ h.proofs (List.fst_mem_of_mem_zipIdx hentry)
    rw [hid]
    exact ⟨h.ids _ (List.fst_mem_of_mem_zipIdx hsigner), hpath, hcollected _ hsigner⟩
  obtain ⟨proofMap, hproofs, hget⟩ := collectProofs_of_nodup token.inclusionProofs.zipIdx
    OrderedMap.empty hmember (by simp) (by rw [h.signerIds]; exact h.distinct)
  have hcount := @countValid_of_verified P proofMap tree.root message token.signers.zipIdx
    (fun entry hentry => h.verifySigner hget hentry) 0
  rw [Nat.zero_add, List.length_zipIdx] at hcount
  exact verifyMultisigProof_eq_ok P hschema h.version hthreshold hids h.length_proofs hproofs
    h.root hmessage hcount h.enough

end Acceptance

end Coivitas.Crypto.Multisig
