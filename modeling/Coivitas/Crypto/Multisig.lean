import Coivitas.Crypto.MerklePaths
import Coivitas.Crypto.Sha256Packed
import Coivitas.Foundation.OrderedMap

/-! # Verification of multisig tokens

The model of `packages/crypto/src/multisig/verify-multisig.ts`. A token that is
accepted shows for each of its signers an audit path to the Merkle root.
`merkle_membership` says what that is worth: a root built over a list of signer
entries admits no other signer, short of a SHA-256 collision.
-/

namespace Coivitas.Crypto.Multisig

open Foundation Sha256

structure SignerInfo where
  id : String
  role : Role
  publicKey : String
  signature : String
deriving DecidableEq, Repr

def SignerInfo.leafInput (signer : SignerInfo) : SignerLeafInput :=
  { id := signer.id, role := signer.role, signature := signer.signature }

structure InclusionProof where
  signerId : String
  path : String
deriving DecidableEq, Repr

structure MultisigToken where
  multisigVersion : String
  threshold : ℚ
  signers : List SignerInfo
  merkleRoot : String
  inclusionProofs : List InclusionProof
  csp : Json

structure ValidationError where
  instancePath : String
  message : String

/-- What the verifier uses from outside: the number printer of the canonical
form, JSON Schema validation with its errors, and Ed25519 verification of a
signature over a message under a key, `none` when it throws. -/
structure MultisigPorts where
  numberFormat : NumberFormat
  validateMultisigToken : MultisigToken → Option (List ValidationError)
  ed25519Verify : List UInt8 → List UInt8 → List UInt8 → Option Bool

structure VerifyMultisigProofOptions where
  enforceFullSchema : Bool := true
  cspSignedBytes : Option (List UInt8) := none

structure VerifyMultisigProofResult where
  validCount : Nat
  threshold : ℚ
deriving DecidableEq

/-! ## Decoding -/

/-- A non-empty hex or base64url text of the given number of bytes; the errors
are for an empty text, for one that does not decode and for another length. -/
def decodeText (text : String) (expected : Nat) (empty : MultisigError) (malformed : MultisigError)
    (wrongLength : Nat → MultisigError) : Except MultisigError (List UInt8) := do
  require (text ≠ "") empty
  match normalizeKey text with
  | none => throw malformed
  | some bytes =>
      require (bytes.length = expected) (wrongLength bytes.length)
      return bytes

def assertSignerSignature (signature : String) (signerIdx : Nat) :
    Except MultisigError (List UInt8) :=
  let field := "verifyMultisigProof: signers[" ++ toString signerIdx ++ "].signature "
  decodeText signature 64
    ⟨.partialSignedRejected, field ++ "is empty (partial-signed tokens are rejected)"⟩
    ⟨.signatureInvalid, field ++ "must be valid hex or base64url (Ed25519 64-byte)"⟩
    fun length => ⟨.signatureInvalid,
      field ++ "decode length unexpected (got " ++ toString length ++ "; expected 64)"⟩

def assertSignerPublicKey (publicKey : String) (signerIdx : Nat) :
    Except MultisigError (List UInt8) :=
  let field := "verifyMultisigProof: signers[" ++ toString signerIdx ++ "].publicKey "
  decodeText publicKey 32
    ⟨.signatureInvalid, field ++ "must be non-empty string"⟩
    ⟨.signatureInvalid, field ++ "must be valid hex or base64url (Ed25519 32-byte)"⟩
    fun length => ⟨.signatureInvalid,
      field ++ "decode length unexpected (got " ++ toString length ++ "; expected 32)"⟩

def decodeMerkleRoot (merkleRoot : String) : Except MultisigError (List UInt8) :=
  let field := "verifyMultisigProof: merkleRoot "
  decodeText merkleRoot 32
    ⟨.merkleRootInvalid, field ++ "must be non-empty string"⟩
    ⟨.merkleRootInvalid, field ++ "must be valid hex or base64url (SHA-256 32-byte): \"" ++
      String.ofList (merkleRoot.toList.take 32) ++ "...\""⟩
    fun length => ⟨.merkleRootInvalid,
      field ++ "decode length unexpected (got " ++ toString length ++ "; expected 32)"⟩

theorem decodeText_eq_ok {text : String} {expected : Nat} (hpos : 0 < expected)
    {empty malformed : MultisigError} {wrongLength : Nat → MultisigError} {bytes : List UInt8} :
    decodeText text expected empty malformed wrongLength = .ok bytes ↔
      normalizeKey text = some bytes ∧ bytes.length = expected := by
  simp only [decodeText, bind_eq_ok, exists_unit, require_eq_ok]
  constructor
  · rintro ⟨-, h⟩
    split at h
    next => cases h
    next decoded hdecoded =>
      simp only [bind_eq_ok, exists_unit, require_eq_ok, pure_eq_ok] at h
      obtain ⟨hlength, rfl⟩ := h
      exact ⟨hdecoded, hlength⟩
  · rintro ⟨hdecoded, hlength⟩
    simp only [hdecoded, bind_eq_ok, exists_unit, require_eq_ok, pure_eq_ok]
    refine ⟨?_, hlength, trivial⟩
    rintro rfl
    have hle := length_normalizeKey_le hdecoded
    rw [hlength] at hle
    exact absurd hle (Nat.not_le.mpr hpos)

theorem assertSignerSignature_eq_ok {signature : String} {i : Nat} {bytes : List UInt8} :
    assertSignerSignature signature i = .ok bytes ↔
      normalizeKey signature = some bytes ∧ bytes.length = 64 := by
  unfold assertSignerSignature
  exact decodeText_eq_ok (by decide)

theorem assertSignerPublicKey_eq_ok {publicKey : String} {i : Nat} {bytes : List UInt8} :
    assertSignerPublicKey publicKey i = .ok bytes ↔
      normalizeKey publicKey = some bytes ∧ bytes.length = 32 := by
  unfold assertSignerPublicKey
  exact decodeText_eq_ok (by decide)

/-! ## The verifier -/

variable (P : MultisigPorts)

def thresholdText (token : MultisigToken) : String :=
  String.ofList (P.numberFormat.format token.threshold)

def checkSchema (token : MultisigToken) (enforceFullSchema : Bool) : Except MultisigError Unit :=
  if enforceFullSchema then
    refuse (P.validateMultisigToken token) fun errors =>
      ⟨.schemaViolation, "verifyMultisigProof step 0: L0 AJV schema validate FAIL at " ++
        (errors.head?.map ValidationError.instancePath).getD "(root)" ++ ": " ++
        (errors.head?.map ValidationError.message).getD "unknown schema violation" ++
        " (fail-closed: callers invoking L1 verify directly must still satisfy the schema)"⟩
  else .ok ()

/-- `Number.isInteger`. -/
def isInteger (value : ℚ) : Bool := value.den == 1

def checkThreshold (token : MultisigToken) : Except MultisigError Unit := do
  require (isInteger token.threshold = true ∧ ¬ token.threshold < 1) ⟨.thresholdInvalid,
    "verifyMultisigProof: threshold must be positive integer (got " ++
      thresholdText P token ++ ")"⟩
  require (¬ (token.signers.length : ℚ) < token.threshold) ⟨.signersInsufficient,
    "verifyMultisigProof: signers.length " ++ toString token.signers.length ++
      " < threshold " ++ thresholdText P token⟩
  require (¬ token.threshold > (token.signers.length : ℚ)) ⟨.thresholdInvalid,
    "verifyMultisigProof: threshold " ++ thresholdText P token ++ " > signers.length " ++
      toString token.signers.length⟩

/-- The ids of the signers, none of them empty and no two equal. -/
def collectSignerIds : List (SignerInfo × Nat) → List String → Except MultisigError (List String)
  | [], signerIdSet => .ok signerIdSet
  | (signer, i) :: rest, signerIdSet => do
      require (signer.id ≠ "") ⟨.signerIdInvalid,
        "verifyMultisigProof: signers[" ++ toString i ++ "].id must be non-empty string"⟩
      require (signer.id ∉ signerIdSet) ⟨.signerDuplicate,
        "verifyMultisigProof: signers[" ++ toString i ++ "].id \"" ++ signer.id ++
          "\" duplicates earlier signer (signer ids must be unique)"⟩
      collectSignerIds rest (signer.id :: signerIdSet)

/-- The path of each signer id. -/
def collectProofs (signerIdSet : List String) :
    List (InclusionProof × Nat) → OrderedMap String String →
      Except MultisigError (OrderedMap String String)
  | [], proofMap => .ok proofMap
  | (proof, i) :: rest, proofMap => do
      let entry := "verifyMultisigProof: inclusionProofs[" ++ toString i ++ "]"
      require (proof.signerId ≠ "")
        ⟨.inclusionProofMissing, entry ++ ".signerId must be non-empty string"⟩
      require (proof.path ≠ "") ⟨.merklePathInvalid, entry ++ ".path must be non-empty string"⟩
      require (proofMap.has proof.signerId = false) ⟨.inclusionProofMissing,
        entry ++ ".signerId \"" ++ proof.signerId ++
          "\" duplicates earlier proof (by-field uniqueness)"⟩
      require (proof.signerId ∈ signerIdSet) ⟨.inclusionProofMissing,
        entry ++ ".signerId \"" ++ proof.signerId ++
          "\" not in signers set (1:1 mapping violated)"⟩
      collectProofs signerIdSet rest (proofMap.set proof.signerId proof.path)

/-- One turn of the loop over the signers: format, leaf, audit path, inclusion
and signature. -/
def verifySigner (proofMap : OrderedMap String String) (merkleRootBytes signedBytes : List UInt8)
    (signer : SignerInfo) (i : Nat) : Except MultisigError Unit := do
  let entry := "verifyMultisigProof: signers[" ++ toString i ++ "]"
  let signatureBytes ← assertSignerSignature signer.signature i
  let publicKeyBytes ← assertSignerPublicKey signer.publicKey i
  let leaf ← generateMerkleLeaf P.numberFormat signer.leafInput
  match proofMap.get? signer.id with
  | none => throw ⟨.inclusionProofMissing, entry ++ ".id \"" ++ signer.id ++
      "\" no matching inclusion proof (unreachable; defense-in-depth)"⟩
  | some pathStr =>
      let pathBytes ← decodeMerklePath pathStr
      let inclusionValid ← verifyMerkleInclusion leaf pathBytes merkleRootBytes
      require (inclusionValid = true) ⟨.merkleRootInvalid, entry ++ ".id \"" ++ signer.id ++
        "\" Merkle inclusion FAIL (recomputed root !== merkleRoot)"⟩
      match P.ed25519Verify signatureBytes signedBytes publicKeyBytes with
      | none => throw ⟨.signatureInvalid,
          entry ++ " Ed25519 verify threw (signature/publicKey/signedBytes corrupted)"⟩
      | some signatureValid =>
          require (signatureValid = true) ⟨.signatureInvalid, entry ++ ".id \"" ++ signer.id ++
            "\" Ed25519 verify FAIL (signature does not match canonicalSerialize(csp) " ++
            "under publicKey)"⟩

/-- The number of signers that pass; the first that does not ends the loop. -/
def countValid (proofMap : OrderedMap String String) (merkleRootBytes signedBytes : List UInt8) :
    List (SignerInfo × Nat) → Nat → Except MultisigError Nat
  | [], validCount => .ok validCount
  | (signer, i) :: rest, validCount => do
      verifySigner P proofMap merkleRootBytes signedBytes signer i
      countValid proofMap merkleRootBytes signedBytes rest (validCount + 1)

def verifyMultisigProof (token : MultisigToken) (options : VerifyMultisigProofOptions) :
    Except MultisigError VerifyMultisigProofResult := do
  checkSchema P token options.enforceFullSchema
  require (token.multisigVersion = "1.0.0") ⟨.versionUnsupported,
    "verifyMultisigProof: unsupported multisigVersion \"" ++ token.multisigVersion ++
      "\" (v0.1 only supports \"1.0.0\")"⟩
  checkThreshold P token
  let signerIdSet ← collectSignerIds token.signers.zipIdx []
  require (token.inclusionProofs.length = token.signers.length) ⟨.inclusionProofMissing,
    "verifyMultisigProof: inclusionProofs.length " ++ toString token.inclusionProofs.length ++
      " !== signers.length " ++ toString token.signers.length ++ " (must be 1:1)"⟩
  let proofMap ← collectProofs signerIdSet token.inclusionProofs.zipIdx OrderedMap.empty
  let merkleRootBytes ← decodeMerkleRoot token.merkleRoot
  let signedBytes := options.cspSignedBytes.getD (canonicalSerialize P.numberFormat token.csp)
  let validCount ← countValid P proofMap merkleRootBytes signedBytes token.signers.zipIdx 0
  require (¬ (validCount : ℚ) < token.threshold) ⟨.quorumInsufficient,
    "verifyMultisigProof: validCount " ++ toString validCount ++ " < threshold " ++
      thresholdText P token ++
      " (insufficient valid signatures; role does not affect weighting)"⟩
  return ⟨validCount, token.threshold⟩

theorem verifyMultisigProof_eq_ok {token : MultisigToken} {options : VerifyMultisigProofOptions}
    {signerIdSet : List String} {proofMap : OrderedMap String String}
    {merkleRootBytes message : List UInt8} {validCount : Nat}
    (hschema : checkSchema P token options.enforceFullSchema = .ok ())
    (hversion : token.multisigVersion = "1.0.0") (hthreshold : checkThreshold P token = .ok ())
    (hids : collectSignerIds token.signers.zipIdx [] = .ok signerIdSet)
    (hlength : token.inclusionProofs.length = token.signers.length)
    (hproofs : collectProofs signerIdSet token.inclusionProofs.zipIdx OrderedMap.empty =
      .ok proofMap)
    (hroot : decodeMerkleRoot token.merkleRoot = .ok merkleRootBytes)
    (hmessage : options.cspSignedBytes.getD (canonicalSerialize P.numberFormat token.csp) = message)
    (hcount : countValid P proofMap merkleRootBytes message token.signers.zipIdx 0 =
      .ok validCount) (hquorum : token.threshold ≤ (validCount : ℚ)) :
    verifyMultisigProof P token options = .ok ⟨validCount, token.threshold⟩ := by
  simp only [verifyMultisigProof, bind_eq_ok, exists_unit, require_eq_ok, pure_eq_ok, hmessage]
  exact ⟨hschema, hversion, hthreshold, signerIdSet, hids, hlength, proofMap, hproofs, _, hroot, _,
    hcount, not_lt.mpr hquorum, rfl⟩

/-! ## What an accepted token shows -/

/-- The leaves of a list of signer entries. -/
theorem leaves_of_mapM (F : NumberFormat) (entries : List SignerLeafInput)
    {leaves : List (List UInt8)} (h : entries.mapM (generateMerkleLeaf F) = .ok leaves) :
    leaves = entries.map fun entry => sha256 (leafText F entry) := by
  induction entries generalizing leaves with
  | nil =>
      simp only [List.mapM_nil, pure_eq_ok] at h
      exact h.symm
  | cons entry entries ih =>
      simp only [List.mapM_cons, bind_eq_ok, pure_eq_ok] at h
      obtain ⟨leaf, hleaf, rest, hrest, rfl⟩ := h
      rw [generateMerkleLeaf_eq_ok hleaf, ih hrest, List.map_cons]

theorem mem_of_collectProofs {signerIdSet : List String} (proofs : List (InclusionProof × Nat))
    {proofMap result : OrderedMap String String}
    (h : collectProofs signerIdSet proofs proofMap = .ok result) {id path : String}
    (hget : result.get? id = some path) :
    (∃ entry ∈ proofs, entry.1.signerId = id ∧ entry.1.path = path) ∨
      proofMap.get? id = some path := by
  induction proofs generalizing proofMap with
  | nil =>
      obtain rfl := Except.ok.inj h
      exact Or.inr hget
  | cons entry proofs ih =>
      obtain ⟨proof, i⟩ := entry
      simp only [collectProofs, bind_eq_ok, exists_unit, require_eq_ok] at h
      rcases ih h.2.2.2.2 with ⟨entry, hmem, hentry⟩ | hset
      · exact Or.inl ⟨entry, List.mem_cons_of_mem _ hmem, hentry⟩
      · rw [OrderedMap.get?_set] at hset
        split at hset
        next hid =>
          exact Or.inl ⟨(proof, i), List.mem_cons_self, hid, Option.some.inj hset⟩
        next => exact Or.inr hset

theorem verifySigner_of_countValid {proofMap : OrderedMap String String}
    {merkleRootBytes signedBytes : List UInt8} (signers : List (SignerInfo × Nat))
    {validCount result : Nat}
    (h : countValid P proofMap merkleRootBytes signedBytes signers validCount = .ok result) :
    ∀ entry ∈ signers,
      verifySigner P proofMap merkleRootBytes signedBytes entry.1 entry.2 = .ok () := by
  induction signers generalizing validCount with
  | nil => simp
  | cons entry signers ih =>
      simp only [countValid, bind_eq_ok, exists_unit] at h
      exact List.forall_mem_cons.mpr ⟨h.1, ih h.2⟩

/-- The turn of the loop for a signer whose parts all check. -/
theorem verifySigner_eq_ok {proofMap : OrderedMap String String}
    {merkleRootBytes signedBytes signatureBytes publicKeyBytes leaf pathBytes : List UInt8}
    {signer : SignerInfo} {i : Nat} {pathStr : String}
    (hsignature : assertSignerSignature signer.signature i = .ok signatureBytes)
    (hpublicKey : assertSignerPublicKey signer.publicKey i = .ok publicKeyBytes)
    (hleaf : generateMerkleLeaf P.numberFormat signer.leafInput = .ok leaf)
    (hget : proofMap.get? signer.id = some pathStr)
    (hpath : decodeMerklePath pathStr = .ok pathBytes)
    (hinclusion : verifyMerkleInclusion leaf pathBytes merkleRootBytes = .ok true)
    (hverify : P.ed25519Verify signatureBytes signedBytes publicKeyBytes = some true) :
    verifySigner P proofMap merkleRootBytes signedBytes signer i = .ok () := by
  simp [verifySigner, hsignature, hpublicKey, hleaf, hget, hpath, hinclusion, hverify, require,
    bind, Except.bind]

/-- The texts hashed while the given signer of a token is verified: its leaf text
and the texts along its audit path. -/
def verificationTexts (F : NumberFormat) (token : MultisigToken) (signer : SignerInfo) :
    List (List UInt8) :=
  leafText F signer.leafInput ::
    (token.inclusionProofs.filter (·.signerId = signer.id)).flatMap fun proof =>
      match decodeMerklePath proof.path with
      | .ok pathBytes => Merkle.climbInputs sha256 (sha256 (leafText F signer.leafInput))
          (pathSteps pathBytes)
      | .error _ => []

/-- The texts hashed to build the tree over a list of signer entries. -/
def commitmentTexts (F : NumberFormat) (entries : List SignerLeafInput) : List (List UInt8) :=
  entries.map (leafText F) ++ nodeTexts (entries.map fun entry => sha256 (leafText F entry))

/-- What the verifier has checked about a signer of an accepted token. -/
structure SignerIncluded (token : MultisigToken) (root : List UInt8) (signer : SignerInfo) :
    Prop where
  signature : ∃ bytes, normalizeKey signer.signature = some bytes ∧ bytes.length = 64
  path : ∃ proof ∈ token.inclusionProofs, proof.signerId = signer.id ∧
    ∃ pathBytes, decodeMerklePath proof.path = .ok pathBytes ∧
      Merkle.climb sha256 (sha256 (leafText P.numberFormat signer.leafInput))
        (pathSteps pathBytes) = root

theorem signerIncluded_of_accepted {token : MultisigToken} {options : VerifyMultisigProofOptions}
    {result : VerifyMultisigProofResult} {root : List UInt8}
    (hroot : decodeMerkleRoot token.merkleRoot = .ok root)
    (haccepted : verifyMultisigProof P token options = .ok result) :
    ∀ signer ∈ token.signers, SignerIncluded P token root signer := by
  intro signer hsigner
  obtain ⟨i, hmem⟩ : ∃ i, (signer, i) ∈ token.signers.zipIdx := by
    obtain ⟨i, hi⟩ := List.mem_iff_getElem?.mp hsigner
    exact ⟨i, List.mem_zipIdx_iff_getElem?.mpr hi⟩
  simp only [verifyMultisigProof, bind_eq_ok, exists_unit, require_eq_ok] at haccepted
  obtain ⟨-, -, -, signerIdSet, -, -, proofMap, hproofs, merkleRootBytes, hdecoded, validCount,
    hcount, -⟩ := haccepted
  obtain rfl : root = merkleRootBytes := Except.ok.inj (hroot.symm.trans hdecoded)
  have hverified := verifySigner_of_countValid P _ hcount (signer, i) hmem
  simp only [verifySigner, bind_eq_ok] at hverified
  obtain ⟨signatureBytes, hsignature, publicKeyBytes, -, leaf, hleaf, hverified⟩ := hverified
  obtain rfl := generateMerkleLeaf_eq_ok hleaf
  split at hverified
  next => cases hverified
  next pathStr hpath =>
    simp only [bind_eq_ok, exists_unit, require_eq_ok] at hverified
    obtain ⟨pathBytes, hpathBytes, inclusionValid, hinclusion, rfl, -⟩ := hverified
    refine ⟨⟨signatureBytes, assertSignerSignature_eq_ok.mp hsignature⟩, ?_⟩
    rcases mem_of_collectProofs _ hproofs hpath with ⟨⟨proof, j⟩, hproof, hid, rfl⟩ | hempty
    · exact ⟨proof, List.fst_mem_of_mem_zipIdx hproof, hid, pathBytes, hpathBytes,
        climb_of_verifyMerkleInclusion hinclusion⟩
    · simp at hempty

/-- A signer whose audit path leads to the root of a tree over signer entries is
one of them, or a text hashed for it and one hashed for the tree collide. -/
theorem SignerIncluded.mem_or_collides {token : MultisigToken} {signer : SignerInfo}
    {entries : List SignerLeafInput} {tree : MerkleTree}
    (hsignatures : ∀ entry ∈ entries, ∃ bytes,
      normalizeKey entry.signature = some bytes ∧ bytes.length = 64)
    (hbuild : buildMerkleTree
      (entries.map fun entry => sha256 (leafText P.numberFormat entry)) = .ok tree)
    (h : SignerIncluded P token tree.root signer) :
    signer.leafInput ∈ entries ∨ Merkle.Collides sha256
      (verificationTexts P.numberFormat token signer) (commitmentTexts P.numberFormat entries) := by
  obtain ⟨⟨signatureBytes, hdecode, hlength⟩, proof, hproof, hid, pathBytes, hpathBytes, hclimb⟩ := h
  have hmap : (entries.map fun entry => sha256 (leafText P.numberFormat entry)) =
      (entries.map (leafText P.numberFormat)).map sha256 := by
    rw [List.map_map]
    rfl
  rw [hmap] at hbuild
  obtain ⟨t, hdigest, htexts, hinputs⟩ := exists_tree_of_buildMerkleTree hbuild
  have hlengths : ∀ text ∈ t.texts, text.length ≠ 2 * 32 := by
    intro text htext
    rw [htexts] at htext
    obtain ⟨entry, hentry, rfl⟩ := List.mem_map.mp htext
    obtain ⟨bytes, hbytes, hlength⟩ := hsignatures entry hentry
    exact length_leafText_ne P.numberFormat entry hbytes hlength
  have hleaf := length_leafText_ne P.numberFormat signer.leafInput hdecode hlength
  rw [← hdigest] at hclimb
  rcases Merkle.mem_texts_of_climb sha256 length_sha256 hleaf (pathSteps pathBytes)
    length_sibling_of_mem_pathSteps t hlengths hclimb with hmem | hcollides
  · rw [htexts] at hmem
    obtain ⟨entry, hentry, heq⟩ := List.mem_map.mp hmem
    exact Or.inl (leafText_injective P.numberFormat heq ▸ hentry)
  · refine Or.inr (hcollides.mono sha256 ?_ ?_)
    · refine List.cons_subset_cons _ fun text htext => List.mem_flatMap.mpr ⟨proof, ?_, ?_⟩
      · simp [hproof, hid]
      · rw [hpathBytes]
        exact htext
    · rw [commitmentTexts, hmap]
      exact hinputs

/-- Merkle membership: when the Merkle root of an accepted token is the root over
a list of signer entries with 64-byte signatures, the id, role and signature of
every signer of the token are those of an entry, or two texts, one hashed by the
verification and one by the construction of the tree, are different and have the
same SHA-256 digest. There is no such root over an empty list. -/
theorem merkle_membership {token : MultisigToken} {options : VerifyMultisigProofOptions}
    {result : VerifyMultisigProofResult} {entries : List SignerLeafInput}
    {leaves : List (List UInt8)} {tree : MerkleTree}
    (hsignatures : ∀ entry ∈ entries, ∃ bytes,
      normalizeKey entry.signature = some bytes ∧ bytes.length = 64)
    (hleaves : entries.mapM (generateMerkleLeaf P.numberFormat) = .ok leaves)
    (hbuild : buildMerkleTree leaves = .ok tree)
    (hroot : decodeMerkleRoot token.merkleRoot = .ok tree.root)
    (haccepted : verifyMultisigProof P token options = .ok result) :
    ∀ signer ∈ token.signers,
      (∃ entry ∈ entries, entry.id = signer.id ∧ entry.role = signer.role ∧
        entry.signature = signer.signature) ∨
      ∃ x ∈ verificationTexts P.numberFormat token signer,
        ∃ y ∈ commitmentTexts P.numberFormat entries, x ≠ y ∧ sha256 x = sha256 y := by
  intro signer hsigner
  obtain rfl := leaves_of_mapM P.numberFormat entries hleaves
  have hincluded := signerIncluded_of_accepted P hroot haccepted signer hsigner
  rcases hincluded.mem_or_collides P hsignatures hbuild with hmem | hcollides
  · exact Or.inl ⟨signer.leafInput, hmem, rfl, rfl, rfl⟩
  · exact Or.inr hcollides

/-! ## A token of two signers -/

namespace Editorial

def capabilityToken : Json :=
  .obj [("id", .str "urn:cap:3b241101-e2bb-4255-8caf-4136c566a962"),
    ("issuerDid", .str "did:key:owner"), ("principalDid", .str "did:key:owner"),
    ("issuedTo", .str "did:key:editor"), ("specVersion", .str "0.1.0"),
    ("issuedAt", .str "2026-01-01T00:00:00.000Z"), ("expiresAt", .str "2027-01-01T00:00:00.000Z"),
    ("capabilities", .arr [.obj [("action", .str "PUBLISH"),
      ("scope", .obj [("type", .str "allowlist"), ("field", .str "channel"),
        ("values", .arr [.str "blog"])])]]),
    ("revocationUrl", .str "https://revoke.example/tokens"),
    ("proof", .obj [("type", .str "Ed25519Signature2026"),
      ("created", .str "2026-01-01T00:00:00.000Z"),
      ("verificationMethod", .str "did:key:owner#key-1"),
      ("value", .str
        "51AWFgaoxG79lj5D5wnAXxCD19TZMBo0oaOxmmntMOJZQ9Lsukfj27qpCRKYbiTGpvssD82Oi517wmaqtkdrBQ")])]

def csp : Json :=
  .obj [("cspVersion", .str "1.0.0"), ("token", capabilityToken), ("disclosedClaims", .arr []),
    ("challenge", .str "7d444840-9dc0-41d1-b245-5ffdce74fad2"),
    ("audience", .str "did:key:press"), ("notAfter", .str "2026-06-01T00:00:00.000Z")]

def editor : SignerInfo where
  id := "did:key:editor"
  role := .human
  publicKey := "uhEoC3XuHBkLLcQ5Uo8dlwxzY0KY0fX5ilxu_2rPpVQ"
  signature :=
    "B-Dp0lsgv1WjvtNLjuU--9KbKDigaMumlq2EpO8-K4-aD0hxw2H5CTuFy6kAjqcCVhhvCcv1Q7Cd5IHb1GT6DQ"

def writer : SignerInfo where
  id := "did:key:writer"
  role := .agent
  publicKey := "RuS-ykX4EKAtjJaiOfeNeUqGlJLNaqnVBjszL2Rp558"
  signature :=
    "0KGKwtAyK8B64NaYsEHGDbb4KLvd_6wVuTHAYRqa_4MyknKwdetV1TQr2j-aN3LLgX-iKULkQldzxe8In5D_CA"

def token : MultisigToken where
  multisigVersion := "1.0.0"
  threshold := 2
  signers := [editor, writer]
  merkleRoot := "593a01cbde7df12268d69531ba4acb1b6a7971ee201f125a25968366280b5554"
  inclusionProofs :=
    [{ signerId := "did:key:editor", path := "JI2nG920g37Lkk6DHyh64g4CI8iYPZbNwWvUdMC4UvsB" },
      { signerId := "did:key:writer", path := "_vI6gmEZskdacLYFbgriOFCYTD08LqB8qS7WDLhUiX4A" }]
  csp := csp

/-- The token meets the schema, and each signature is one over the payload. -/
def ports : MultisigPorts where
  numberFormat := NumberFormat.decimal
  validateMultisigToken := fun _ => none
  ed25519Verify := fun signature message key =>
    some (decide (message = canonicalSerialize NumberFormat.decimal csp ∧
      ∃ signer ∈ [editor, writer], normalizeKey signer.signature = some signature ∧
        normalizeKey signer.publicKey = some key))

def entries : List SignerLeafInput := [editor.leafInput, writer.leafInput]

def editorLeaf : List UInt8 :=
  hexPairs "fef23a826119b2475a70b6056e0ae23850984c3d3c2ea07ca92ed60cb854897e".toList

def writerLeaf : List UInt8 :=
  hexPairs "248da71bddb4837ecb924e831f287ae20e0223c8983d96cdc16bd474c0b852fb".toList

def tree : MerkleTree where
  root := hexPairs "593a01cbde7df12268d69531ba4acb1b6a7971ee201f125a25968366280b5554".toList
  paths := [writerLeaf ++ [1], editorLeaf ++ [0]]

theorem length_signers :
    ((normalizeKey editor.signature).map List.length = some 64 ∧
      (normalizeKey editor.publicKey).map List.length = some 32) ∧
      (normalizeKey writer.signature).map List.length = some 64 ∧
      (normalizeKey writer.publicKey).map List.length = some 32 := by
  rw [show normalizeKey editor.signature = _ from normalizeKey_ofList _,
    show normalizeKey editor.publicKey = _ from normalizeKey_ofList _,
    show normalizeKey writer.signature = _ from normalizeKey_ofList _,
    show normalizeKey writer.publicKey = _ from normalizeKey_ofList _]
  decide +kernel

/-- The leaves of the two signers, and the root over them. -/
theorem generateMerkleLeaf_signers :
    generateMerkleLeaf NumberFormat.decimal editor.leafInput = .ok editorLeaf ∧
      generateMerkleLeaf NumberFormat.decimal writer.leafInput = .ok writerLeaf ∧
      combine editorLeaf writerLeaf = tree.root := by
  rw [generateMerkleLeaf_of_ne (by decide) (by decide),
    generateMerkleLeaf_of_ne (by decide) (by decide), combine, Packed.sha256_eq,
    Packed.sha256_eq, Packed.sha256_eq,
    show leafText NumberFormat.decimal editor.leafInput = _ from leafText_ofList _ _,
    show leafText NumberFormat.decimal writer.leafInput = _ from leafText_ofList _ _,
    show editorLeaf = hexPairs _ from congrArg hexPairs String.toList_ofList,
    show writerLeaf = hexPairs _ from congrArg hexPairs String.toList_ofList,
    show tree.root = hexPairs _ from congrArg hexPairs String.toList_ofList]
  decide +kernel

/-- Both audit paths of the tree lead to its root. -/
theorem buildMerkleTree_leaves :
    buildMerkleTree [editorLeaf, writerLeaf] = .ok tree ∧
      verifyMerkleInclusion editorLeaf (writerLeaf ++ [1]) tree.root = .ok true ∧
      verifyMerkleInclusion writerLeaf (editorLeaf ++ [0]) tree.root = .ok true := by
  have heditor := length_of_generateMerkleLeaf generateMerkleLeaf_signers.1
  have hwriter := length_of_generateMerkleLeaf generateMerkleLeaf_signers.2.1
  have hbuild : buildMerkleTree [editorLeaf, writerLeaf] = .ok tree := by
    rw [buildMerkleTree_pair heditor hwriter, generateMerkleLeaf_signers.2.2]
    rfl
  have hspelled := spelled_of_buildMerkleTree hbuild
    (List.forall_mem_cons.mpr ⟨heditor, List.forall_mem_singleton.mpr hwriter⟩)
  have hfirst : [editorLeaf, writerLeaf][0]? = some editorLeaf := rfl
  have hsecond : [editorLeaf, writerLeaf][1]? = some writerLeaf := rfl
  exact ⟨hbuild, hspelled.included hfirst heditor rfl, hspelled.included hsecond hwriter rfl⟩

theorem decode_token :
    decodeMerkleRoot token.merkleRoot = .ok tree.root ∧
      fromBase64Url "JI2nG920g37Lkk6DHyh64g4CI8iYPZbNwWvUdMC4UvsB".toList =
        some (writerLeaf ++ [1]) ∧
      fromBase64Url "_vI6gmEZskdacLYFbgriOFCYTD08LqB8qS7WDLhUiX4A".toList =
        some (editorLeaf ++ [0]) := by
  unfold decodeMerkleRoot
  rw [decodeText_eq_ok (by decide), show normalizeKey token.merkleRoot = _ from normalizeKey_ofList _,
    show "JI2nG920g37Lkk6DHyh64g4CI8iYPZbNwWvUdMC4UvsB".toList = _ from String.toList_ofList,
    show "_vI6gmEZskdacLYFbgriOFCYTD08LqB8qS7WDLhUiX4A".toList = _ from String.toList_ofList,
    show editorLeaf = hexPairs _ from congrArg hexPairs String.toList_ofList,
    show writerLeaf = hexPairs _ from congrArg hexPairs String.toList_ofList,
    show tree.root = hexPairs _ from congrArg hexPairs String.toList_ofList]
  decide +kernel

theorem exists_proofMap :
    ∃ proofMap, collectProofs [writer.id, editor.id] token.inclusionProofs.zipIdx
        OrderedMap.empty = .ok proofMap ∧
      proofMap.get? editor.id =
        some "JI2nG920g37Lkk6DHyh64g4CI8iYPZbNwWvUdMC4UvsB" ∧ proofMap.get? writer.id =
        some "_vI6gmEZskdacLYFbgriOFCYTD08LqB8qS7WDLhUiX4A" := by
  have h : (collectProofs [writer.id, editor.id] token.inclusionProofs.zipIdx
      OrderedMap.empty).toOption.any (fun proofMap => decide (
        proofMap.get? editor.id =
        some "JI2nG920g37Lkk6DHyh64g4CI8iYPZbNwWvUdMC4UvsB" ∧ proofMap.get? writer.id =
        some "_vI6gmEZskdacLYFbgriOFCYTD08LqB8qS7WDLhUiX4A")) = true := by
    decide
  obtain ⟨proofMap, hproofMap, hpaths⟩ := exists_ok_of_any h
  exact ⟨proofMap, hproofMap, of_decide_eq_true hpaths⟩

theorem token_accepted : verifyMultisigProof ports token {} = .ok ⟨2, 2⟩ := by
  obtain ⟨proofMap, hproofs, hgetEditor, hgetWriter⟩ := exists_proofMap
  have heditor : verifySigner ports proofMap tree.root
      (canonicalSerialize NumberFormat.decimal csp) editor 0 = .ok () := by
    obtain ⟨signature, hsignature⟩ := Option.map_eq_some_iff.mp length_signers.1.1
    obtain ⟨key, hkey⟩ := Option.map_eq_some_iff.mp length_signers.1.2
    exact verifySigner_eq_ok ports (assertSignerSignature_eq_ok.mpr hsignature)
      (assertSignerPublicKey_eq_ok.mpr hkey) generateMerkleLeaf_signers.1 hgetEditor
      (decodeMerklePath_eq_ok.mpr decode_token.2.1) buildMerkleTree_leaves.2.1
      (congrArg some (decide_eq_true ⟨rfl, editor, by simp, hsignature.1, hkey.1⟩))
  have hwriter : verifySigner ports proofMap tree.root
      (canonicalSerialize NumberFormat.decimal csp) writer 1 = .ok () := by
    obtain ⟨signature, hsignature⟩ := Option.map_eq_some_iff.mp length_signers.2.1
    obtain ⟨key, hkey⟩ := Option.map_eq_some_iff.mp length_signers.2.2
    exact verifySigner_eq_ok ports (assertSignerSignature_eq_ok.mpr hsignature)
      (assertSignerPublicKey_eq_ok.mpr hkey) generateMerkleLeaf_signers.2.1 hgetWriter
      (decodeMerklePath_eq_ok.mpr decode_token.2.2) buildMerkleTree_leaves.2.2
      (congrArg some (decide_eq_true ⟨rfl, writer, by simp, hsignature.1, hkey.1⟩))
  have hcount : countValid ports proofMap tree.root
      (canonicalSerialize ports.numberFormat token.csp) token.signers.zipIdx 0 = .ok 2 := by
    show countValid ports proofMap tree.root _ [(editor, 0), (writer, 1)] 0 = .ok 2
    simp only [countValid, bind_eq_ok, exists_unit]
    exact ⟨heditor, hwriter, trivial⟩
  have hids : checkThreshold ports token = .ok () ∧
      collectSignerIds token.signers.zipIdx [] = .ok [writer.id, editor.id] :=
    ⟨rfl, by decide⟩
  exact verifyMultisigProof_eq_ok ports rfl rfl hids.1 hids.2 rfl hproofs decode_token.1
    Option.getD_none hcount (by decide)

theorem signers_included :
    verifyMultisigProof ports token {} = .ok ⟨2, 2⟩ ∧
      ∀ signer ∈ token.signers,
        (∃ entry ∈ entries, entry.id = signer.id ∧ entry.role = signer.role ∧
          entry.signature = signer.signature) ∨
        ∃ x ∈ verificationTexts ports.numberFormat token signer,
          ∃ y ∈ commitmentTexts ports.numberFormat entries, x ≠ y ∧ sha256 x = sha256 y := by
  have hsignatures : ∀ entry ∈ entries, ∃ bytes,
      normalizeKey entry.signature = some bytes ∧ bytes.length = 64 := by
    simp only [entries, List.forall_mem_cons, List.not_mem_nil, false_implies, implies_true,
      and_true]
    exact ⟨Option.map_eq_some_iff.mp length_signers.1.1, Option.map_eq_some_iff.mp length_signers.2.1⟩
  have hleaves : entries.mapM (generateMerkleLeaf ports.numberFormat) =
      .ok [editorLeaf, writerLeaf] := by
    simp only [entries, List.mapM_cons, List.mapM_nil, bind_eq_ok, pure_eq_ok]
    exact ⟨_, generateMerkleLeaf_signers.1, _,
      ⟨_, generateMerkleLeaf_signers.2.1, _, rfl, rfl⟩, rfl⟩
  exact ⟨token_accepted, merkle_membership ports hsignatures hleaves buildMerkleTree_leaves.1
    decode_token.1 token_accepted⟩

end Editorial

end Coivitas.Crypto.Multisig
