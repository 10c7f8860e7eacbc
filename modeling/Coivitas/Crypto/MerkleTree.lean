import Coivitas.Crypto.Encoding
import Coivitas.Crypto.Sha256
import Coivitas.Foundation.Json
import Coivitas.Foundation.MerkleTree
import Coivitas.Foundation.Outcome

/-! # Signer leaves, the Merkle tree over them and audit paths

The model of `packages/crypto/src/multisig/merkle-tree.ts`: the leaf of a signer
is the SHA-256 digest of the canonical text of its id, role and signature, a
parent is the digest of its two children, and an audit path is a byte string of
33-byte segments.
-/

namespace Coivitas.Crypto.Multisig

open Foundation Sha256

inductive MultisigErrorCode where
  | tokenIncomplete
  | versionUnsupported
  | thresholdInvalid
  | signersInsufficient
  | signerDuplicate
  | signerIdInvalid
  | merkleRootInvalid
  | merklePathInvalid
  | inclusionProofMissing
  | signatureInvalid
  | quorumInsufficient
  | partialSignedRejected
  | challengeInvalid
  | schemaViolation
deriving DecidableEq, Repr

/-- A thrown error; the message is the text behind the code. -/
structure MultisigError where
  code : MultisigErrorCode
  message : String
deriving DecidableEq, Repr

inductive Role where
  | human
  | agent
deriving DecidableEq, Repr

def Role.text : Role → String
  | .human => "human"
  | .agent => "agent"

/-! ## Leaves -/

/-- The part of a signer that is hashed into its leaf. -/
structure SignerLeafInput where
  id : String
  role : Role
  signature : String
deriving DecidableEq, Repr

def SignerLeafInput.object (input : SignerLeafInput) : Json :=
  .obj [("id", .str input.id), ("role", .str input.role.text), ("signature", .str input.signature)]

/-- The canonical text of a value as UTF-8. -/
def canonicalSerialize (F : NumberFormat) (payload : Json) : List UInt8 :=
  utf8 (Json.canonicalize F payload)

/-- The text hashed into a leaf. -/
def leafText (F : NumberFormat) (input : SignerLeafInput) : List UInt8 :=
  canonicalSerialize F input.object

def generateMerkleLeaf (F : NumberFormat) (input : SignerLeafInput) :
    Except MultisigError (List UInt8) := do
  require (input.id ≠ "")
    ⟨.schemaViolation, "generateMerkleLeaf: input.id must be non-empty string"⟩
  require (input.signature ≠ "")
    ⟨.schemaViolation, "generateMerkleLeaf: input.signature must be non-empty string"⟩
  let digest := sha256 (leafText F input)
  require (digest.length = 32) ⟨.merkleRootInvalid,
    "generateMerkleLeaf: SHA-256 digest length unexpected (got " ++ toString digest.length ++
      "; expected 32)"⟩
  return digest

/-! ## The tree -/

/-- The parent of two nodes. -/
def combine (left right : List UInt8) : List UInt8 := sha256 (left ++ right)

/-- The sibling digests from one leaf to the root, with their directions: `0`
for a sibling on the left, `1` for one on the right. A node without a sibling is
promoted and leaves no segment. -/
def pathSegments : List (List (List UInt8)) → Nat → List (List UInt8 × UInt8)
  | [], _ => []
  | currentLevel :: rest, currentIdx =>
      let isRightChild := currentIdx % 2 = 1
      let siblingIdx := if isRightChild then currentIdx - 1 else currentIdx + 1
      match currentLevel[siblingIdx]? with
      | some sibling =>
          (sibling, if isRightChild then 0 else 1) :: pathSegments rest (currentIdx / 2)
      | none => pathSegments rest (currentIdx / 2)

/-- Each segment is the sibling followed by the direction. -/
def pathBytes (segments : List (List UInt8 × UInt8)) : List UInt8 :=
  segments.flatMap fun segment => segment.1 ++ [segment.2]

structure MerkleTree where
  root : List UInt8
  paths : List (List UInt8)
deriving DecidableEq, Repr

def assertLeaf (entry : List UInt8 × Nat) : Except MultisigError Unit :=
  require (entry.1.length = 32) ⟨.merkleRootInvalid,
    "buildMerkleTree: leaves[" ++ toString entry.2 ++
      "] must be 32-byte Uint8Array (got length " ++ toString entry.1.length ++ ")"⟩

/-- The levels that `buildMerkleTree` stores, from the leaves to the root. -/
def merkleLevels (leaves : List (List UInt8)) : List (List (List UInt8)) :=
  Merkle.levels combine leaves.length leaves

def buildMerkleTree (leaves : List (List UInt8)) : Except MultisigError MerkleTree := do
  require (leaves.length ≠ 0)
    ⟨.merkleRootInvalid, "buildMerkleTree: leaves array must be non-empty"⟩
  forEach leaves.zipIdx assertLeaf
  match leaves with
  | [onlyLeaf] => return ⟨onlyLeaf, [[]]⟩
  | _ =>
      let levels := merkleLevels leaves
      match levels.getLast?.bind List.head? with
      | none => throw ⟨.merkleRootInvalid,
          "buildMerkleTree: root undefined (unreachable; defense-in-depth)"⟩
      | some root =>
          let path leafIdx := pathBytes (pathSegments levels.dropLast leafIdx)
          return ⟨root, (List.range leaves.length).map path⟩

/-! ## Audit paths -/

def encodeMerklePath (pathBytes : List UInt8) : String := toBase64Url pathBytes

def decodeMerklePath (pathStr : String) : Except MultisigError (List UInt8) :=
  match fromBase64Url pathStr.toList with
  | some bytes => .ok bytes
  | none => .error ⟨.merklePathInvalid, "decodeMerklePath: base64url decode failed for \"" ++
      String.ofList (pathStr.toList.take 32) ++ "...\""⟩

/-- Comparison without an early exit: the differences of all bytes are collected. -/
def constantTimeEquals (a b : List UInt8) : Bool :=
  if a.length ≠ b.length then false
  else (List.zipWith (· ^^^ ·) a b).foldl (· ||| ·) 0 == 0

/-- The sibling of the segment with the given index. -/
def siblingHash (pathBytes : List UInt8) (i : Nat) : List UInt8 :=
  (pathBytes.drop (i * 33)).take 32

/-- One turn of the loop over the segments. -/
def climbSegment (pathBytes : List UInt8) (currentHash : List UInt8) (i : Nat) :
    Except MultisigError (List UInt8) := do
  let direction := pathBytes.getD (i * 33 + 32) 0
  require (direction = 0 ∨ direction = 1) ⟨.merklePathInvalid,
    "verifyMerkleInclusion: invalid direction byte " ++ toString direction.toNat ++
      " at segment " ++ toString i ++ " (must be 0 or 1)"⟩
  return if direction = 0 then combine (siblingHash pathBytes i) currentHash
    else combine currentHash (siblingHash pathBytes i)

def verifyMerkleInclusion (leaf pathBytes expectedRoot : List UInt8) :
    Except MultisigError Bool := do
  require (leaf.length = 32) ⟨.merklePathInvalid,
    "verifyMerkleInclusion: leaf must be 32-byte Uint8Array (got length " ++
      toString leaf.length ++ ")"⟩
  require (expectedRoot.length = 32) ⟨.merkleRootInvalid,
    "verifyMerkleInclusion: expectedRoot must be 32-byte Uint8Array (got length " ++
      toString expectedRoot.length ++ ")"⟩
  require (pathBytes.length % 33 = 0) ⟨.merklePathInvalid,
    "verifyMerkleInclusion: pathBytes length " ++ toString pathBytes.length ++
      " not multiple of 33 (each segment = 32-byte sibling + 1-byte direction; " ++
      "RFC 6962 audit path encoding)"⟩
  if pathBytes.length = 0 then return constantTimeEquals leaf expectedRoot
  else
    let currentHash ← (List.range (pathBytes.length / 33)).foldlM (climbSegment pathBytes) leaf
    return constantTimeEquals currentHash expectedRoot

/-! ## What the functions compute -/

theorem foldl_or_eq_zero (diffs : List UInt8) (diff : UInt8) :
    diffs.foldl (· ||| ·) diff = 0 ↔ diff = 0 ∧ ∀ d ∈ diffs, d = 0 := by
  induction diffs generalizing diff with
  | nil => simp
  | cons d diffs ih =>
      rw [List.foldl_cons, ih, List.forall_mem_cons, UInt8.or_eq_zero_iff, and_assoc]

@[simp] theorem constantTimeEquals_eq_true {a b : List UInt8} :
    constantTimeEquals a b = true ↔ a = b := by
  unfold constantTimeEquals
  split
  next hlength =>
    refine ⟨by simp, ?_⟩
    rintro rfl
    exact absurd rfl hlength
  next hlength =>
    rw [not_not] at hlength
    rw [beq_iff_eq, foldl_or_eq_zero]
    simp only [true_and]
    induction a generalizing b with
    | nil => simp [List.eq_nil_of_length_eq_zero hlength.symm]
    | cons x a ih =>
        cases b with
        | nil => simp at hlength
        | cons y b =>
            simp only [List.length_cons, Nat.add_right_cancel_iff] at hlength
            simp [ih hlength, UInt8.xor_eq_zero_iff]

@[simp] theorem decodeMerklePath_eq_ok {pathStr : String} {bytes : List UInt8} :
    decodeMerklePath pathStr = .ok bytes ↔ fromBase64Url pathStr.toList = some bytes := by
  unfold decodeMerklePath
  split <;> simp_all

theorem generateMerkleLeaf_eq_ok {F : NumberFormat} {input : SignerLeafInput}
    {leaf : List UInt8} (h : generateMerkleLeaf F input = .ok leaf) :
    leaf = sha256 (leafText F input) := by
  simp only [generateMerkleLeaf, bind_eq_ok, exists_unit, require_eq_ok, pure_eq_ok] at h
  exact h.2.2.2.symm

theorem generateMerkleLeaf_of_ne {F : NumberFormat} {input : SignerLeafInput} (hid : input.id ≠ "")
    (hsignature : input.signature ≠ "") :
    generateMerkleLeaf F input = .ok (sha256 (leafText F input)) := by
  simp only [generateMerkleLeaf, bind_eq_ok, exists_unit, require_eq_ok, pure_eq_ok]
  exact ⟨hid, hsignature, length_sha256 _, trivial⟩

theorem length_of_generateMerkleLeaf {F : NumberFormat} {input : SignerLeafInput}
    {leaf : List UInt8} (h : generateMerkleLeaf F input = .ok leaf) : leaf.length = 32 := by
  rw [generateMerkleLeaf_eq_ok h, length_sha256]

/-- The text of a leaf, its three names in their order. -/
theorem leafText_ofList {F : NumberFormat} {role : Role} (id signature : List Char) :
    leafText F ⟨String.ofList id, role, String.ofList signature⟩ =
      ('{' :: (Json.printString "id" ++ ':' :: ('"' :: (id.flatMap Json.escapeChar ++ ['"']) ++
        ',' :: (Json.printString "role" ++ ':' :: (Json.printString role.text ++
          ',' :: (Json.printString "signature" ++ ':' ::
            ('"' :: (signature.flatMap Json.escapeChar ++ ['"']) ++ ['}'])))))) :
        List Char).flatMap String.utf8EncodeChar := by
  have hprint : ∀ text, Json.printString (String.ofList text) =
      '"' :: (text.flatMap Json.escapeChar ++ ['"']) := by
    intro text
    rw [Json.printString, String.toList_ofList]
  have hsorted : (Json.sortKeysMembers [("id", .str (String.ofList id)), ("role", .str role.text),
      ("signature", .str (String.ofList signature))]).insertionSort Json.memberLe =
      [("id", .str (String.ofList id)), ("role", .str role.text),
        ("signature", .str (String.ofList signature))] := by
    apply List.Pairwise.insertionSort_eq
    simp only [Json.sortKeysMembers, Json.sortKeys]
    simp only [List.pairwise_cons, List.forall_mem_cons, Json.memberLe]
    simp
    decide
  rw [leafText, canonicalSerialize, utf8_eq_flatMap, Json.canonicalize, SignerLeafInput.object,
    Json.sortKeys, hsorted, Json.stringify, String.toList_ofList, ← hprint, ← hprint]
  rfl

theorem Role.text_injective : Function.Injective Role.text := by
  intro a b
  cases a <;> cases b <;> simp [text]

/-- The members of a leaf object are in canonical order already. -/
theorem sortKeys_object (input : SignerLeafInput) : Json.sortKeys input.object = input.object := by
  have hsorted : [("id", Json.str input.id), ("role", .str input.role.text),
      ("signature", .str input.signature)].Pairwise Json.memberLe := by
    simp only [List.pairwise_cons, List.mem_cons, List.not_mem_nil, or_false, forall_eq_or_imp,
      forall_eq, Json.memberLe]
    exact ⟨⟨by decide, by decide⟩, by decide, by simp⟩
  simp only [SignerLeafInput.object, Json.sortKeys, Json.sortKeysMembers,
    hsorted.insertionSort_eq]

/-- The text of a leaf determines the id, the role and the signature. -/
theorem leafText_injective (F : NumberFormat) : Function.Injective (leafText F) := by
  intro left right h
  have hcanonical := (Json.canonicalize_eq_iff F).mp (utf8_injective h)
  rw [sortKeys_object, sortKeys_object] at hcanonical
  simp only [SignerLeafInput.object, Json.obj.injEq, List.cons.injEq, Prod.mk.injEq,
    Json.str.injEq, true_and, and_true] at hcanonical
  obtain ⟨hid, hrole, hsignature⟩ := hcanonical
  cases left
  cases right
  exact (SignerLeafInput.mk.injEq ..).mpr ⟨hid, Role.text_injective hrole, hsignature⟩

theorem length_le_length_printString (s : String) :
    s.toList.length ≤ (Json.printString s).length := by
  have hchar : ∀ c, 1 ≤ (Json.escapeChar c).length := by
    intro c
    unfold Json.escapeChar
    split
    next => simp
    next => split <;> simp
  have hchars : s.toList.length ≤ (s.toList.flatMap Json.escapeChar).length := by
    induction s.toList with
    | nil => simp
    | cons c rest ih =>
        have hc := hchar c
        rw [List.flatMap_cons, List.length_append, List.length_cons]
        omega
  simp only [Json.printString, List.length_cons, List.length_append]
  omega

/-- The text of a leaf is longer than its signature. -/
theorem length_signature_lt_length_leafText (F : NumberFormat) (input : SignerLeafInput) :
    input.signature.toList.length < (leafText F input).length := by
  refine lt_of_lt_of_le ?_ (length_le_length_utf8 _)
  have hsignature := length_le_length_printString input.signature
  rw [Json.canonicalize, sortKeys_object]
  simp only [Json.stringify, String.toList_ofList, SignerLeafInput.object, Json.print,
    Json.printMembers, List.length_cons, List.length_append, List.length_nil]
  omega

/-- A leaf text with a 64-byte signature is not the text of an inner node. -/
theorem length_leafText_ne (F : NumberFormat) (input : SignerLeafInput) {bytes : List UInt8}
    (hdecode : normalizeKey input.signature = some bytes) (hbytes : bytes.length = 64) :
    (leafText F input).length ≠ 2 * 32 := by
  have hle := length_normalizeKey_le hdecode
  have hlt := length_signature_lt_length_leafText F input
  omega

/-- The steps spelled by the bytes of a path. -/
def pathSteps (pathBytes : List UInt8) : List (Merkle.PathStep UInt8) :=
  (List.range (pathBytes.length / 33)).map fun i =>
    { sibling := siblingHash pathBytes i, siblingOnLeft := pathBytes.getD (i * 33 + 32) 0 == 0 }

theorem length_siblingHash {pathBytes : List UInt8} {i : Nat} (hi : i < pathBytes.length / 33) :
    (siblingHash pathBytes i).length = 32 := by
  simp only [siblingHash, List.length_take, List.length_drop]
  omega

theorem length_sibling_of_mem_pathSteps {pathBytes : List UInt8} :
    ∀ step ∈ pathSteps pathBytes, step.sibling.length = 32 := by
  intro step hstep
  obtain ⟨i, hi, rfl⟩ := List.mem_map.mp hstep
  exact length_siblingHash (List.mem_range.mp hi)

theorem climbSegment_eq_ok {pathBytes currentHash next : List UInt8} {i : Nat}
    (h : climbSegment pathBytes currentHash i = .ok next) :
    next = sha256 (Merkle.PathStep.input
      { sibling := siblingHash pathBytes i,
        siblingOnLeft := pathBytes.getD (i * 33 + 32) 0 == 0 } currentHash) := by
  simp only [climbSegment, bind_eq_ok, exists_unit, require_eq_ok, pure_eq_ok] at h
  rw [← h.2]
  simp only [Merkle.PathStep.input, beq_iff_eq]
  split <;> rfl

/-- The loop climbs the steps of the path. -/
theorem foldlM_climbSegment {pathBytes : List UInt8} (indices : List Nat)
    {currentHash last : List UInt8}
    (h : indices.foldlM (climbSegment pathBytes) currentHash = .ok last) :
    last = Merkle.climb sha256 currentHash (indices.map fun i =>
      { sibling := siblingHash pathBytes i,
        siblingOnLeft := pathBytes.getD (i * 33 + 32) 0 == 0 }) := by
  induction indices generalizing currentHash with
  | nil =>
      rw [List.foldlM_nil, pure_eq_ok] at h
      exact h.symm
  | cons i indices ih =>
      rw [List.foldlM_cons, bind_eq_ok] at h
      obtain ⟨next, hnext, hrest⟩ := h
      rw [ih hrest, climbSegment_eq_ok hnext]
      rfl

/-- A path that is accepted leads from the leaf to the root. -/
theorem climb_of_verifyMerkleInclusion {leaf pathBytes expectedRoot : List UInt8}
    (h : verifyMerkleInclusion leaf pathBytes expectedRoot = .ok true) :
    Merkle.climb sha256 leaf (pathSteps pathBytes) = expectedRoot := by
  simp only [verifyMerkleInclusion, bind_eq_ok, exists_unit, require_eq_ok] at h
  obtain ⟨-, -, -, h⟩ := h
  split at h
  next hempty =>
    simp only [pure_eq_ok, constantTimeEquals_eq_true] at h
    simp [pathSteps, hempty, h]
  next =>
    simp only [bind_eq_ok, pure_eq_ok, constantTimeEquals_eq_true] at h
    obtain ⟨last, hlast, rfl⟩ := h
    exact (foldlM_climbSegment _ hlast).symm

/-- The texts hashed by `buildMerkleTree` over the given leaves. -/
def nodeTexts (leaves : List (List UInt8)) : List (List UInt8) :=
  (merkleLevels leaves).flatMap Merkle.levelInputs

/-- The levels of digests are the digests of the levels of trees. -/
theorem merkleLevels_map_sha256 (texts : List (List UInt8)) :
    merkleLevels (texts.map sha256) =
      (Merkle.levels Merkle.Tree.node texts.length (texts.map Merkle.Tree.leaf)).map
        (List.map (Merkle.Tree.digest sha256)) := by
  have hmap := Merkle.map_levels Merkle.Tree.node combine (Merkle.Tree.digest sha256)
    (fun _ _ => rfl) texts.length (texts.map Merkle.Tree.leaf)
  rw [hmap, merkleLevels, List.length_map, List.map_map]
  rfl

/-- The root that `buildMerkleTree` computes is the digest of a tree over the
texts of the leaves, and the build hashes everything the digest needs. -/
theorem exists_tree_of_buildMerkleTree {texts : List (List UInt8)} {tree : MerkleTree}
    (h : buildMerkleTree (texts.map sha256) = .ok tree) :
    ∃ t : Merkle.Tree UInt8, t.digest sha256 = tree.root ∧ t.texts = texts ∧
      t.inputs sha256 ⊆ texts ++ nodeTexts (texts.map sha256) := by
  simp only [buildMerkleTree, bind_eq_ok, exists_unit, require_eq_ok] at h
  obtain ⟨hne, -, h⟩ := h
  rw [List.length_map] at hne
  split at h
  next onlyLeaf hleaves =>
    obtain ⟨text, rfl, rfl⟩ := List.map_eq_singleton_iff.mp hleaves
    simp only [pure_eq_ok] at h
    exact ⟨.leaf text, by rw [← h, Merkle.Tree.digest], rfl, by simp [Merkle.Tree.inputs]⟩
  next =>
    obtain ⟨t, hlast, htexts⟩ := Merkle.exists_root Merkle.Tree.node Merkle.Tree.texts
      (fun _ _ => rfl) texts.length (texts.map Merkle.Tree.leaf) (by simpa using hne) (by simp)
    refine ⟨t, ?_, ?_, ?_⟩
    · rw [merkleLevels_map_sha256] at h
      simp only [List.getLast?_map, hlast, Option.map_some, List.map_cons, List.map_nil,
        Option.bind_some, List.head?_cons, pure_eq_ok] at h
      rw [← h]
    · rw [htexts, List.flatMap_map]
      simp [Merkle.Tree.texts]
    · have hinputs := Merkle.inputs_root_subset sha256 _ _ hlast
      rw [← merkleLevels_map_sha256, List.flatMap_map] at hinputs
      simpa [Merkle.Tree.inputs, nodeTexts] using hinputs

end Coivitas.Crypto.Multisig
