import Coivitas.Crypto.RecordChain
import Coivitas.Foundation.AuditPath
import Coivitas.Foundation.UuidText

/-! # Merkle proofs over a list of records

The model of `generateProof` of `packages/crypto/src/hash-chain.ts`. A node is the SHA-256
digest of the two hex texts below it. A layer with an odd number of nodes has its last node
doubled, and the loop collects the sibling of the target on every layer.
-/

namespace Coivitas.Crypto

open Foundation

inductive Side where
  | left
  | right
  deriving DecidableEq, Repr

structure MerkleProofNode where
  hash : String
  position : Side
  deriving DecidableEq, Repr

structure MerkleProof where
  recordIndex : Int
  recordHash : String
  siblings : List MerkleProofNode
  root : String
  deriving DecidableEq, Repr

/-- `hash` over the text, not over the bytes it spells. -/
def hashPair (left right : String) : String := toHex (Sha256.sha256 (utf8 (left ++ right)))

variable (F : NumberFormat)

/-- The hash of the record with its `prevHash` normalised. -/
def leafHash (record : Record) : Except CryptoError String := do
  let normalizedPrevHash ← normalizePrevHash record
  computeRecordHash F (record.set "prevHash" (prevHashValue normalizedPrevHash))

/-- The pairs of a layer from the index `i` on: the layer above, and the sibling of the target
where its pair is met. -/
def combineLayer (targetIndex i : Nat) : List String → List String × List MerkleProofNode
  | left :: right :: rest =>
      let pairIndex := if targetIndex % 2 = 0 then targetIndex else targetIndex - 1
      let (nextLayer, siblings) := combineLayer targetIndex (i + 2) rest
      (hashPair left right :: nextLayer,
        if i = pairIndex then
          (if targetIndex % 2 = 0 then ⟨right, .right⟩ else ⟨left, .left⟩) :: siblings
        else siblings)
  | _ => ([], [])

/-- The loop over the layers; the first argument only bounds it. -/
def climbLayers : Nat → List String → Nat → List MerkleProofNode →
    List String × List MerkleProofNode
  | 0, currentLayer, _, siblings => (currentLayer, siblings)
  | fuel + 1, currentLayer, targetIndex, siblings =>
      if 1 < currentLayer.length then
        let (nextLayer, found) := combineLayer targetIndex 0 (Merkle.padded currentLayer)
        climbLayers fuel nextLayer (targetIndex / 2) (siblings ++ found)
      else (currentLayer, siblings)

def generateProof (recordIndex : Int) (records : List Record) :
    Except CryptoError MerkleProof := do
  require (¬ (records.length = 0 ∨ recordIndex < 0 ∨ (records.length : Int) ≤ recordIndex))
    ⟨.invalidHashFormat, "recordIndex " ++ toString recordIndex ++
      " out of bounds for records length " ++ toString records.length ++ "."⟩
  let leaves ← collect (leafHash F) records
  let recordHash := leaves.getD recordIndex.toNat ""
  if leaves.length = 1 then return ⟨recordIndex, recordHash, [], recordHash⟩
  else
    let (layer, siblings) := climbLayers leaves.length leaves recordIndex.toNat []
    return ⟨recordIndex, recordHash, siblings, layer.headD ""⟩

/-- What a reader of a proof computes. -/
def foldSiblings (recordHash : String) (siblings : List MerkleProofNode) : String :=
  siblings.foldl (fun current node => match node.position with
    | .left => hashPair node.hash current
    | .right => hashPair current node.hash) recordHash

/-! ## The loop -/

/-- A sibling as a proof spells it. -/
def proofNode (sibling : Merkle.Sibling String) : MerkleProofNode :=
  ⟨sibling.node, if sibling.onLeft then .left else .right⟩

theorem foldSiblings_map (recordHash : String) (path : List (Merkle.Sibling String)) :
    foldSiblings recordHash (path.map proofNode) = Merkle.ascend hashPair recordHash path := by
  rw [foldSiblings, Merkle.ascend, List.foldl_map]
  congr 1
  funext current sibling
  rw [proofNode, Merkle.Sibling.merge]
  cases sibling.onLeft <;> rfl

theorem combineLayer_cons_cons (targetIndex i : Nat) (left right : String) (rest : List String) :
    combineLayer targetIndex i (left :: right :: rest) =
      (hashPair left right :: (combineLayer targetIndex (i + 2) rest).1,
        if i = (if targetIndex % 2 = 0 then targetIndex else targetIndex - 1) then
          (if targetIndex % 2 = 0 then ⟨right, .right⟩ else ⟨left, .left⟩) ::
            (combineLayer targetIndex (i + 2) rest).2
        else (combineLayer targetIndex (i + 2) rest).2) := rfl

/-- A layer without a single last node goes up as its pairs do. -/
theorem combineLayer_fst (targetIndex i : Nat) (layer : List String)
    (heven : layer.length % 2 = 0) :
    (combineLayer targetIndex i layer).1 = Merkle.pairUp hashPair layer := by
  fun_induction Merkle.pairUp hashPair layer generalizing i with
  | case1 left right rest ih =>
      simp only [List.length_cons] at heven
      rw [combineLayer_cons_cons, ih (i + 2) (by omega)]
  | case2 last => cases heven
  | case3 => rfl

/-- Behind the pair of the target nothing is recorded. -/
theorem combineLayer_behind {targetIndex i : Nat} (layer : List String) (hi : i % 2 = 0)
    (hbehind : targetIndex < i) : (combineLayer targetIndex i layer).2 = [] := by
  fun_induction Merkle.pairUp hashPair layer generalizing i with
  | case1 left right rest ih =>
      have hpair : ¬ i = (if targetIndex % 2 = 0 then targetIndex else targetIndex - 1) := by
        split <;> omega
      rw [combineLayer_cons_cons, if_neg hpair]
      exact ih (by omega) (by omega)
  | case2 last => rfl
  | case3 => rfl

/-- The one sibling that a layer gives is that of the target. -/
theorem combineLayer_snd {i offset : Nat} (layer : List String) (hi : i % 2 = 0)
    (heven : layer.length % 2 = 0) :
    (combineLayer (i + offset) i layer).2 =
      (Merkle.siblingAt layer offset).toList.map proofNode := by
  fun_induction Merkle.pairUp hashPair layer generalizing i offset with
  | case1 left right rest ih =>
      simp only [List.length_cons] at heven
      rw [combineLayer_cons_cons]
      obtain _ | _ | offset := offset
      · rw [if_pos (by rw [Nat.add_zero, if_pos hi]), Nat.add_zero, if_pos hi,
          combineLayer_behind rest (by omega) (by omega)]
        rfl
      · have hodd : ¬ (i + 1) % 2 = 0 := by omega
        rw [Nat.zero_add, if_pos (by rw [if_neg hodd, Nat.add_sub_cancel]), if_neg hodd,
          combineLayer_behind rest (by omega) (by omega)]
        rfl
      · have hindex : i + (offset + 2) = i + 2 + offset := by omega
        have hpair : ¬ i = (if (i + 2 + offset) % 2 = 0 then i + 2 + offset
            else i + 2 + offset - 1) := by
          split <;> omega
        rw [Nat.add_assoc offset, hindex, if_neg hpair, Merkle.siblingAt_cons_cons]
        exact ih (by omega) (by omega)
  | case2 last => cases heven
  | case3 => rfl

/-- One turn of the loop. -/
theorem combineLayer_padded {layer : List String} {targetIndex : Nat} {x : String}
    (hx : layer[targetIndex]? = some x) :
    ∃ path : List (Merkle.Sibling String),
      (combineLayer targetIndex 0 (Merkle.padded layer)).2 = path.map proofNode ∧
        (combineLayer targetIndex 0 (Merkle.padded layer)).1[targetIndex / 2]? =
          some (Merkle.ascend hashPair x path) := by
  have heven : (Merkle.padded layer).length % 2 = 0 := by
    rw [Merkle.length_padded]
    omega
  have hsibling := @combineLayer_snd 0 targetIndex _ rfl heven
  rw [Nat.zero_add] at hsibling
  refine ⟨_, hsibling, ?_⟩
  rw [combineLayer_fst targetIndex 0 _ heven]
  exact Merkle.getElem?_pairUp hashPair (Merkle.getElem?_padded hx)

theorem length_combineLayer (layer : List String) (targetIndex : Nat) :
    (combineLayer targetIndex 0 (Merkle.padded layer)).1.length = (layer.length + 1) / 2 := by
  have hlength := Merkle.length_padded layer
  rw [combineLayer_fst targetIndex 0 _ (by omega), Merkle.length_pairUp]
  omega

/-- The layers do not depend on the target. -/
theorem climbLayers_fst (fuel : Nat) (layer : List String) (target target' : Nat)
    (siblings siblings' : List MerkleProofNode) :
    (climbLayers fuel layer target siblings).1 = (climbLayers fuel layer target' siblings').1 := by
  induction fuel generalizing layer target target' siblings siblings' with
  | zero => rfl
  | succ fuel ih =>
      have heven : (Merkle.padded layer).length % 2 = 0 := by
        rw [Merkle.length_padded]
        omega
      have hlayer : (combineLayer target 0 (Merkle.padded layer)).1 =
          (combineLayer target' 0 (Merkle.padded layer)).1 := by
        rw [combineLayer_fst target 0 _ heven, combineLayer_fst target' 0 _ heven]
      simp only [climbLayers]
      split
      next =>
        rw [hlayer]
        exact ih _ _ _ _ _
      next => rfl

theorem eq_singleton_of_getElem? {layer : List String} {i : Nat} {x : String}
    (hle : layer.length ≤ 1) (hx : layer[i]? = some x) : layer = [x] := by
  obtain ⟨hi, -⟩ := List.getElem?_eq_some_iff.mp hx
  obtain ⟨node, rfl⟩ := List.length_eq_one_iff.mp (show layer.length = 1 by omega)
  rw [List.mem_singleton.mp (List.mem_of_getElem? hx)]

/-- The siblings that the loop collects lead from the target to the one node that is left. -/
theorem climbLayers_spec (fuel : Nat) {layer : List String} {targetIndex : Nat} {x : String}
    (hfuel : layer.length ≤ fuel + 1) (hx : layer[targetIndex]? = some x)
    (siblings : List MerkleProofNode) :
    ∃ path : List (Merkle.Sibling String),
      climbLayers fuel layer targetIndex siblings =
        ([Merkle.ascend hashPair x path], siblings ++ path.map proofNode) := by
  induction fuel generalizing layer targetIndex x siblings with
  | zero =>
      obtain rfl := eq_singleton_of_getElem? (by omega) hx
      exact ⟨[], by simp [climbLayers, Merkle.ascend]⟩
  | succ fuel ih =>
      simp only [climbLayers]
      split
      next hlong =>
        obtain ⟨path, hsibling, hup⟩ := combineLayer_padded hx
        have hlength := length_combineLayer layer targetIndex
        obtain ⟨path', hpath'⟩ := ih (by omega) hup (siblings ++ path.map proofNode)
        refine ⟨path ++ path', ?_⟩
        rw [hsibling, hpath', Merkle.ascend_append, List.map_append, List.append_assoc]
      next hshort =>
        obtain rfl := eq_singleton_of_getElem? (by omega) hx
        exact ⟨[], by simp [Merkle.ascend]⟩

/-! ## Records -/

/-- A `prevHash` that is read, and every other field serialisable. -/
structure WellFormed (record : Record) : Prop where
  prevHash : ∃ prevHash, normalizePrevHash record = .ok prevHash
  serializable : ∀ name value, name ≠ "prevHash" → record.get? name = some value →
    ∃ json, value = .json json

section Records

variable {F} {record : Record}

theorem isHexChar_toLower {c : Char} (hc : isHexChar c = true) : isHexChar c.toLower = true := by
  have hdigit : UuidText.isHexDigit c = true := by
    simpa [isHexChar, UuidText.isHexDigit, isLowerHex] using hc
  have hlower := UuidText.isLowerHex_toLower hdigit
  rw [isLowerHex] at hlower
  rw [isHexChar, hlower, Bool.true_or]

/-- A hex text and the same text in lower case have one length of bytes. -/
theorem fromHex_toLowerCase {text : String} {bytes : List UInt8}
    (hread : fromHex text.toList = some bytes) :
    ∃ bytes', fromHex (toLowerCase text).toList = some bytes' ∧
      bytes'.length = bytes.length := by
  unfold fromHex at hread
  split at hread
  next hhex =>
    obtain rfl := Option.some.inj hread
    have hall : (text.toList.map Char.toLower).all isHexChar = true := by
      rw [List.all_map, List.all_eq_true]
      exact fun c hc => isHexChar_toLower (List.all_eq_true.mp hhex.2 c hc)
    refine ⟨hexPairs (text.toList.map Char.toLower), ?_, ?_⟩
    · rw [toLowerCase, String.toList_ofList, fromHex, if_pos ⟨by simpa using hhex.1, hall⟩]
    · rw [length_hexPairs, length_hexPairs, List.length_map]
  next => cases hread

/-- What is normalised is a hex text of 32 bytes. -/
theorem normalizeText_hex {text normal : String} (h : normalizeText text = .ok normal) :
    ∃ bytes, fromHex normal.toList = some bytes ∧ bytes.length = 32 := by
  unfold normalizeText at h
  split at h
  next =>
    simp only [bind_eq_ok, exists_unit, require_eq_ok, pure_eq_ok, orThrow_eq_ok] at h
    obtain ⟨bytes, -, hlength, rfl⟩ := h
    exact ⟨bytes, fromHex_toHex bytes, hlength⟩
  next =>
    simp only [bind_eq_ok, exists_unit, require_eq_ok, pure_eq_ok, orThrow_eq_ok] at h
    obtain ⟨bytes, hbytes, hlength, rfl⟩ := h
    obtain ⟨bytes', hbytes', hlength'⟩ := fromHex_toLowerCase hbytes
    exact ⟨bytes', hbytes', hlength'.trans hlength⟩

/-- The copy with the normalised `prevHash` is read strictly. -/
theorem getPrevHashStrict_copy {prevHash : Option String}
    (h : normalizePrevHash record = .ok prevHash) :
    getPrevHashStrict (record.set "prevHash" (prevHashValue prevHash)) = .ok prevHash := by
  cases prevHash with
  | none =>
      rw [getPrevHashStrict, readPrevHash, OrderedMap.get?_set, if_pos rfl]
      rfl
  | some normal =>
      simp only [normalizePrevHash, bind_eq_ok] at h
      obtain ⟨found, -, hfound⟩ := h
      cases found with
      | none => simp at hfound
      | some text =>
          simp only [bind_eq_ok, pure_eq_ok, Option.some.injEq] at hfound
          obtain ⟨written, hnormal, hsame⟩ := hfound
          obtain rfl : written = normal := hsame
          obtain ⟨bytes, hbytes, hlength⟩ := normalizeText_hex hnormal
          have hne : written ≠ "" := by
            rintro rfl
            obtain rfl := Option.some.inj (hbytes.symm.trans (show fromHex [] = some [] from rfl))
            cases hlength
          have hread : readPrevHash (record.set "prevHash" (prevHashValue (some written))) =
              .ok (some written) := by
            rw [readPrevHash, OrderedMap.get?_set, if_pos rfl]
            simp only [prevHashValue, bind_eq_ok, exists_unit, require_eq_ok, pure_eq_ok]
            exact ⟨hne, trivial⟩
          simp only [getPrevHashStrict, bind_eq_ok]
          refine ⟨_, hread, ?_⟩
          simp only [bind_eq_ok, exists_unit, require_eq_ok, pure_eq_ok, orThrow_eq_ok]
          exact ⟨bytes, hbytes, hlength, trivial⟩

theorem jsonMembers_of_forall {fields : List (String × FieldValue)}
    (h : ∀ name value, (name, value) ∈ fields → ∃ json, value = .json json) :
    ∃ members, jsonMembers fields = .ok members := by
  induction fields with
  | nil => exact ⟨[], rfl⟩
  | cons field fields ih =>
      obtain ⟨name, value⟩ := field
      obtain ⟨json, rfl⟩ := h name value List.mem_cons_self
      obtain ⟨members, hmembers⟩ := ih fun name value hmem =>
        h name value (List.mem_cons_of_mem _ hmem)
      refine ⟨(name, json) :: members, ?_⟩
      simp only [jsonMembers, bind_eq_ok, pure_eq_ok]
      exact ⟨json, rfl, members, hmembers, rfl⟩

/-- The leaf of a well-formed record. -/
theorem WellFormed.exists_leafHash (h : WellFormed record) (F : NumberFormat) :
    ∃ hash, leafHash F record = .ok hash := by
  obtain ⟨prevHash, hprev⟩ := h.prevHash
  obtain ⟨members, hmembers⟩ : ∃ members,
      jsonMembers (record.set "prevHash" (prevHashValue prevHash)).entries = .ok members := by
    refine jsonMembers_of_forall fun name value hmem => ?_
    rw [OrderedMap.mem_entries_iff, OrderedMap.get?_set] at hmem
    split at hmem
    next =>
      obtain rfl := Option.some.inj hmem
      cases prevHash <;> exact ⟨_, rfl⟩
    next hother => exact h.serializable name value (Ne.symm hother) hmem
  refine ⟨toHex (Sha256.sha256 (utf8 (prevHash.getD "") ++
    utf8 (Json.canonicalize F (.obj members)))), ?_⟩
  simp only [leafHash, computeRecordHash, canonicalizeRecord, bind_eq_ok, pure_eq_ok]
  exact ⟨prevHash, hprev, prevHash, getPrevHashStrict_copy hprev, _, ⟨members, hmembers, rfl⟩, rfl⟩

/-- The hash of a leaf is the one that the traversal of `verify` goes on with. -/
theorem traverse_leafHash {hash : String} {prevHash : Option String}
    (hleaf : leafHash F record = .ok hash) (hprev : normalizePrevHash record = .ok prevHash)
    (index : Nat) (rest : List Record) :
    traverse F prevHash index (record :: rest) = traverse F (some hash) (index + 1) rest := by
  simp only [leafHash, bind_eq_ok] at hleaf
  obtain ⟨normalized, hnormalized, hhash⟩ := hleaf
  obtain rfl := Except.ok.inj (hprev.symm.trans hnormalized)
  simp only [traverse, hprev, bind, Except.bind, ne_eq, not_true, if_false, hhash]

end Records

/-! ## Proofs -/

theorem exists_leaves {records : List Record} (hrecords : ∀ record ∈ records, WellFormed record) :
    ∃ leaves, collect (leafHash F) records = .ok leaves := by
  induction records with
  | nil => exact ⟨[], rfl⟩
  | cons record records ih =>
      obtain ⟨hrecord, hrest⟩ := List.forall_mem_cons.mp hrecords
      obtain ⟨hash, hhash⟩ := hrecord.exists_leafHash F
      obtain ⟨leaves, hleaves⟩ := ih hrest
      refine ⟨hash :: leaves, ?_⟩
      simp only [collect, bind_eq_ok, pure_eq_ok]
      exact ⟨hash, hhash, leaves, hleaves, rfl⟩

/-- What is generated for a record in range. -/
theorem generateProof_eq_ok {records : List Record} {leaves : List String} {i : Nat} {hash : String}
    (hleaves : collect (leafHash F) records = .ok leaves) (hhash : leaves[i]? = some hash) :
    ∃ siblings, generateProof F i records =
        .ok ⟨i, hash, siblings, (climbLayers leaves.length leaves 0 []).1.headD ""⟩ ∧
      foldSiblings hash siblings = (climbLayers leaves.length leaves 0 []).1.headD "" := by
  have hlength := (collect_eq_ok.mp hleaves).length_eq
  obtain ⟨hi, -⟩ := List.getElem?_eq_some_iff.mp hhash
  obtain ⟨path, hpath⟩ := climbLayers_spec leaves.length (Nat.le_succ _) hhash []
  have hroot : (climbLayers leaves.length leaves 0 []).1 =
      [Merkle.ascend hashPair hash path] := by
    rw [climbLayers_fst leaves.length leaves 0 i [] [], hpath]
  have hget : leaves.getD i "" = hash := by
    rw [List.getD_eq_getElem?_getD, hhash]
    rfl
  have hrange : ¬ (records.length = 0 ∨ (i : Int) < 0 ∨ (records.length : Int) ≤ i) := by omega
  rw [hroot, List.headD_cons]
  by_cases hsingle : leaves.length = 1
  · obtain rfl := eq_singleton_of_getElem? (by omega) hhash
    have hempty : path = [] := by
      have hsiblings := congrArg Prod.snd hpath
      simpa [climbLayers] using hsiblings.symm
    subst hempty
    refine ⟨[], ?_, rfl⟩
    simp only [generateProof, bind_eq_ok, exists_unit, require_eq_ok]
    refine ⟨hrange, _, hleaves, ?_⟩
    rw [if_pos hsingle, Int.toNat_natCast, hget]
    rfl
  · refine ⟨path.map proofNode, ?_, foldSiblings_map hash path⟩
    simp only [generateProof, bind_eq_ok, exists_unit, require_eq_ok]
    refine ⟨hrange, _, hleaves, ?_⟩
    rw [if_neg hsingle, Int.toNat_natCast, hget, hpath]
    rfl

/-- Every record of a list has a proof; all proofs lead to one root, and each starts at the hash
that `verify` goes on with behind its record. -/
theorem generateProof_complete (records : List Record)
    (hrecords : ∀ record ∈ records, WellFormed record) :
    ∃ root, ∀ (i : Nat) (record : Record), records[i]? = some record →
      ∃ proof, generateProof F i records = .ok proof ∧ proof.root = root ∧
        foldSiblings proof.recordHash proof.siblings = root ∧
        ∀ prevHash index rest, normalizePrevHash record = .ok prevHash →
          traverse F prevHash index (record :: rest) =
            traverse F (some proof.recordHash) (index + 1) rest := by
  obtain ⟨leaves, hleaves⟩ := exists_leaves F hrecords
  have hforall := collect_eq_ok.mp hleaves
  refine ⟨(climbLayers leaves.length leaves 0 []).1.headD "", fun i record hrecord => ?_⟩
  obtain ⟨hi, rfl⟩ := List.getElem?_eq_some_iff.mp hrecord
  have hleaf := hforall.get hi (hforall.length_eq ▸ hi)
  obtain ⟨siblings, hproof, hfold⟩ := generateProof_eq_ok F hleaves
    (List.getElem?_eq_getElem (hforall.length_eq ▸ hi))
  exact ⟨_, hproof, rfl, hfold, fun prevHash index rest hprev =>
    traverse_leafHash hleaf hprev index rest⟩

namespace Unlinked

theorem wellFormed_genesis : WellFormed genesis := by
  refine ⟨⟨none, rfl⟩, fun name value _ hvalue => ?_⟩
  rw [genesis, OrderedMap.get?_set] at hvalue
  split at hvalue
  next =>
    obtain rfl := Option.some.inj hvalue
    exact ⟨_, rfl⟩
  next => cases hvalue

/-- Three records: the last one is doubled. -/
theorem generateProof_complete_three :
    ∃ root, ∀ (i : Nat) (record : Record), [genesis, genesis, genesis][i]? = some record →
      ∃ proof, generateProof NumberFormat.decimal i [genesis, genesis, genesis] = .ok proof ∧
        proof.root = root ∧ foldSiblings proof.recordHash proof.siblings = root ∧
        ∀ prevHash index rest, normalizePrevHash record = .ok prevHash →
          traverse NumberFormat.decimal prevHash index (record :: rest) =
            traverse NumberFormat.decimal (some proof.recordHash) (index + 1) rest :=
  generateProof_complete NumberFormat.decimal _ (by
    intro record hrecord
    simp only [List.mem_cons, List.not_mem_nil, or_false, or_self] at hrecord
    subst hrecord
    exact wellFormed_genesis)

end Unlinked

end Coivitas.Crypto
