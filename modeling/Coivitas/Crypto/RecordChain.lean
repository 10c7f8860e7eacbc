import Coivitas.Crypto.HashChainBuilder
import Coivitas.Crypto.Sha256
import Coivitas.Crypto.Signing

/-! # Chains of records

The model of `packages/crypto/src/hash-chain.ts`. `append` hashes a record as
it is given; `verify` first writes the normalised `prevHash` into a copy of the
record and hashes the copy. The two agree on every record that has the field.
-/

namespace Coivitas.Crypto

open Foundation

/-- A field of a record: a JSON value, `undefined`, or a value the serialisation guard refuses
with a message. -/
inductive FieldValue where
  | json (value : Json)
  | undefined
  | unserializable (message : String)

/-- A plain object. -/
abbrev Record := OrderedMap String FieldValue

/-! ## The `prevHash` of a record -/

def notStringOrNull : CryptoError := ⟨.hashChainBroken, "prevHash must be a string or null."⟩

def emptyPrevHash : CryptoError :=
  ⟨.invalidHashFormat, "prevHash must not be an empty string; use null for the genesis record."⟩

def badHexString : CryptoError :=
  ⟨.invalidHexString,
    "Hex string must have an even length and contain only hexadecimal characters."⟩

def notThirtyTwoBytes : CryptoError := ⟨.invalidHashFormat, "prevHash must decode to 32 bytes."⟩

/-- The two texts of `fromBase64Url`; the length is checked after the alphabet. -/
def badBase64Url (text : List Char) : CryptoError :=
  let stripped := text.rdropWhile (· == '=')
  if stripped.all base64UrlChars.contains = true ∧ text.length - stripped.length ≤ 2 then
    ⟨.encodingError,
      "Invalid base64url string: impossible length (length mod 4 must not be 1)."⟩
  else ⟨.encodingError, "Invalid base64url string: contains illegal characters."⟩

def orThrow {α : Type} (found : Option α) (error : CryptoError) : Except CryptoError α :=
  match found with
  | none => throw error
  | some value => pure value

/-- `record.prevHash` as null or a text that is not empty. -/
def readPrevHash (record : Record) : Except CryptoError (Option String) :=
  match record.get? "prevHash" with
  | none | some .undefined | some (.json .null) => pure none
  | some (.json (.str text)) => do
      require (text ≠ "") emptyPrevHash
      return some text
  | some _ => throw notStringOrNull

/-- The bytes of a text in the encoding it seems to be in, as a hex text. -/
def normalizeText (text : String) : Except CryptoError String :=
  match detectEncoding text.toList with
  | .base64url => do
      let bytes ← orThrow (fromBase64Url text.toList) (badBase64Url text.toList)
      require (bytes.length = 32)
        ⟨.invalidHashFormat, "prevHash base64url must decode to 32 bytes."⟩
      return toHex bytes
  | .hex => do
      let bytes ← orThrow (fromHex text.toList) badHexString
      require (bytes.length = 32) notThirtyTwoBytes
      return toLowerCase text

def normalizePrevHash (record : Record) : Except CryptoError (Option String) := do
  match ← readPrevHash record with
  | none => return none
  | some text => do
      let hex ← normalizeText text
      return some hex

/-- Hex or null only, and the text is kept as it is. -/
def getPrevHashStrict (record : Record) : Except CryptoError (Option String) := do
  match ← readPrevHash record with
  | none => return none
  | some text => do
      let bytes ← orThrow (fromHex text.toList) badHexString
      require (bytes.length = 32) notThirtyTwoBytes
      return some text

/-! ## The hash of a record -/

def assertSerializable (name : String) : FieldValue → Except CryptoError Json
  | .json value => pure value
  | .undefined => throw ⟨.serializationFailed, "Unsupported value at $." ++ name ++ "."⟩
  | .unserializable message => throw ⟨.serializationFailed, message⟩

/-- The fields of an object all of whose values are serialisable. -/
def jsonMembers : List (String × FieldValue) → Except CryptoError (List (String × Json))
  | [] => pure []
  | (name, value) :: rest => do
      let value ← assertSerializable name value
      let members ← jsonMembers rest
      return (name, value) :: members

variable (F : NumberFormat)

def canonicalizeRecord (record : Record) : Except CryptoError String := do
  let members ← jsonMembers record.entries
  return Json.canonicalize F (.obj members)

def computeRecordHash (record : Record) : Except CryptoError String := do
  let prevHash ← getPrevHashStrict record
  let payload ← canonicalizeRecord F record
  return toHex (Sha256.sha256 (utf8 (prevHash.getD "") ++ utf8 payload))

/-! ## Appending and verifying -/

structure HashChain where
  headHash : Option String
  length : Nat
deriving DecidableEq

/-- `new HashChain()`. -/
def HashChain.fresh : HashChain := ⟨none, 0⟩

def HashChain.append (chain : HashChain) (record : Record) :
    Except CryptoError (String × HashChain) := do
  let prevHash ← getPrevHashStrict record
  require (prevHash = chain.headHash)
    ⟨.hashChainBroken, "Record prevHash does not match the current chain head."⟩
  let nextHash ← computeRecordHash F record
  return (nextHash, ⟨some nextHash, chain.length + 1⟩)

/-- Successive calls of `append` on one chain. -/
def HashChain.appendRecords (chain : HashChain) : List Record → Except CryptoError HashChain
  | [] => pure chain
  | record :: records => do
      let (_, chain) ← chain.append F record
      chain.appendRecords records

inductive HashChainVerifyResult where
  | valid (chainLength : Nat)
  | broken (chainLength brokenAtIndex : Nat) (expectedHash actualHash : Option String)
deriving DecidableEq

/-- Where the loop of `verify` ends: at a record that does not link, or behind the last record
with the hash that the next one would have to name. -/
inductive Traversal where
  | stopped (result : HashChainVerifyResult)
  | passed (expectedPrevHash : Option String)
deriving DecidableEq

def prevHashValue : Option String → FieldValue
  | none => .json .null
  | some text => .json (.str text)

def traverse (expectedPrevHash : Option String) (index : Nat) :
    List Record → Except CryptoError Traversal
  | [] => pure (.passed expectedPrevHash)
  | record :: records => do
      let actualPrevHash ← normalizePrevHash record
      if actualPrevHash ≠ expectedPrevHash then
        return .stopped (.broken index index expectedPrevHash actualPrevHash)
      else do
        let normalizedRecord := record.set "prevHash" (prevHashValue actualPrevHash)
        let nextHash ← computeRecordHash F normalizedRecord
        traverse (some nextHash) (index + 1) records

/-- The chain that `verify` is called on is not read. -/
def HashChain.verify (records : List Record) : Except CryptoError HashChainVerifyResult := do
  match ← traverse F none 0 records with
  | .stopped result => return result
  | .passed _ => return .valid records.length

/-! ## One record -/

section Records

variable {F} {record : Record} {text : String}

@[simp] theorem orThrow_eq_ok {α : Type} {found : Option α} {error : CryptoError} {value : α} :
    orThrow found error = .ok value ↔ found = some value := by
  cases found <;> simp [orThrow]

theorem getPrevHashStrict_eq_none (h : getPrevHashStrict record = .ok none) :
    readPrevHash record = .ok none := by
  simp only [getPrevHashStrict, bind_eq_ok] at h
  obtain ⟨found, hread, hfound⟩ := h
  cases found with
  | none => exact hread
  | some text =>
      simp only [bind_eq_ok, pure_eq_ok, reduceCtorEq, and_false, exists_false] at hfound

theorem getPrevHashStrict_eq_some (h : getPrevHashStrict record = .ok (some text)) :
    readPrevHash record = .ok (some text) ∧
      ∃ bytes, fromHex text.toList = some bytes ∧ bytes.length = 32 := by
  simp only [getPrevHashStrict, bind_eq_ok] at h
  obtain ⟨found, hread, hfound⟩ := h
  cases found with
  | none => simp at hfound
  | some found =>
      simp only [bind_eq_ok, exists_unit, require_eq_ok, orThrow_eq_ok, pure_eq_ok,
        Option.some.injEq] at hfound
      obtain ⟨bytes, hbytes, hlength, rfl⟩ := hfound
      exact ⟨hread, bytes, hbytes, hlength⟩

/-- The field holds the text that is read. -/
theorem get?_of_readPrevHash (h : readPrevHash record = .ok (some text)) :
    record.get? "prevHash" = some (prevHashValue (some text)) := by
  unfold readPrevHash at h
  split at h
  case h_4 found hfound =>
    simp only [bind_eq_ok, exists_unit, pure_eq_ok, Option.some.injEq] at h
    obtain ⟨-, rfl⟩ := h
    exact hfound
  all_goals simp at h

/-- A hex text in lower case is kept. -/
theorem normalizeText_eq_ok {bytes : List UInt8} (hhex : fromHex text.toList = some bytes)
    (hlength : bytes.length = 32) (hlower : toLowerCase text = text) :
    normalizeText text = .ok text := by
  have hencoding : detectEncoding text.toList = .hex := by
    unfold fromHex at hhex
    split at hhex
    next hdigits => exact if_pos hdigits
    next => cases hhex
  unfold normalizeText
  rw [hencoding]
  simp only [bind_eq_ok, exists_unit, require_eq_ok, pure_eq_ok, orThrow_eq_ok]
  exact ⟨bytes, hhex, hlength, hlower⟩

/-- What `append` reads strictly, `verify` normalises to the same text, and a record that names
a head is not changed by writing the text back. -/
theorem normalize_of_strict (hlower : toLowerCase text = text)
    (h : getPrevHashStrict record = .ok (some text)) :
    normalizePrevHash record = .ok (some text) ∧
      record.set "prevHash" (prevHashValue (some text)) = record := by
  obtain ⟨hread, bytes, hhex, hlength⟩ := getPrevHashStrict_eq_some h
  refine ⟨?_, OrderedMap.set_eq_self (get?_of_readPrevHash hread)⟩
  simp only [normalizePrevHash, bind_eq_ok]
  refine ⟨_, hread, ?_⟩
  simp only [bind_eq_ok, pure_eq_ok]
  exact ⟨text, normalizeText_eq_ok hhex hlength hlower, rfl⟩

theorem normalize_of_strict_none (h : getPrevHashStrict record = .ok none) :
    normalizePrevHash record = .ok none := by
  simp only [normalizePrevHash, bind_eq_ok]
  exact ⟨_, getPrevHashStrict_eq_none h, rfl⟩

theorem jsonMembers_mem {fields : List (String × FieldValue)} {members : List (String × Json)}
    (h : jsonMembers fields = .ok members) {name : String} {value : FieldValue}
    (hfield : (name, value) ∈ fields) : ∃ json, value = .json json := by
  induction fields generalizing members with
  | nil => simp at hfield
  | cons field rest ih =>
      obtain ⟨name', value'⟩ := field
      simp only [jsonMembers, bind_eq_ok, pure_eq_ok] at h
      obtain ⟨json, hjson, members, hrest, -⟩ := h
      rcases List.mem_cons.mp hfield with heq | hmem
      · obtain ⟨rfl, rfl⟩ := Prod.mk.inj heq
        cases value with
        | json value => exact ⟨value, rfl⟩
        | undefined => simp [assertSerializable] at hjson
        | unserializable message => simp [assertSerializable] at hjson
      · exact ih hrest hmem

/-- A genesis record that `append` hashes and that has the field holds null there. -/
theorem get?_genesis {hash : String} (hhash : computeRecordHash F record = .ok hash)
    (hread : readPrevHash record = .ok none) (hfield : record.has "prevHash" = true) :
    record.get? "prevHash" = some (prevHashValue none) := by
  obtain ⟨value, hvalue⟩ := Option.isSome_iff_exists.mp hfield
  simp only [computeRecordHash, canonicalizeRecord, bind_eq_ok] at hhash
  obtain ⟨-, -, -, ⟨members, hmembers, -⟩, -⟩ := hhash
  obtain ⟨json, rfl⟩ := jsonMembers_mem hmembers ((record.mem_entries_iff _ _).mpr hvalue)
  rw [hvalue]
  unfold readPrevHash at hread
  rw [hvalue] at hread
  cases json with
  | null => rfl
  | str text =>
      simp only [bind_eq_ok, pure_eq_ok, reduceCtorEq, and_false, exists_false] at hread
  | _ => simp at hread

theorem map_fst_jsonMembers {fields : List (String × FieldValue)} {members : List (String × Json)}
    (h : jsonMembers fields = .ok members) : members.map Prod.fst = fields.map Prod.fst := by
  induction fields generalizing members with
  | nil =>
      obtain rfl := pure_eq_ok.mp h
      rfl
  | cons field rest ih =>
      simp only [jsonMembers, bind_eq_ok, pure_eq_ok] at h
      obtain ⟨json, -, members, hrest, rfl⟩ := h
      rw [List.map_cons, List.map_cons, ih hrest]

/-- Writing a serialisable value keeps an object serialisable. -/
theorem jsonMembers_setList {fields : List (String × FieldValue)} {members : List (String × Json)}
    (h : jsonMembers fields = .ok members) (name : String) (value : Json) :
    ∃ members', jsonMembers (OrderedMap.setList name (.json value) fields) = .ok members' := by
  induction fields generalizing members with
  | nil => exact ⟨_, rfl⟩
  | cons field rest ih =>
      obtain ⟨name', value'⟩ := field
      simp only [jsonMembers, bind_eq_ok, pure_eq_ok] at h
      obtain ⟨json, hjson, members, hrest, -⟩ := h
      by_cases hname : name' = name
      · rw [OrderedMap.setList, if_pos hname]
        simp only [jsonMembers, bind_eq_ok, pure_eq_ok]
        exact ⟨_, value, rfl, members, hrest, rfl⟩
      · obtain ⟨members', hmembers'⟩ := ih hrest
        rw [OrderedMap.setList, if_neg hname]
        simp only [jsonMembers, bind_eq_ok, pure_eq_ok]
        exact ⟨_, json, hjson, members', hmembers', rfl⟩

/-- The copy of a genesis record with a null `prevHash` is hashed over its text alone. -/
theorem computeRecordHash_copy {hash : String} (h : computeRecordHash F record = .ok hash) :
    ∃ text, canonicalizeRecord F (record.set "prevHash" (prevHashValue none)) = .ok text ∧
      computeRecordHash F (record.set "prevHash" (prevHashValue none)) =
        .ok (toHex (Sha256.sha256 (utf8 text))) := by
  simp only [computeRecordHash, canonicalizeRecord, bind_eq_ok] at h
  obtain ⟨-, -, -, ⟨members, hmembers, -⟩, -⟩ := h
  obtain ⟨members', hmembers'⟩ := jsonMembers_setList hmembers "prevHash" .null
  have htext : canonicalizeRecord F (record.set "prevHash" (prevHashValue none)) =
      .ok (Json.canonicalize F (.obj members')) := by
    simp only [canonicalizeRecord, bind_eq_ok, pure_eq_ok]
    exact ⟨members', hmembers', rfl⟩
  have hstrict : getPrevHashStrict (record.set "prevHash" (prevHashValue none)) = .ok none := by
    rw [getPrevHashStrict, readPrevHash, OrderedMap.get?_set, if_pos rfl]
    rfl
  refine ⟨_, htext, ?_⟩
  simp only [computeRecordHash, bind_eq_ok, pure_eq_ok]
  exact ⟨none, hstrict, _, htext, rfl⟩

theorem computeRecordHash_genesis {hash : String} (hstrict : getPrevHashStrict record = .ok none)
    (h : computeRecordHash F record = .ok hash) :
    ∃ text, canonicalizeRecord F record = .ok text ∧ hash = toHex (Sha256.sha256 (utf8 text)) := by
  simp only [computeRecordHash, bind_eq_ok, pure_eq_ok] at h
  obtain ⟨prevHash, hprev, text, htext, rfl⟩ := h
  obtain rfl := Except.ok.inj (hstrict.symm.trans hprev)
  exact ⟨text, htext, rfl⟩

/-- A record without the field and its copy with null there have two texts. -/
theorem canonicalizeRecord_copy_ne {text text' : String}
    (hfield : record.get? "prevHash" = none) (htext : canonicalizeRecord F record = .ok text)
    (htext' : canonicalizeRecord F (record.set "prevHash" (prevHashValue none)) = .ok text') :
    text ≠ text' := by
  simp only [canonicalizeRecord, bind_eq_ok, pure_eq_ok] at htext htext'
  obtain ⟨members, hmembers, rfl⟩ := htext
  obtain ⟨members', hmembers', rfl⟩ := htext'
  intro heq
  have hperm := Json.names_perm_of_sortKeys_eq ((Json.canonicalize_eq_iff F).mp heq)
  rw [map_fst_jsonMembers hmembers, map_fst_jsonMembers hmembers'] at hperm
  have hset : (record.set "prevHash" (prevHashValue none)).get? "prevHash" =
      some (prevHashValue none) := by
    rw [OrderedMap.get?_set, if_pos rfl]
  have hmem := List.mem_map_of_mem (f := Prod.fst) ((OrderedMap.mem_entries_iff _ _ _).mpr hset)
  obtain ⟨⟨name, value⟩, hentry, rfl⟩ := List.mem_map.mp (hperm.symm.subset hmem)
  rw [(record.mem_entries_iff _ _).mp hentry] at hfield
  cases hfield

end Records

/-! ## Whole chains -/

/-- The digest of the genesis record is also the digest of its copy with a null `prevHash`. -/
def GenesisCollision (record : Record) : Prop :=
  ∃ text text', canonicalizeRecord F record = .ok text ∧
    canonicalizeRecord F (record.set "prevHash" (prevHashValue none)) = .ok text' ∧
    text ≠ text' ∧ Sha256.sha256 (utf8 text) = Sha256.sha256 (utf8 text')

/-- The first record has a `prevHash` of its own, or hashes as if it had. -/
def GenesisNamesPrevHash (records : List Record) : Prop :=
  ∀ first ∈ records.head?, first.has "prevHash" = true ∨ GenesisCollision F first

section Chains

variable {F} {record : Record} {records : List Record} {chain final : HashChain}

/-- One call of `append`: the record names the head, and its hash is the next head. -/
theorem append_eq_ok {nextHash : String} {next : HashChain}
    (h : chain.append F record = .ok (nextHash, next)) :
    getPrevHashStrict record = .ok chain.headHash ∧ computeRecordHash F record = .ok nextHash ∧
      next = ⟨some nextHash, chain.length + 1⟩ := by
  simp only [HashChain.append, bind_eq_ok, exists_unit, require_eq_ok, pure_eq_ok,
    Prod.mk.injEq] at h
  obtain ⟨prevHash, hprev, rfl, hash, hhash, rfl, rfl⟩ := h
  exact ⟨hprev, hhash, rfl⟩

theorem computeRecordHash_lower {hash : String} (h : computeRecordHash F record = .ok hash) :
    toLowerCase hash = hash := by
  simp only [computeRecordHash, bind_eq_ok, pure_eq_ok] at h
  obtain ⟨-, -, -, -, rfl⟩ := h
  exact toLowerCase_toHex _

/-- A record that names the computed hash of another is read strictly. -/
theorem getPrevHashStrict_named {next : Record} {hash : String}
    (hhash : computeRecordHash F record = .ok hash)
    (hnext : next.get? "prevHash" = some (.json (.str hash))) :
    getPrevHashStrict next = .ok (some hash) := by
  simp only [computeRecordHash, bind_eq_ok, pure_eq_ok] at hhash
  obtain ⟨prevHash, -, text, -, rfl⟩ := hhash
  have hlength := Sha256.length_sha256 (utf8 (prevHash.getD "") ++ utf8 text)
  generalize Sha256.sha256 (utf8 (prevHash.getD "") ++ utf8 text) = bytes at hnext hlength ⊢
  have hhex := fromHex_toHex bytes
  have hne : toHex bytes ≠ "" := by
    intro hempty
    rw [hempty] at hhex
    obtain rfl := Option.some.inj hhex
    cases hlength
  have hread : readPrevHash next = .ok (some (toHex bytes)) := by
    rw [readPrevHash, hnext]
    simp only [bind_eq_ok, exists_unit, require_eq_ok, pure_eq_ok]
    exact ⟨hne, trivial⟩
  simp only [getPrevHashStrict, bind_eq_ok]
  refine ⟨_, hread, ?_⟩
  simp only [bind_eq_ok, orThrow_eq_ok, require_eq_ok, exists_unit, pure_eq_ok]
  exact ⟨_, hhex, hlength, trivial⟩

/-- Behind a head, `verify` computes the hashes that `append` computed. -/
theorem traverse_appended {head : String} (index : Nat) (hlower : toLowerCase head = head)
    (hhead : chain.headHash = some head) (h : chain.appendRecords F records = .ok final) :
    traverse F (some head) index records = .ok (.passed final.headHash) := by
  induction records generalizing chain head index with
  | nil =>
      simp only [HashChain.appendRecords, pure_eq_ok] at h
      rw [← h, hhead]
      rfl
  | cons record records ih =>
      simp only [HashChain.appendRecords, bind_eq_ok] at h
      obtain ⟨⟨nextHash, next⟩, happend, hrest⟩ := h
      obtain ⟨hstrict, hhash, rfl⟩ := append_eq_ok happend
      rw [hhead] at hstrict
      obtain ⟨hnormal, hcopy⟩ := normalize_of_strict hlower hstrict
      simp only [traverse, bind_eq_ok]
      refine ⟨_, hnormal, ?_⟩
      rw [if_neg (not_not_intro rfl), hcopy]
      simp only [bind_eq_ok]
      exact ⟨_, hhash, ih _ (computeRecordHash_lower hhash) rfl hrest⟩

/-- Behind another head than the chain has, `verify` does not end at the last head. -/
theorem traverse_other_head {head other : String} (index : Nat) (hlower : toLowerCase head = head)
    (hother : other ≠ head) (hhead : chain.headHash = some head)
    (h : chain.appendRecords F records = .ok final) :
    traverse F (some other) index records ≠ .ok (.passed final.headHash) := by
  cases records with
  | nil =>
      simp only [HashChain.appendRecords, pure_eq_ok] at h
      rw [← h, hhead]
      simpa [traverse, pure, Except.pure] using hother
  | cons record records =>
      simp only [HashChain.appendRecords, bind_eq_ok] at h
      obtain ⟨⟨nextHash, next⟩, happend, -⟩ := h
      obtain ⟨hstrict, -, -⟩ := append_eq_ok happend
      rw [hhead] at hstrict
      have hnormal := (normalize_of_strict hlower hstrict).1
      have hne : some head ≠ some other := fun heq => hother (Option.some.inj heq).symm
      simp only [traverse, ne_eq, bind_eq_ok, hnormal]
      rintro ⟨actual, hactual, hstopped⟩
      obtain rfl := Except.ok.inj hactual
      rw [if_pos hne] at hstopped
      simp at hstopped

/-- The hash of the first record, as `verify` computes it, is the head after `append` exactly
when the first record names its `prevHash`. -/
theorem genesis_hash_iff {hash : String} (hstrict : getPrevHashStrict record = .ok none)
    (hhash : computeRecordHash F record = .ok hash) :
    computeRecordHash F (record.set "prevHash" (prevHashValue none)) = .ok hash ↔
      record.has "prevHash" = true ∨ GenesisCollision F record := by
  obtain ⟨text, htext, rfl⟩ := computeRecordHash_genesis hstrict hhash
  obtain ⟨text', htext', hcopy⟩ := computeRecordHash_copy hhash
  constructor
  · intro hsame
    cases hfield : record.get? "prevHash" with
    | some value =>
        left
        rw [OrderedMap.has, hfield]
        rfl
    | none =>
        right
        refine ⟨text, text', htext, htext', canonicalizeRecord_copy_ne hfield htext htext', ?_⟩
        exact toHex_injective (Except.ok.inj (hsame.symm.trans hcopy))
  · rintro (hfield | ⟨left, right, hleft, hright, -, hdigest⟩)
    · rw [OrderedMap.set_eq_self
        (get?_genesis hhash (getPrevHashStrict_eq_none hstrict) hfield)]
      exact hhash
    · obtain rfl := Except.ok.inj (htext.symm.trans hleft)
      obtain rfl := Except.ok.inj (htext'.symm.trans hright)
      rw [hcopy, hdigest]

theorem verify_of_passed {expectedPrevHash : Option String}
    (h : traverse F none 0 records = .ok (.passed expectedPrevHash)) :
    HashChain.verify F records = .ok (.valid records.length) := by
  simp only [HashChain.verify, bind_eq_ok]
  exact ⟨_, h, rfl⟩

/-- Records that a fresh chain accepts one after the other are verified, with the hash of the
last one equal to the head, exactly when the first of them names its `prevHash`. -/
theorem verify_appended_iff (h : HashChain.fresh.appendRecords F records = .ok final) :
    (HashChain.verify F records = .ok (.valid records.length) ∧
        traverse F none 0 records = .ok (.passed final.headHash)) ↔
      GenesisNamesPrevHash F records := by
  have honly : (HashChain.verify F records = .ok (.valid records.length) ∧
      traverse F none 0 records = .ok (.passed final.headHash)) ↔
        traverse F none 0 records = .ok (.passed final.headHash) :=
    ⟨fun hboth => hboth.2, fun hpassed => ⟨verify_of_passed hpassed, hpassed⟩⟩
  rw [honly]
  cases records with
  | nil =>
      simp only [HashChain.appendRecords, pure_eq_ok] at h
      rw [← h]
      simp [traverse, HashChain.fresh, GenesisNamesPrevHash]
  | cons first records =>
      simp only [HashChain.appendRecords, bind_eq_ok] at h
      obtain ⟨⟨hash, next⟩, happend, hrest⟩ := h
      obtain ⟨hstrict, hhash, rfl⟩ := append_eq_ok happend
      obtain ⟨text, htext, hcopy⟩ := computeRecordHash_copy hhash
      have hlower := computeRecordHash_lower hhash
      have htraverse : traverse F none 0 (first :: records) =
          traverse F (some (toHex (Sha256.sha256 (utf8 text)))) 1 records := by
        simp only [traverse, normalize_of_strict_none hstrict, bind, Except.bind, ne_eq,
          not_true, if_false, hcopy]
      simp only [GenesisNamesPrevHash, List.head?_cons, Option.mem_some, forall_eq']
      rw [← genesis_hash_iff hstrict hhash, htraverse, hcopy, Except.ok.injEq]
      constructor
      · intro hpassed
        by_contra hother
        exact traverse_other_head 1 hlower hother rfl hrest hpassed
      · intro hsame
        rw [hsame]
        exact traverse_appended 1 hlower rfl hrest

end Chains

/-! ## A genesis record without the field -/

namespace Unlinked

def genesis : Record := OrderedMap.empty.set "id" (.json (.str "r-0"))

/-- SHA-256 of `{"id":"r-0"}`. -/
def head : String := "43903c77eda456dbaf60fbcb3d34dbabb5b50f65e479de3a98833180e2f08c0d"

/-- SHA-256 of `{"id":"r-0","prevHash":null}`. -/
def copyHead : String := "fe6188dc3126e4d1a568110d03a51efe55200fdb4369b53e5137ab60ccd20eda"

def second : Record :=
  (OrderedMap.empty.set "id" (.json (.str "r-1"))).set "prevHash" (.json (.str head))

theorem computeRecordHash_genesis_eq :
    computeRecordHash NumberFormat.decimal genesis = .ok head := by
  decide +kernel

theorem computeRecordHash_copy_eq :
    computeRecordHash NumberFormat.decimal (genesis.set "prevHash" (prevHashValue none)) =
      .ok copyHead := by
  decide +kernel

/-- A genesis record and one that names its hash are appended. -/
theorem appendRecords_pair {first second : Record} {firstHash text : String}
    (hstrict : getPrevHashStrict first = .ok none)
    (hhash : computeRecordHash NumberFormat.decimal first = .ok firstHash)
    (hnext : second.get? "prevHash" = some (.json (.str firstHash)))
    (htext : canonicalizeRecord NumberFormat.decimal second = .ok text) :
    ∃ final, HashChain.fresh.appendRecords NumberFormat.decimal [first, second] = .ok final := by
  have hnamed := getPrevHashStrict_named hhash hnext
  have hhash' : computeRecordHash NumberFormat.decimal second =
      .ok (toHex (Sha256.sha256 (utf8 firstHash ++ utf8 text))) := by
    simp only [computeRecordHash, bind_eq_ok, pure_eq_ok]
    exact ⟨_, hnamed, text, htext, rfl⟩
  simp only [HashChain.appendRecords, HashChain.append, bind_eq_ok, exists_unit, require_eq_ok,
    pure_eq_ok]
  exact ⟨_, _, ⟨none, hstrict, rfl, firstHash, hhash, rfl⟩, _,
    ⟨_, hnamed, rfl, _, hhash', rfl⟩, rfl⟩

/-- Both records are appended, and the second one is reported as broken. -/
theorem appended_pair_broken :
    ¬ ∀ records final,
      HashChain.fresh.appendRecords NumberFormat.decimal records = .ok final →
        HashChain.verify NumberFormat.decimal records = .ok (.valid records.length) ∧
          traverse NumberFormat.decimal none 0 records = .ok (.passed final.headHash) := by
  intro hclaim
  obtain ⟨final, happended⟩ : ∃ final, HashChain.fresh.appendRecords NumberFormat.decimal
      [genesis, second] = .ok final :=
    appendRecords_pair rfl computeRecordHash_genesis_eq rfl rfl
  have hverify := (hclaim _ final happended).1
  have hbroken : HashChain.verify NumberFormat.decimal [genesis, second] =
      .ok (.broken 1 1 (some copyHead) (some head)) := by
    have hnormal := (normalize_of_strict (computeRecordHash_lower computeRecordHash_genesis_eq)
      (show getPrevHashStrict second = _ from
        getPrevHashStrict_named computeRecordHash_genesis_eq rfl)).1
    simp only [HashChain.verify, bind_eq_ok]
    refine ⟨.stopped (.broken 1 1 (some copyHead) (some head)), ?_, rfl⟩
    have hne : some head ≠ some copyHead := by decide
    simp only [traverse, bind_eq_ok]
    refine ⟨none, rfl, ?_⟩
    rw [if_neg (not_not_intro rfl)]
    simp only [bind_eq_ok]
    refine ⟨copyHead, computeRecordHash_copy_eq, _, hnormal, ?_⟩
    rw [if_pos hne]
    rfl
  rw [hbroken] at hverify
  exact absurd (Except.ok.inj hverify) (by simp)

def linkedRecords : List Record :=
  [genesis.set "prevHash" (prevHashValue none),
    (OrderedMap.empty.set "id" (.json (.str "r-1"))).set "prevHash" (.json (.str copyHead))]

/-- Behind a genesis record with a null `prevHash` the pair is verified. -/
theorem linked_verified :
    ∃ final, HashChain.fresh.appendRecords NumberFormat.decimal linkedRecords = .ok final ∧
      HashChain.verify NumberFormat.decimal linkedRecords = .ok (.valid 2) ∧
      traverse NumberFormat.decimal none 0 linkedRecords = .ok (.passed final.headHash) := by
  obtain ⟨final, happended⟩ : ∃ final, HashChain.fresh.appendRecords NumberFormat.decimal
      linkedRecords = .ok final :=
    appendRecords_pair rfl computeRecordHash_copy_eq rfl rfl
  refine ⟨final, happended, (verify_appended_iff happended).mpr ?_⟩
  intro first hfirst
  obtain rfl := Option.mem_some.mp hfirst
  exact Or.inl rfl

end Unlinked

end Coivitas.Crypto
