import Coivitas.Foundation.Calendar
import Coivitas.Foundation.Outcome
import Coivitas.Types.Schema

/-! # Decentralized identifiers

`did:agent` identifiers name a key digest, `did:key` identifiers carry the key
itself in base58.
-/

namespace Coivitas.Identity

open Foundation Coivitas.Types

def isDidAgent (did : String) : Bool := isDidAgentText did.toList

def base58Alphabet : List Char :=
  "123456789ABCDEFGHJKLMNPQRSTUVWXYZabcdefghijkmnopqrstuvwxyz".toList

def didKeyPrefix : List Char := "did:key:".toList

/-- `^did:key:[1-9A-HJ-NP-Za-km-z]+$` -/
def isDidKey (did : String) : Bool :=
  didKeyPrefix.isPrefixOf did.toList &&
    (let encoded := did.toList.drop didKeyPrefix.length
     !encoded.isEmpty && encoded.all base58Alphabet.contains)

/-! ## Base 58 -/

/-- Multiply a little-endian byte string by 58 and add the carry. -/
def timesBase : List Nat → Nat → List Nat × Nat
  | [], carry => ([], carry)
  | byte :: bytes, carry =>
      let current := byte * 58 + carry
      let (rest, carry') := timesBase bytes (current / 256)
      (current % 256 :: rest, carry')

/-- The bytes of a carry; a 32-bit carry has at most four. -/
def carryBytes : Nat → Nat → List Nat
  | 0, _ => []
  | fuel + 1, carry => if carry = 0 then [] else carry % 256 :: carryBytes fuel (carry / 256)

def pushDigit (bytes : List Nat) (digit : Nat) : List Nat :=
  let (bytes', carry) := timesBase bytes digit
  bytes' ++ carryBytes 4 carry

/-- The bytes of a base58 text; `none` for a character outside the alphabet. -/
def decodeBase58 (value : List Char) : Option (List Nat) :=
  if value.isEmpty then some []
  else do
    let bytes ← value.foldlM (fun bytes char => do
      let digit ← base58Alphabet.findIdx? (· == char)
      return pushDigit bytes digit) [0]
    let zeros := value.takeWhile (· == '1')
    return (bytes ++ zeros.map fun _ => 0).reverse

/-- The Ed25519 key in a did:key payload; `none` when decoding throws. -/
def decodeDidKeyPayload (methodSpecificId : List Char) : Option (List UInt8) :=
  match methodSpecificId with
  | 'z' :: encoded => do
      let bytes ← decodeBase58 encoded
      match bytes with
      | 0xed :: 0x01 :: key => if bytes.length = 34 then some (key.map UInt8.ofNat) else none
      | _ => none
  | _ => none

/-- `none` when the identifier carries no key and the call throws. -/
def extractPublicKeyFromDIDKey (did : String) : Option String :=
  if isDidKey did then
    (decodeDidKeyPayload (did.toList.drop didKeyPrefix.length)).map toHex
  else none

/-! ## Timestamps -/

/-- A comparison with an invalid date is false. -/
def isTimestampExpired (expiresAt now : String) : Prop :=
  ∃ e ∈ Calendar.getTime expiresAt, ∃ n ∈ Calendar.getTime now, e ≤ n

instance (expiresAt now : String) : Decidable (isTimestampExpired expiresAt now) := by
  unfold isTimestampExpired
  infer_instance

/-! ## Patterns of well-formed identifiers -/

/-- One segment after the method name. -/
theorem splitOn_did (scheme segment : List Char) (hscheme : ':' ∉ scheme) (hsegment : ':' ∉ segment) :
    (['d', 'i', 'd', ':'] ++ scheme ++ ':' :: segment).splitOn ':' =
      [['d', 'i', 'd'], scheme, segment] := by
  have hdid : ['d', 'i', 'd', ':'] ++ scheme ++ ':' :: segment =
      ['d', 'i', 'd'] ++ ':' :: (scheme ++ ':' :: segment) := by simp
  rw [hdid, List.splitOn_append_cons_self_of_not_mem (by decide),
    List.splitOn_append_cons_self_of_not_mem hscheme, List.splitOn_eq_singleton hsegment]

theorem isDidChar_of_base58 {c : Char} (hc : base58Alphabet.contains c = true) :
    isDidChar c = true ∧ c ≠ ':' ∧ c ≠ '#' := by
  have hall : base58Alphabet.all (fun d => isDidChar d && d != ':' && d != '#') = true := by
    decide +kernel
  simpa [and_assoc] using List.all_eq_true.mp hall c (by simpa using hc)

theorem isDidChar_of_lowerHex {c : Char} (hc : isLowerHex c = true) :
    isDidChar c = true ∧ c ≠ ':' ∧ c ≠ '#' := by
  simp only [isLowerHex, Bool.or_eq_true, Bool.and_eq_true, decide_eq_true_eq] at hc
  rcases hc with hdigit | ⟨hlo, hhi⟩
  · refine ⟨by simp [isDidChar, Char.isAlphanum, hdigit], ?_, ?_⟩
    · rintro rfl
      exact absurd hdigit (by decide)
    · rintro rfl
      exact absurd hdigit (by decide)
  · refine ⟨?_, ?_, ?_⟩
    · have hlower : c.isLower = true := by
        delta Char.isLower
        simp only [Bool.and_eq_true, decide_eq_true_eq]
        exact ⟨hlo, by show c.toNat ≤ 122; omega⟩
      have halpha : c.isAlpha = true := by
        delta Char.isAlpha
        rw [hlower, Bool.or_true]
      simp [isDidChar, Char.isAlphanum, halpha]
    · rintro rfl
      exact absurd hlo (by decide)
    · rintro rfl
      exact absurd hlo (by decide)

theorem isDidKey_eq_true {did : String} (h : isDidKey did = true) :
    ∃ encoded, did.toList = didKeyPrefix ++ encoded ∧ encoded ≠ [] ∧
      ∀ c ∈ encoded, base58Alphabet.contains c = true := by
  simp only [isDidKey, Bool.and_eq_true, Bool.not_eq_true', List.isEmpty_eq_false_iff,
    List.all_eq_true] at h
  obtain ⟨hhead, hne, hall⟩ := h
  obtain ⟨encoded, hencoded⟩ := List.isPrefixOf_iff_prefix.mp hhead
  rw [← hencoded, List.drop_left] at hne hall
  exact ⟨encoded, hencoded.symm, hne, hall⟩

theorem isDidAgent_eq_true {did : String} (h : isDidAgent did = true) :
    ∃ digest, did.toList = "did:agent:".toList ++ digest ∧ digest.length = 40 ∧
      ∀ c ∈ digest, isLowerHex c = true := by
  unfold isDidAgent isDidAgentText at h
  split at h
  next digest htext =>
    simp only [Bool.and_eq_true, beq_iff_eq, List.all_eq_true] at h
    exact ⟨digest, htext, h⟩
  next => simp at h

theorem isDidSegments_singleton {segment : List Char} (hne : segment ≠ [])
    (hall : ∀ c ∈ segment, isDidChar c = true) : isDidSegments [segment] = true := by
  simp only [isDidSegments, List.isEmpty_cons, Bool.not_false, Bool.true_and, List.all_cons,
    List.all_nil, Bool.and_true, Bool.and_eq_true, Bool.not_eq_true', List.isEmpty_eq_false_iff,
    List.all_eq_true]
  exact ⟨hne, hall⟩

theorem isDidKeyText_of_isDidKey {did : String} (h : isDidKey did = true) :
    isDidKeyText did.toList = true := by
  obtain ⟨encoded, htext, hne, hall⟩ := isDidKey_eq_true h
  have hsplit := splitOn_did ['k', 'e', 'y'] encoded (by decide)
    (fun hmem => (isDidChar_of_base58 (hall _ hmem)).2.1 rfl)
  unfold isDidKeyText
  rw [htext, show didKeyPrefix ++ encoded = ['d', 'i', 'd', ':'] ++ ['k', 'e', 'y'] ++ ':' :: encoded
    from rfl, hsplit]
  exact isDidSegments_singleton hne fun c hc => (isDidChar_of_base58 (hall c hc)).1

theorem isDid_of_isDidAgent {did : String} (h : isDidAgent did = true) : isDid did = true := by
  obtain ⟨digest, htext, hlength, hall⟩ := isDidAgent_eq_true h
  have hsplit := splitOn_did ['a', 'g', 'e', 'n', 't'] digest (by decide)
    (fun hmem => (isDidChar_of_lowerHex (hall _ hmem)).2.1 rfl)
  unfold isDid
  rw [htext, show "did:agent:".toList ++ digest =
    ['d', 'i', 'd', ':'] ++ ['a', 'g', 'e', 'n', 't'] ++ ':' :: digest from rfl, hsplit]
  have hne : digest ≠ [] := by
    rintro rfl
    simp at hlength
  apply Bool.and_eq_true_iff.mpr
  exact ⟨by decide, isDidSegments_singleton hne fun c hc => (isDidChar_of_lowerHex (hall c hc)).1⟩

theorem hash_not_mem_of_isDidKey {did : String} (h : isDidKey did = true) : '#' ∉ did.toList := by
  obtain ⟨encoded, htext, -, hall⟩ := isDidKey_eq_true h
  rw [htext, List.mem_append, not_or]
  exact ⟨by decide, fun hmem => (isDidChar_of_base58 (hall _ hmem)).2.2 rfl⟩

theorem hash_not_mem_of_isDidAgent {did : String} (h : isDidAgent did = true) :
    '#' ∉ did.toList := by
  obtain ⟨digest, htext, -, hall⟩ := isDidAgent_eq_true h
  rw [htext, List.mem_append, not_or]
  exact ⟨by decide +kernel, fun hmem => (isDidChar_of_lowerHex (hall _ hmem)).2.2 rfl⟩

theorem isDidAgent_eq_false_of_isDidKey {did : String} (h : isDidKey did = true) :
    isDidAgent did = false := by
  obtain ⟨encoded, htext, -⟩ := isDidKey_eq_true h
  by_contra hagent
  obtain ⟨digest, hagentText, -⟩ := isDidAgent_eq_true (Bool.not_eq_false _ |>.mp hagent)
  have hmethod : "did:k".toList = "did:a".toList :=
    congrArg (List.take 5) (htext.symm.trans hagentText)
  exact absurd hmethod (by decide +kernel)

/-- The verification method of the first key of an identity. -/
theorem isVerificationMethod_key {did : String} (hhash : '#' ∉ did.toList)
    (hdid : isDidKeyText did.toList = true ∨ isDidAgentText did.toList = true) :
    isVerificationMethod (did ++ "#key-1") = true := by
  unfold isVerificationMethod
  rw [String.toList_append, show "#key-1".toList = '#' :: ['k', 'e', 'y', '-', '1'] from rfl,
    List.splitOn_append_cons_self_of_not_mem hhash, List.splitOn_eq_singleton (by decide)]
  simpa using hdid

end Coivitas.Identity
