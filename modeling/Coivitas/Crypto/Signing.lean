import Coivitas.Crypto.Encoding
import Coivitas.Foundation.Outcome

/-! # Signing and verifying with key texts

The model of `packages/crypto/src/signing.ts`. Keys and signatures are texts, and the
reader tells hex from base64url by the characters alone: a base64url text of even length
whose characters are all hex digits is read as hex.
-/

namespace Coivitas.Crypto

open Foundation

/-! ## What is written in hex is read back -/

theorem length_hexPairs (text : List Char) : (hexPairs text).length = text.length / 2 := by
  fun_induction hexPairs text with
  | case1 high low rest ih =>
      simp only [List.length_cons, ih]
      omega
  | case2 text hshort =>
      obtain _ | ⟨c, _ | ⟨d, rest⟩⟩ := text
      · rfl
      · simp
      · exact absurd rfl (hshort c d rest)

theorem hexValue_hexChar : ∀ n < 16, hexValue (hexChar n) = n := by decide

theorem hexPairs_flatMap_hexByte (bytes : List UInt8) :
    hexPairs (bytes.flatMap hexByte) = bytes := by
  induction bytes with
  | nil => rfl
  | cons b bytes ih =>
      have hb := b.toNat_lt
      have hbyte : UInt8.ofNat (hexValue (hexChar (b.toNat / 16)) * 16 +
          hexValue (hexChar (b.toNat % 16))) = b := by
        rw [hexValue_hexChar _ (by omega), hexValue_hexChar _ (by omega)]
        have hsum : b.toNat / 16 * 16 + b.toNat % 16 = b.toNat := by omega
        rw [hsum, UInt8.ofNat_toNat]
      rw [List.flatMap_cons, hexByte, List.cons_append, List.cons_append, List.nil_append,
        hexPairs, hbyte, ih]

theorem all_isHexChar_flatMap_hexByte (bytes : List UInt8) :
    (bytes.flatMap hexByte).all isHexChar = true := by
  refine List.all_eq_true.mpr fun c hc => ?_
  obtain ⟨b, -, hcb⟩ := List.mem_flatMap.mp hc
  exact (hexByte_spec b c hcb).1

theorem fromHex_toHex (bytes : List UInt8) : fromHex (toHex bytes).toList = some bytes := by
  have heven : (bytes.flatMap hexByte).length % 2 = 0 := by
    rw [length_flatMap_hexByte]
    omega
  rw [toHex, String.toList_ofList, fromHex,
    if_pos ⟨heven, all_isHexChar_flatMap_hexByte bytes⟩, hexPairs_flatMap_hexByte]

theorem normalizeKey_toHex (bytes : List UInt8) : normalizeKey (toHex bytes) = some bytes := by
  have hdetect : detectEncoding (toHex bytes).toList = .hex := by
    have heven : (bytes.flatMap hexByte).length % 2 = 0 := by
      rw [length_flatMap_hexByte]
      omega
    rw [toHex, String.toList_ofList, detectEncoding,
      if_pos ⟨heven, all_isHexChar_flatMap_hexByte bytes⟩]
  rw [normalizeKey, hdetect]
  exact fromHex_toHex bytes

/-! ## What is written in base64url is read back -/

theorem idxOf_base64Char : ∀ n < 64, base64UrlChars.idxOf (base64Text.base64Char n) = n := by
  have hall : (List.range 64).all (fun n =>
      base64UrlChars.idxOf (base64Text.base64Char n) == n) = true := by
    simp only [base64Text.base64Char, base64UrlChars_eq]
    decide +kernel
  intro n hn
  simpa using List.all_eq_true.mp hall n (List.mem_range.mpr hn)

theorem base64Groups_base64Text {bytes : List Nat} (hbytes : ∀ byte ∈ bytes, byte < 256) :
    base64Groups ((base64Text bytes).map base64UrlChars.idxOf) = bytes.map UInt8.ofNat := by
  fun_induction base64Text bytes with
  | case1 b₀ b₁ b₂ rest ih =>
      simp only [List.forall_mem_cons] at hbytes
      obtain ⟨h₀, h₁, h₂, hrest⟩ := hbytes
      have hfirst : b₀ / 4 * 4 + (b₀ % 4 * 16 + b₁ / 16) / 16 = b₀ := by omega
      have hsecond : (b₀ % 4 * 16 + b₁ / 16) % 16 * 16 + (b₁ % 16 * 4 + b₂ / 64) / 4 = b₁ := by
        omega
      have hthird : (b₁ % 16 * 4 + b₂ / 64) % 4 * 64 + b₂ % 64 = b₂ := by omega
      rw [List.map_cons, List.map_cons, List.map_cons, List.map_cons,
        idxOf_base64Char _ (by omega), idxOf_base64Char _ (by omega),
        idxOf_base64Char _ (by omega), idxOf_base64Char _ (by omega), base64Groups, ih hrest,
        hfirst, hsecond, hthird]
      rfl
  | case2 b₀ b₁ =>
      simp only [List.forall_mem_cons] at hbytes
      obtain ⟨h₀, h₁, -⟩ := hbytes
      have hfirst : b₀ / 4 * 4 + (b₀ % 4 * 16 + b₁ / 16) / 16 = b₀ := by omega
      have hsecond : (b₀ % 4 * 16 + b₁ / 16) % 16 * 16 + b₁ % 16 * 4 / 4 = b₁ := by omega
      rw [List.map_cons, List.map_cons, List.map_cons, List.map_nil,
        idxOf_base64Char _ (by omega), idxOf_base64Char _ (by omega),
        idxOf_base64Char _ (by omega), base64Groups, hfirst, hsecond]
      rfl
  | case3 b₀ =>
      simp only [List.forall_mem_cons] at hbytes
      obtain ⟨h₀, -⟩ := hbytes
      have hfirst : b₀ / 4 * 4 + b₀ % 4 * 16 / 16 = b₀ := by omega
      rw [List.map_cons, List.map_cons, List.map_nil, idxOf_base64Char _ (by omega),
        idxOf_base64Char _ (by omega), base64Groups, hfirst]
      rfl
  | case4 => rfl

/-- There is no padding to strip. -/
theorem rdropWhile_of_all {text : List Char} (hall : text.all isBase64UrlChar = true) :
    text.rdropWhile (· == '=') = text := by
  rw [List.rdropWhile_eq_self_iff]
  intro hne hpad
  have hlast := List.all_eq_true.mp hall _ (List.getLast_mem hne)
  rw [beq_iff_eq.mp hpad, isBase64UrlChar, base64UrlChars_eq] at hlast
  exact absurd hlast (by decide)

theorem fromBase64Url_toBase64Url (bytes : List UInt8) :
    fromBase64Url (toBase64Url bytes).toList = some bytes := by
  have hchars := List.all_eq_true.mp (all_base64Text (bytes.map UInt8.toNat))
  have hlength : (base64Text (bytes.map UInt8.toNat)).length % 4 ≠ 1 := by
    rw [length_base64Text]
    omega
  have hbytes : ∀ byte ∈ bytes.map UInt8.toNat, byte < 256 := by
    intro byte hbyte
    obtain ⟨b, -, rfl⟩ := List.mem_map.mp hbyte
    exact b.toNat_lt
  have hread : (bytes.map UInt8.toNat).map UInt8.ofNat = bytes := by
    rw [List.map_map]
    exact (List.map_congr_left fun b _ => UInt8.ofNat_toNat).trans (List.map_id _)
  rw [toBase64Url, String.toList_ofList, fromBase64Url, rdropWhile_of_all (all_base64Text _),
    if_pos ⟨List.all_eq_true.mpr hchars, by omega, hlength⟩, base64Groups_base64Text hbytes, hread]

/-- A base64url text is taken for hex exactly when its length is even and all its characters are
hex digits. -/
theorem normalizeKey_toBase64Url (bytes : List UInt8) :
    normalizeKey (toBase64Url bytes) =
      if (toBase64Url bytes).toList.length % 2 = 0 ∧
          (toBase64Url bytes).toList.all isHexChar = true then
        fromHex (toBase64Url bytes).toList
      else some bytes := by
  by_cases hhex : (toBase64Url bytes).toList.length % 2 = 0 ∧
      (toBase64Url bytes).toList.all isHexChar = true
  · rw [if_pos hhex, normalizeKey, detectEncoding, if_pos hhex]
  · rw [if_neg hhex, normalizeKey, detectEncoding, if_neg hhex]
    exact fromBase64Url_toBase64Url bytes

theorem length_toBase64Url (bytes : List UInt8) :
    (toBase64Url bytes).toList.length = (4 * bytes.length + 2) / 3 := by
  rw [toBase64Url, String.toList_ofList, length_base64Text, List.length_map]

/-- The text of a key has an odd length. -/
theorem normalizeKey_toBase64Url_key {bytes : List UInt8} (hlength : bytes.length = 32) :
    normalizeKey (toBase64Url bytes) = some bytes := by
  rw [normalizeKey_toBase64Url, if_neg]
  rintro ⟨heven, -⟩
  rw [length_toBase64Url, hlength] at heven
  exact absurd heven (by decide)

/-- The text of a signature is read as 43 bytes where it is taken for hex. -/
theorem normalizeKey_toBase64Url_signature {bytes : List UInt8} (hlength : bytes.length = 64) :
    (∃ c ∈ (toBase64Url bytes).toList, isHexChar c = false) ∧
        normalizeKey (toBase64Url bytes) = some bytes ∨
      (¬ ∃ c ∈ (toBase64Url bytes).toList, isHexChar c = false) ∧
        ∃ other, normalizeKey (toBase64Url bytes) = some other ∧ other.length = 43 := by
  have htext : (toBase64Url bytes).toList.length = 86 := by
    rw [length_toBase64Url, hlength]
  by_cases hhex : (toBase64Url bytes).toList.all isHexChar = true
  · right
    refine ⟨?_, hexPairs (toBase64Url bytes).toList, ?_, ?_⟩
    · rintro ⟨c, hc, hother⟩
      rw [List.all_eq_true.mp hhex c hc] at hother
      cases hother
    · rw [normalizeKey_toBase64Url, if_pos ⟨by rw [htext], hhex⟩, fromHex,
        if_pos ⟨by rw [htext], hhex⟩]
    · rw [length_hexPairs, htext]
  · left
    refine ⟨?_, ?_⟩
    · simpa using hhex
    · rw [normalizeKey_toBase64Url, if_neg fun h => hhex h.2]

theorem normalizeKey_signature_iff {bytes : List UInt8} (hlength : bytes.length = 64) :
    normalizeKey (toBase64Url bytes) = some bytes ↔
      ∃ c ∈ (toBase64Url bytes).toList, isHexChar c = false := by
  rcases normalizeKey_toBase64Url_signature hlength with
    ⟨hother, hread⟩ | ⟨hhex, other, hread, hshort⟩
  · exact iff_of_true hread hother
  · refine iff_of_false (fun hsame => ?_) hhex
    obtain rfl := Option.some.inj (hread.symm.trans hsame)
    omega

/-! ## Signing -/

inductive CryptoErrorCode where
  | invalidKeyFormat
  | invalidSignatureFormat
  | invalidHashFormat
  | invalidHexString
  | encodingError
  | signatureVerificationFailed
  | serializationFailed
  | hashChainBroken
  | internalCryptoError
  deriving DecidableEq, Repr

structure CryptoError where
  code : CryptoErrorCode
  message : String
  deriving DecidableEq, Repr

/-- The curve library; `none` is a throw. -/
structure Ed25519Ports where
  sign : List UInt8 → List UInt8 → Option (List UInt8)
  verify : List UInt8 → List UInt8 → List UInt8 → Option Bool

/-- The bytes of a text that has one of the lengths. -/
def assertBytes (text : String) (lengths : List Nat) (code : CryptoErrorCode)
    (formatMessage lengthMessage : String) : Except CryptoError (List UInt8) :=
  match normalizeKey text with
  | none => .error ⟨code, formatMessage⟩
  | some bytes => do
      require (bytes.length ∈ lengths) ⟨code, lengthMessage⟩
      return bytes

def assertPrivateKey (privateKey : String) : Except CryptoError (List UInt8) :=
  assertBytes privateKey [32, 64] .invalidKeyFormat
    "Private key must be a valid hex or base64url encoded string."
    "Private key must decode to 32 bytes (seed) or 64 bytes (seed + public key)."

def assertPublicKey (publicKey : String) : Except CryptoError (List UInt8) :=
  assertBytes publicKey [32] .invalidKeyFormat
    "Public key must be a valid hex or base64url encoded string."
    "Public key must decode to 32 bytes."

def assertSignature (signature : String) : Except CryptoError (List UInt8) :=
  assertBytes signature [64] .invalidSignatureFormat
    "Signature must be a valid hex or base64url encoded string."
    "Signature must decode to 64 bytes."

variable (P : Ed25519Ports)

/-- The first 32 bytes of the private key are the seed. -/
def sign (message : List UInt8) (privateKey : String) (outputEncoding : Encoding) :
    Except CryptoError String := do
  let keyBytes ← assertPrivateKey privateKey
  match P.sign message (keyBytes.take 32) with
  | none => .error ⟨.internalCryptoError, "Failed to sign the message."⟩
  | some signatureBytes => return encode outputEncoding signatureBytes

def verify (message : List UInt8) (signature publicKey : String) : Except CryptoError Bool := do
  let signatureBytes ← assertSignature signature
  let publicKeyBytes ← assertPublicKey publicKey
  return (P.verify signatureBytes message publicKeyBytes).getD false

/-! ## Signatures that are read back -/

section Agreement

variable {P} {message keyBytes publicKeyBytes signatureBytes : List UInt8}
  {privateKey publicKey : String}

theorem assertBytes_eq_ok {text : String} {lengths : List Nat} {code : CryptoErrorCode}
    {formatMessage lengthMessage : String} {bytes : List UInt8} :
    assertBytes text lengths code formatMessage lengthMessage = .ok bytes ↔
      normalizeKey text = some bytes ∧ bytes.length ∈ lengths := by
  unfold assertBytes
  cases hread : normalizeKey text with
  | none => simp
  | some other =>
      simp only [bind_eq_ok, exists_unit, require_eq_ok, pure_eq_ok, Option.some.injEq]
      constructor
      · rintro ⟨hlength, rfl⟩
        exact ⟨rfl, hlength⟩
      · rintro ⟨rfl, hlength⟩
        exact ⟨hlength, rfl⟩

theorem sign_eq_ok_iff {encoding : Encoding} {text : String} :
    sign P message privateKey encoding = .ok text ↔ ∃ keyBytes signatureBytes,
      normalizeKey privateKey = some keyBytes ∧ (keyBytes.length = 32 ∨ keyBytes.length = 64) ∧
        P.sign message (keyBytes.take 32) = some signatureBytes ∧
        text = encode encoding signatureBytes := by
  simp only [sign, bind_eq_ok, assertPrivateKey, assertBytes_eq_ok, List.mem_cons,
    List.not_mem_nil, or_false]
  constructor
  · rintro ⟨keyBytes, ⟨hprivate, hlength⟩, hsigned⟩
    split at hsigned
    next => cases hsigned
    next signatureBytes hsign =>
      exact ⟨keyBytes, signatureBytes, hprivate, hlength, hsign, (Except.ok.inj hsigned).symm⟩
  · rintro ⟨keyBytes, signatureBytes, hprivate, hlength, hsign, rfl⟩
    exact ⟨keyBytes, ⟨hprivate, hlength⟩, by rw [hsign]; rfl⟩

theorem verify_eq_ok_iff {text : String} {valid : Bool} :
    verify P message text publicKey = .ok valid ↔ ∃ signatureBytes publicKeyBytes,
      normalizeKey text = some signatureBytes ∧ signatureBytes.length = 64 ∧
        normalizeKey publicKey = some publicKeyBytes ∧ publicKeyBytes.length = 32 ∧
        (P.verify signatureBytes message publicKeyBytes).getD false = valid := by
  simp only [verify, bind_eq_ok, pure_eq_ok, assertSignature, assertPublicKey, assertBytes_eq_ok,
    List.mem_singleton]
  constructor
  · rintro ⟨signatureBytes, ⟨htext, hlength⟩, publicKeyBytes, ⟨hpublic, hkey⟩, hvalid⟩
    exact ⟨signatureBytes, publicKeyBytes, htext, hlength, hpublic, hkey, hvalid⟩
  · rintro ⟨signatureBytes, publicKeyBytes, htext, hlength, hpublic, hkey, hvalid⟩
    exact ⟨signatureBytes, ⟨htext, hlength⟩, publicKeyBytes, ⟨hpublic, hkey⟩, hvalid⟩

/-- A private key signs in either encoding. -/
theorem sign_eq_ok (hprivate : normalizeKey privateKey = some keyBytes)
    (hlength : keyBytes.length = 32 ∨ keyBytes.length = 64)
    (hsign : P.sign message (keyBytes.take 32) = some signatureBytes) (encoding : Encoding) :
    sign P message privateKey encoding = .ok (encode encoding signatureBytes) :=
  sign_eq_ok_iff.mpr ⟨keyBytes, signatureBytes, hprivate, hlength, hsign, rfl⟩

/-- A signature that is read back verifies. -/
theorem verify_eq_ok {text : String} (htext : normalizeKey text = some signatureBytes)
    (hlength : signatureBytes.length = 64) (hpublic : normalizeKey publicKey = some publicKeyBytes)
    (hkey : publicKeyBytes.length = 32)
    (hverify : P.verify signatureBytes message publicKeyBytes = some true) :
    verify P message text publicKey = .ok true := by
  refine verify_eq_ok_iff.mpr ⟨signatureBytes, publicKeyBytes, htext, hlength, hpublic, hkey, ?_⟩
  rw [hverify]
  rfl

/-- A signature that is read with another length does not verify. -/
theorem verify_ne_ok {text : String} {other : List UInt8} (htext : normalizeKey text = some other)
    (hlength : other.length ≠ 64) {valid : Bool} : verify P message text publicKey ≠ .ok valid := by
  intro h
  obtain ⟨bytes, -, hread, hbytes, -⟩ := verify_eq_ok_iff.mp h
  obtain rfl := Option.some.inj (hread.symm.trans htext)
  exact hlength hbytes

/-- Texts of keys and signatures are read back, and signatures verify in either encoding, exactly
when the base64url text of the signature does not consist of hex digits. -/
theorem texts_read_back_iff (s k : List UInt8) (hs : s.length = 64) (hk : k.length = 32) :
    ((normalizeKey (toHex s) = some s ∧ normalizeKey (toBase64Url s) = some s ∧
        normalizeKey (toHex k) = some k ∧ normalizeKey (toBase64Url k) = some k) ↔
      ∃ c ∈ (toBase64Url s).toList, isHexChar c = false) ∧
    ∀ (P : Ed25519Ports) (message keyBytes publicKeyBytes : List UInt8)
      (privateKey publicKey : String), normalizeKey privateKey = some keyBytes →
      (keyBytes.length = 32 ∨ keyBytes.length = 64) →
      normalizeKey publicKey = some publicKeyBytes → publicKeyBytes.length = 32 →
      P.sign message (keyBytes.take 32) = some s → P.verify s message publicKeyBytes = some true →
      ∃ hexText base64Text, sign P message privateKey .hex = .ok hexText ∧
        sign P message privateKey .base64url = .ok base64Text ∧
        ((verify P message base64Text publicKey = .ok true ∧
            verify P message base64Text publicKey = verify P message hexText publicKey) ↔
          ∃ c ∈ base64Text.toList, isHexChar c = false) := by
  constructor
  · rw [← normalizeKey_signature_iff hs]
    exact ⟨fun h => h.2.1, fun h =>
      ⟨normalizeKey_toHex s, h, normalizeKey_toHex k, normalizeKey_toBase64Url_key hk⟩⟩
  · intro P message keyBytes publicKeyBytes privateKey publicKey hprivate hkey hpublic
      hpublicLength hsign hverify
    have hhex := verify_eq_ok (normalizeKey_toHex s) hs hpublic hpublicLength hverify
    refine ⟨_, _, sign_eq_ok hprivate hkey hsign .hex, sign_eq_ok hprivate hkey hsign .base64url,
      ?_⟩
    show (verify P message (toBase64Url s) publicKey = .ok true ∧
      verify P message (toBase64Url s) publicKey = verify P message (toHex s) publicKey) ↔
        ∃ c ∈ (toBase64Url s).toList, isHexChar c = false
    rcases normalizeKey_toBase64Url_signature hs with
      ⟨hother, hread⟩ | ⟨hdigits, other, hread, hshort⟩
    · have hbase := verify_eq_ok hread hs hpublic hpublicLength hverify
      exact iff_of_true ⟨hbase, hbase.trans hhex.symm⟩ hother
    · exact iff_of_false (fun h => verify_ne_ok hread (by omega) h.1) hdigits

end Agreement

namespace EmptyMessage

def seed : List UInt8 :=
  [0x9d, 0x61, 0xb1, 0x9d, 0xef, 0xfd, 0x5a, 0x60, 0xba, 0x84, 0x4a, 0xf4, 0x92, 0xec, 0x2c, 0xc4,
    0x44, 0x49, 0xc5, 0x69, 0x7b, 0x32, 0x69, 0x19, 0x70, 0x3b, 0xac, 0x03, 0x1c, 0xae, 0x7f,
    0x60]

def publicKey : List UInt8 :=
  [0xd7, 0x5a, 0x98, 0x01, 0x82, 0xb1, 0x0a, 0xb7, 0xd5, 0x4b, 0xfe, 0xd3, 0xc9, 0x64, 0x07, 0x3a,
    0x0e, 0xe1, 0x72, 0xf3, 0xda, 0xa6, 0x23, 0x25, 0xaf, 0x02, 0x1a, 0x68, 0xf7, 0x07, 0x51,
    0x1a]

def signature : List UInt8 :=
  [0xe5, 0x56, 0x43, 0x00, 0xc3, 0x60, 0xac, 0x72, 0x90, 0x86, 0xe2, 0xcc, 0x80, 0x6e, 0x82, 0x8a,
    0x84, 0x87, 0x7f, 0x1e, 0xb8, 0xe5, 0xd9, 0x74, 0xd8, 0x73, 0xe0, 0x65, 0x22, 0x49, 0x01,
    0x55, 0x5f, 0xb8, 0x82, 0x15, 0x90, 0xa3, 0x3b, 0xac, 0xc6, 0x1e, 0x39, 0x70, 0x1c, 0xf9,
    0xb4, 0x6b, 0xd2, 0x5b, 0xf5, 0xf0, 0x59, 0x5b, 0xbe, 0x24, 0x65, 0x51, 0x41, 0x43, 0x8e,
    0x7a, 0x10, 0x0b]

/-- The curve on one key pair and the empty message. -/
def ports : Ed25519Ports where
  sign message key := if message = [] ∧ key = seed then some signature else none
  verify text message key := some (text = signature ∧ message = [] ∧ key = publicKey)

theorem verified_in_either_encoding :
    ∃ hexText base64Text, sign ports [] (toHex seed) .hex = .ok hexText ∧
      sign ports [] (toHex seed) .base64url = .ok base64Text ∧
      ((verify ports [] base64Text (toHex publicKey) = .ok true ∧
          verify ports [] base64Text (toHex publicKey) =
            verify ports [] hexText (toHex publicKey)) ↔
        ∃ c ∈ base64Text.toList, isHexChar c = false) :=
  (texts_read_back_iff signature publicKey rfl rfl).2 ports [] seed publicKey (toHex seed)
    (toHex publicKey) (normalizeKey_toHex seed) (Or.inl rfl) (normalizeKey_toHex publicKey) rfl
    rfl rfl

end EmptyMessage

/-- The text of 64 zero bytes is `AA…A`, which is read as 43 bytes. -/
theorem zero_signature_misread :
    ¬ ∀ s : List UInt8, s.length = 64 → normalizeKey (toBase64Url s) = some s := by
  intro h
  have hread := (@normalizeKey_signature_iff (List.replicate 64 0) (by simp)).mp
    (h (List.replicate 64 0) (by simp))
  have hdigits : (toBase64Url (List.replicate 64 0)).toList.all isHexChar = true := by
    rw [toBase64Url, String.toList_ofList]
    decide +kernel
  obtain ⟨c, hc, hother⟩ := hread
  rw [List.all_eq_true.mp hdigits c hc] at hother
  cases hother

end Coivitas.Crypto
