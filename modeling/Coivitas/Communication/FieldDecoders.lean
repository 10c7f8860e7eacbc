import Coivitas.Communication.ReplayProtection

/-! # The two decoders of encrypted fields

A nonce is decoded twice: once for its sequence number, where only 24 hex digits are hex,
and once for the cipher, where every even number of hex digits is. A text of either
alphabet is read as hex by the second decoder only, so the two part on the texts that are
both, and such a text of a ciphertext is not read back.
-/

namespace Coivitas.Communication

open Foundation Crypto

variable (C : SessionCryptoPorts)

/-- The text is taken for hex by `_decodeEncryptedField`. -/
def LooksHex (text : String) : Prop :=
  (text.toList ≠ [] ∧ text.toList.all isHexChar = true) ∧ text.toList.length % 2 = 0

instance (text : String) : Decidable (LooksHex text) := by
  unfold LooksHex
  infer_instance

theorem decodeEncryptedField_of_looksHex {text : String} (hhex : LooksHex text) :
    decodeEncryptedField C text = hexPairs text.toList := if_pos hhex

theorem decodeEncryptedField_of_not_looksHex {text : String} (hhex : ¬ LooksHex text) :
    decodeEncryptedField C text = C.base64Bytes text := if_neg hhex

theorem extractSequenceNumber_eq_ok {aeadNonce : String} {parts : NonceParts} :
    extractSequenceNumber C aeadNonce = .ok parts ↔ ∃ bytes, nonceBytes C aeadNonce = .ok bytes ∧
      parts = ⟨nonceSequenceNumber bytes, bytes.getD 0 0, bytes⟩ := by
  simp only [extractSequenceNumber, bind_eq_ok, pure_eq_ok, @eq_comm _ parts]

/-- An accepted nonce has 12 bytes, which are those of its hex digits if there are 24. -/
theorem nonceBytes_cases {aeadNonce : String} {bytes : List UInt8}
    (hbytes : nonceBytes C aeadNonce = .ok bytes) :
    bytes.length = 12 ∧
      (LooksHex aeadNonce ∧ aeadNonce.toList.length = 24 ∧ bytes = hexPairs aeadNonce.toList ∨
        ¬ (LooksHex aeadNonce ∧ aeadNonce.toList.length = 24) ∧
          bytes = C.base64Bytes aeadNonce) := by
  unfold nonceBytes at hbytes
  split at hbytes
  next hdigits =>
    obtain rfl := Except.ok.inj hbytes
    have hne : aeadNonce.toList ≠ [] := by
      intro hempty
      rw [hempty] at hdigits
      cases hdigits.1
    refine ⟨by rw [length_hexPairs, hdigits.1], .inl ⟨⟨⟨hne, hdigits.2⟩, ?_⟩, hdigits.1, rfl⟩⟩
    rw [hdigits.1]
  next hnot =>
    dsimp only at hbytes
    split at hbytes
    next => cases hbytes
    next hlength =>
      obtain rfl := Except.ok.inj hbytes
      exact ⟨not_not.mp hlength, .inr ⟨fun hboth => hnot ⟨hboth.2, hboth.1.1.2⟩, rfl⟩⟩

/-- The decoders of an accepted nonce agree exactly when it is not an even number of hex digits
other than 24. -/
theorem nonces_agree_iff {aeadNonce : String} {bytes : List UInt8}
    (hbytes : nonceBytes C aeadNonce = .ok bytes) :
    decodeEncryptedField C aeadNonce = bytes ↔
      (LooksHex aeadNonce → aeadNonce.toList.length = 24) := by
  obtain ⟨htwelve, hcases⟩ := nonceBytes_cases C hbytes
  by_cases hhex : LooksHex aeadNonce
  · rw [decodeEncryptedField_of_looksHex C hhex]
    constructor
    · intro hsame _
      have hlength := congrArg List.length hsame
      rw [length_hexPairs, htwelve] at hlength
      have heven := hhex.2
      omega
    · intro hdigits
      obtain ⟨-, -, hsame⟩ | ⟨hnot, -⟩ := hcases
      · exact hsame.symm
      · exact absurd ⟨hhex, hdigits hhex⟩ hnot
  · rw [decodeEncryptedField_of_not_looksHex C hhex]
    refine iff_of_true ?_ fun hhex' => absurd hhex' hhex
    obtain ⟨hhex', -⟩ | ⟨-, hsame⟩ := hcases
    · exact absurd hhex' hhex
    · exact hsame.symm

/-! ## Ciphertexts -/

/-- The last character of the text of one byte carries two bits; as a hex digit it is `A`. -/
theorem hexValue_lastChar : ∀ bits < 4, isHexChar (base64Text.base64Char (bits * 16)) = true →
    bits = 0 ∧ hexValue (base64Text.base64Char (bits * 16)) = 10 := by
  simp only [base64Text.base64Char, base64UrlChars_eq]
  decide

/-- The text of one byte is not the hex of that byte. -/
theorem hexPairs_toBase64Url_byte {byte : UInt8} (hhex : LooksHex (toBase64Url [byte])) :
    hexPairs (toBase64Url [byte]).toList ≠ [byte] := by
  have htext : (toBase64Url [byte]).toList =
      [base64Text.base64Char (byte.toNat / 4), base64Text.base64Char (byte.toNat % 4 * 16)] := by
    rw [toBase64Url, String.toList_ofList]
    rfl
  have hdigits := hhex.1.2
  rw [htext] at hdigits ⊢
  obtain ⟨-, hlast⟩ : _ ∧ isHexChar (base64Text.base64Char (byte.toNat % 4 * 16)) = true := by
    simpa using hdigits
  obtain ⟨hbits, hvalue⟩ := hexValue_lastChar (byte.toNat % 4) (by omega) hlast
  intro hsame
  rw [hexPairs, hvalue, List.cons.injEq] at hsame
  have hbyte := congrArg UInt8.toNat hsame.1
  rw [UInt8.toNat_ofNat'] at hbyte
  omega

/-- A text that is taken for hex stands for other bytes. -/
theorem hexPairs_toBase64Url_ne {bytes : List UInt8} (hhex : LooksHex (toBase64Url bytes)) :
    hexPairs (toBase64Url bytes).toList ≠ bytes := by
  intro hsame
  have hlength := congrArg List.length hsame
  have htext := length_toBase64Url bytes
  rw [length_hexPairs, htext] at hlength
  have heven := hhex.2
  rw [htext] at heven
  have hne : bytes.length ≠ 0 := by
    intro hempty
    rw [List.length_eq_zero_iff.mp hempty] at hhex
    exact hhex.1.1 rfl
  obtain ⟨byte, rfl⟩ := List.length_eq_one_iff.mp (show bytes.length = 1 by omega)
  exact hexPairs_toBase64Url_byte hhex hsame

/-- The base64url text of a ciphertext is read back exactly when it is not taken for hex. -/
theorem decodeEncryptedField_toBase64Url_iff
    (hread : ∀ bytes, C.base64Bytes (toBase64Url bytes) = bytes) (ciphertext : List UInt8) :
    decodeEncryptedField C (toBase64Url ciphertext) = ciphertext ↔
      ¬ LooksHex (toBase64Url ciphertext) := by
  by_cases hhex : LooksHex (toBase64Url ciphertext)
  · rw [decodeEncryptedField_of_looksHex C hhex]
    exact iff_of_false (hexPairs_toBase64Url_ne hhex) (not_not.mpr hhex)
  · rw [decodeEncryptedField_of_not_looksHex C hhex]
    exact iff_of_true (hread ciphertext) hhex

/-- The decoders agree on every accepted nonce that is not an even number of hex digits other
than 24, and on no other; of the two texts of a ciphertext the hex one is read back always,
the base64url one when it is not taken for hex. -/
theorem decoders_agree_iff (hread : ∀ bytes, C.base64Bytes (toBase64Url bytes) = bytes) :
    (∀ aeadNonce parts, extractSequenceNumber C aeadNonce = .ok parts →
      ((decodeEncryptedField C aeadNonce = parts.nonce ∧ parts.nonce.length = 12) ↔
        (LooksHex aeadNonce → aeadNonce.toList.length = 24))) ∧
      ∀ ciphertext, decodeEncryptedField C (toHex ciphertext) = ciphertext ∧
        (decodeEncryptedField C (toBase64Url ciphertext) = ciphertext ↔
          ¬ LooksHex (toBase64Url ciphertext)) := by
  constructor
  · intro aeadNonce parts hparts
    obtain ⟨bytes, hbytes, rfl⟩ := (extractSequenceNumber_eq_ok C).mp hparts
    have htwelve := (nonceBytes_cases C hbytes).1
    exact (and_iff_left htwelve).trans (nonces_agree_iff C hbytes)
  · intro ciphertext
    exact ⟨decodeEncryptedField_toHex C (hread []) ciphertext,
      decodeEncryptedField_toBase64Url_iff C hread ciphertext⟩

namespace SpellingRun

/-- The cipher with the decoder of base64url texts. -/
def decoding : SessionCryptoPorts :=
  { ports with base64Bytes := fun text => (fromBase64Url text.toList).getD [] }

theorem decoding_base64Bytes (text : String) :
    decoding.base64Bytes text = (fromBase64Url text.toList).getD [] := rfl

theorem decoding_reads (bytes : List UInt8) :
    decoding.base64Bytes (toBase64Url bytes) = bytes := by
  rw [decoding_base64Bytes, fromBase64Url_toBase64Url, Option.getD_some]

/-- A text of both alphabets: 12 bytes as base64url, 8 as hex. -/
def ambiguous : String := String.ofList ['0', '1', '2', '3', '4', '5', '6', '7', '8', '9', 'a',
  'b', 'c', 'd', 'e', 'f']

/-- The replay check reads one nonce and the cipher another. -/
theorem nonces_part : ∃ parts, extractSequenceNumber decoding ambiguous = .ok parts ∧
    decodeEncryptedField decoding ambiguous ≠ parts.nonce := by
  have htext : ambiguous.toList = _ := String.toList_ofList
  have hread : decoding.base64Bytes ambiguous =
      [0xd3, 0x5d, 0xb7, 0xe3, 0x9e, 0xbb, 0xf3, 0xd6, 0x9b, 0x71, 0xd7, 0x9f] := by
    rw [decoding_base64Bytes, htext, fromBase64Url, base64UrlChars_eq]
    decide +kernel
  have hnonce : nonceBytes decoding ambiguous = .ok (decoding.base64Bytes ambiguous) := by
    rw [nonceBytes, if_neg (by rw [htext]; decide)]
    simp [hread]
  refine ⟨_, (extractSequenceNumber_eq_ok decoding).mpr ⟨_, hnonce, rfl⟩, fun hsame => ?_⟩
  have hlength := (nonces_agree_iff decoding hnonce).mp hsame (by rw [LooksHex, htext]; decide)
  rw [htext] at hlength
  exact absurd hlength (by decide)

/-- The texts of the nonce of the run. -/
theorem nonce_read_back : decodeEncryptedField decoding (toHex nonce) = nonce ∧
    (decodeEncryptedField decoding (toBase64Url nonce) = nonce ↔
      ¬ LooksHex (toBase64Url nonce)) :=
  (decoders_agree_iff decoding decoding_reads).2 nonce

end SpellingRun

end Coivitas.Communication
