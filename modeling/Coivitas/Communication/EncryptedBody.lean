import Coivitas.Communication.SessionCrypto
import Coivitas.Crypto.Signing
import Coivitas.Foundation.Program

/-! # Encrypted envelope bodies

The model of the encrypted path of `envelope.ts`: bodies are written by
`encryptEnvelopeBody` and read by `decryptEnvelopeBody`, which keeps the highest
sequence number seen for a session, a direction and a key identifier.
-/

namespace Coivitas.Communication

open Foundation Coivitas.Types OrderedMap

inductive EncryptedBodyType where
  | business | receipt
  deriving DecidableEq, Repr

/-- An encrypted body as it arrives; its type may be missing. -/
structure EncryptedBody where
  encrypted : Bool := true
  encryptionProtocolVersion : String := "ap/e2e/v1"
  type : Option EncryptedBodyType
  ciphertext : String
  aeadNonce : String
  keyId : String
  aadSummary : Option Json := none
  deriving DecidableEq

variable (C : SessionCryptoPorts)

/-! ## Writing -/

structure EncryptEnvelopeBodyParams where
  sessionId : String
  capabilityTokenRef : String
  aadFields : AeadAadFields
  plaintext : List UInt8
  bodyType : EncryptedBodyType

/-- The body, and the registry whose handle has counted the message. -/
def encryptEnvelopeBody (r : SessionRegistry) (params : EncryptEnvelopeBodyParams) :
    Except Fault EncryptedBody × SessionRegistry :=
  match r.find params.sessionId with
  | none => (.error (cryptoFault "SESSION_NOT_FOUND"
      ("encryptEnvelopeBody: session not found: " ++ params.sessionId)), r)
  | some found =>
      if found.handle.authorizedTokenId ≠ some params.capabilityTokenRef then
        (.error (cryptoFault "SESSION_TOKEN_MISMATCH"
          ("encryptEnvelopeBody: capabilityTokenRef mismatch: expected=" ++
            found.handle.authorizedTokenId.getD "null" ++ " got=" ++ params.capabilityTokenRef)), r)
      else
        ((found.handle.encrypt C params.aadFields params.plaintext).1.map fun sealed =>
            { type := some params.bodyType
              ciphertext := toHex sealed.ciphertext
              aeadNonce := toHex sealed.aeadNonce
              keyId := sealed.keyId
              aadSummary := params.aadFields.aadSummary },
          r.encryptOn C found.entry.currentHandle params.aadFields params.plaintext)

/-! ## Reading -/

/-- The highest sequence number seen, by replay key. -/
abbrev ReplayTracker := OrderedMap String Nat

def replayKey (sessionId : String) (nonceByte0 : UInt8) (keyId : String) : String :=
  sessionId ++ ":" ++ toString nonceByte0.toNat ++ ":" ++ keyId

structure NonceParts where
  seq : Nat
  directionByte : UInt8
  nonce : List UInt8
  deriving DecidableEq

/-- The bytes of a nonce: 24 hex digits of either case, or base64url of 12 bytes. -/
def nonceBytes (aeadNonce : String) : Except Fault (List UInt8) :=
  if aeadNonce.toList.length = 24 ∧ aeadNonce.toList.all Crypto.isHexChar = true then
    .ok (Crypto.hexPairs aeadNonce.toList)
  else
    let bin := C.base64Bytes aeadNonce
    if bin.length ≠ 12 then
      .error (cryptoFault "INVALID_ENCRYPTED_BODY"
        ("Invalid aeadNonce format: nonce length " ++ toString bin.length ++ " !== 12"))
    else .ok bin

def extractSequenceNumber (aeadNonce : String) : Except Fault NonceParts := do
  let bytes ← nonceBytes C aeadNonce
  pure ⟨nonceSequenceNumber bytes, bytes.getD 0 0, bytes⟩

/-- The bytes of a field: hex when it has an even number of hex digits, base64url otherwise. -/
def decodeEncryptedField (value : String) : List UInt8 :=
  if (value.toList ≠ [] ∧ value.toList.all Crypto.isHexChar = true) ∧
      value.toList.length % 2 = 0 then
    Crypto.hexPairs value.toList
  else C.base64Bytes value

structure DecryptEnvelopeBodyParams where
  registry : SessionRegistry
  sessionId : String
  body : EncryptedBody
  aadFields : AeadAadFields
  capabilityTokenRef : String

def checkReplay (params : DecryptEnvelopeBodyParams) (seq : Nat) (maxSeen : Option Nat) :
    Except Fault Unit :=
  refuse (maxSeen.filter (seq ≤ ·)) fun highest => cryptoFault "ENCRYPTED_REPLAY_DETECTED"
    ("decryptEnvelopeBody: replay detected: seq=" ++ toString seq ++ " <= maxSeen=" ++
      toString highest ++ " (session=" ++ params.sessionId ++ " keyId=" ++ params.body.keyId ++ ")")

def routeHandle (params : DecryptEnvelopeBodyParams) : Except Fault SessionCryptoHandle :=
  match params.registry.lookupHandleForDecrypt C params.sessionId params.body.keyId with
  | some handle => .ok handle
  | none => .error (cryptoFault "DECRYPTION_FAILED"
      ("decryptEnvelopeBody: no handle for sessionId=" ++ params.sessionId ++ " keyId=" ++
        params.body.keyId))

/-- Decrypts a body; the tracker is written last, after every check has passed. -/
def decryptEnvelopeBody (params : DecryptEnvelopeBodyParams) :
    Program ReplayTracker Empty Fault (List UInt8) := do
  .ofExcept (require (params.body.type ≠ none) (cryptoFault "INVALID_ENCRYPTED_BODY"
    "decryptEnvelopeBody: EncryptedBody.type is missing (Inv 11)"))
  let parts ← .ofExcept (extractSequenceNumber C params.body.aeadNonce)
  let rKey := replayKey params.sessionId parts.directionByte params.body.keyId
  let tracker ← Program.get
  let maxSeen := tracker.get? rKey
  .ofExcept (checkReplay params parts.seq maxSeen)
  let handle ← .ofExcept (routeHandle C params)
  let plaintext ← .ofExcept (handle.decrypt C params.aadFields
    (decodeEncryptedField C params.body.ciphertext) (decodeEncryptedField C params.body.aeadNonce))
  .ofExcept (require (handle.authorizedTokenId = some params.capabilityTokenRef)
    (cryptoFault "SESSION_TOKEN_MISMATCH"
      ("decryptEnvelopeBody: post-decrypt token mismatch: expected=" ++
        handle.authorizedTokenId.getD "null" ++ " got=" ++ params.capabilityTokenRef)))
  if maxSeen.all (· < parts.seq) then
    Program.modify (·.set rKey parts.seq)
  pure plaintext

/-- The checks of a decryption, which read the tracker and do not write it. -/
def openBody (tracker : ReplayTracker) (params : DecryptEnvelopeBodyParams) :
    Except Fault (String × Nat × List UInt8) := do
  require (params.body.type ≠ none) (cryptoFault "INVALID_ENCRYPTED_BODY"
    "decryptEnvelopeBody: EncryptedBody.type is missing (Inv 11)")
  let parts ← extractSequenceNumber C params.body.aeadNonce
  let rKey := replayKey params.sessionId parts.directionByte params.body.keyId
  checkReplay params parts.seq (tracker.get? rKey)
  let handle ← routeHandle C params
  let plaintext ← handle.decrypt C params.aadFields
    (decodeEncryptedField C params.body.ciphertext) (decodeEncryptedField C params.body.aeadNonce)
  require (handle.authorizedTokenId = some params.capabilityTokenRef)
    (cryptoFault "SESSION_TOKEN_MISMATCH"
      ("decryptEnvelopeBody: post-decrypt token mismatch: expected=" ++
        handle.authorizedTokenId.getD "null" ++ " got=" ++ params.capabilityTokenRef))
  pure (rKey, parts.seq, plaintext)

theorem checkReplay_eq_ok {params : DecryptEnvelopeBodyParams} {seq : Nat} {maxSeen : Option Nat}
    {u : Unit} : checkReplay params seq maxSeen = .ok u ↔ maxSeen.all (· < seq) = true := by
  cases maxSeen with
  | none => simp [checkReplay, refuse]
  | some highest => simp [checkReplay, Option.filter]

/-- A call that passes its checks writes the sequence number; one that throws leaves the
tracker as it was. -/
theorem run_decryptEnvelopeBody (tracker : ReplayTracker) (params : DecryptEnvelopeBodyParams) :
    (decryptEnvelopeBody C params).run tracker =
      match openBody C tracker params with
      | .error fault => ⟨.error fault, tracker, []⟩
      | .ok (rKey, seq, plaintext) => ⟨.ok plaintext, tracker.set rKey seq, []⟩ := by
  unfold decryptEnvelopeBody openBody
  rw [Program.run_ofExcept_bind]
  generalize require (params.body.type ≠ none) _ = typed
  cases typed with
  | error fault => rfl
  | ok u =>
      simp only [Program.run_ofExcept_bind]
      cases extractSequenceNumber C params.body.aeadNonce with
      | error fault => rfl
      | ok parts =>
          simp only [Program.run_get_bind, Program.run_ofExcept_bind]
          cases hreplay : checkReplay params parts.seq
            (tracker.get? (replayKey params.sessionId parts.directionByte params.body.keyId)) with
          | error fault => simp [hreplay, bind, Except.bind]
          | ok u' =>
              have hnewer := checkReplay_eq_ok.mp hreplay
              cases routeHandle C params with
              | error fault => simp [hreplay, bind, Except.bind]
              | ok handle =>
                  cases hopen : handle.decrypt C params.aadFields
                    (decodeEncryptedField C params.body.ciphertext)
                    (decodeEncryptedField C params.body.aeadNonce) with
                  | error fault => simp [hreplay, hopen, bind, Except.bind]
                  | ok plaintext =>
                      by_cases htoken : handle.authorizedTokenId = some params.capabilityTokenRef
                      · simp only [hreplay, hopen, htoken, hnewer, require, bind, Except.bind]
                        rfl
                      · simp [hreplay, hopen, htoken, require, bind, Except.bind]

theorem openBody_eq_ok {tracker : ReplayTracker} {params : DecryptEnvelopeBodyParams}
    {rKey : String} {seq : Nat} {plaintext : List UInt8} :
    openBody C tracker params = .ok (rKey, seq, plaintext) ↔
      params.body.type ≠ none ∧ ∃ bytes, nonceBytes C params.body.aeadNonce = .ok bytes ∧
        rKey = replayKey params.sessionId (bytes.getD 0 0) params.body.keyId ∧
        seq = nonceSequenceNumber bytes ∧ (tracker.get? rKey).all (· < seq) = true ∧
        ∃ handle, routeHandle C params = .ok handle ∧
          handle.decrypt C params.aadFields (decodeEncryptedField C params.body.ciphertext)
            (decodeEncryptedField C params.body.aeadNonce) = .ok plaintext ∧
          handle.authorizedTokenId = some params.capabilityTokenRef := by
  simp only [openBody, extractSequenceNumber, bind_eq_ok, require_eq_ok, exists_unit, pure_eq_ok,
    checkReplay_eq_ok, Prod.mk.injEq]
  constructor
  · rintro ⟨htype, parts, ⟨bytes, hbytes, rfl⟩, hnewer, handle, hroute, _, hopen, htoken, rfl, rfl,
      rfl⟩
    exact ⟨htype, bytes, hbytes, rfl, rfl, hnewer, handle, hroute, hopen, htoken⟩
  · rintro ⟨htype, bytes, hbytes, rfl, rfl, hnewer, handle, hroute, hopen, htoken⟩
    exact ⟨htype, _, ⟨bytes, hbytes, rfl⟩, hnewer, handle, hroute, _, hopen, htoken, rfl, rfl, rfl⟩

/-- The two readers of a nonce agree where the second one reads 12 bytes. -/
theorem decodeEncryptedField_eq_nonceBytes {aeadNonce : String} {bytes : List UInt8}
    (hbytes : nonceBytes C aeadNonce = .ok bytes)
    (hlength : (decodeEncryptedField C aeadNonce).length = 12) :
    decodeEncryptedField C aeadNonce = bytes := by
  unfold nonceBytes at hbytes
  unfold decodeEncryptedField at hlength ⊢
  split at hbytes
  next hhex =>
    have hnonempty : aeadNonce.toList ≠ [] := by
      intro hempty
      simp [hempty] at hhex
    have heven : aeadNonce.toList.length % 2 = 0 := by rw [hhex.1]
    rw [if_pos ⟨⟨hnonempty, hhex.2⟩, heven⟩]
    exact Except.ok.inj hbytes
  next hnot =>
    split at hlength
    next hhex =>
      rw [Crypto.length_hexPairs] at hlength
      exact absurd ⟨by omega, hhex.1.2⟩ hnot
    next hbase =>
      rw [if_neg hbase]
      dsimp only at hbytes
      split at hbytes
      next => cases hbytes
      next => exact Except.ok.inj hbytes

theorem routeHandle_eq_ok {params : DecryptEnvelopeBodyParams} {handle : SessionCryptoHandle} :
    routeHandle C params = .ok handle ↔
      params.registry.lookupHandleForDecrypt C params.sessionId params.body.keyId =
        some handle := by
  unfold routeHandle
  split
  next h hget => simp [hget]
  next hget => simp [hget]

/-! ## What is written is read back -/

/-- A field written in hex is read back. -/
theorem decodeEncryptedField_toHex (hempty : C.base64Bytes "" = []) (bytes : List UInt8) :
    decodeEncryptedField C (toHex bytes) = bytes := by
  cases bytes with
  | nil => exact hempty
  | cons b bytes =>
      unfold decodeEncryptedField toHex
      rw [String.toList_ofList, if_pos]
      · exact Crypto.hexPairs_flatMap_hexByte _
      · refine ⟨⟨by simp [hexByte], Crypto.all_isHexChar_flatMap_hexByte _⟩, ?_⟩
        rw [Crypto.length_flatMap_hexByte]
        omega

theorem nonceBytes_toHex {nonce : List UInt8} (hlength : nonce.length = 12) :
    nonceBytes C (toHex nonce) = .ok nonce := by
  unfold nonceBytes toHex
  rw [String.toList_ofList, if_pos, Crypto.hexPairs_flatMap_hexByte]
  refine ⟨?_, Crypto.all_isHexChar_flatMap_hexByte _⟩
  rw [Crypto.length_flatMap_hexByte, hlength]

theorem colon_notMem_toHex (bytes : List UInt8) : ':' ∉ (toHex bytes).toList := by
  rw [toHex, String.toList_ofList]
  intro hmem
  have hcolon := List.all_eq_true.mp (Crypto.all_isHexChar_flatMap_hexByte bytes) ':' hmem
  exact absurd hcolon (by decide)

theorem append_colon_inj {a a' b b' : List Char} (hb : ':' ∉ b) (hb' : ':' ∉ b')
    (h : a ++ ':' :: b = a' ++ ':' :: b') : a = a' ∧ b = b' := by
  rcases List.append_eq_append_iff.mp h with ⟨c, ha', hc⟩ | ⟨c, ha, hc⟩
  · cases c with
    | nil => exact ⟨by simp [ha'], by simpa using hc⟩
    | cons d c =>
        rw [List.cons_append, List.cons.injEq] at hc
        exact absurd (by simp [hc.2]) hb
  · cases c with
    | nil => exact ⟨by simp [ha], by simpa using hc.symm⟩
    | cons d c =>
        rw [List.cons_append, List.cons.injEq] at hc
        exact absurd (by simp [hc.2]) hb'

/-- A replay key tells its parts apart when the key identifiers have no colon. -/
theorem replayKey_inj {sessionId sessionId' keyId keyId' : String} {byte byte' : UInt8}
    (hkeyId : ':' ∉ keyId.toList) (hkeyId' : ':' ∉ keyId'.toList)
    (h : replayKey sessionId byte keyId = replayKey sessionId' byte' keyId') :
    sessionId = sessionId' ∧ byte = byte' ∧ keyId = keyId' := by
  have hdigits : ∀ n : Nat, ':' ∉ (toString n).toList := by
    intro n hmem
    rw [show toString n = String.ofList (Nat.toDigits 10 n) from Nat.repr_eq_ofList_toDigits,
      String.toList_ofList] at hmem
    exact absurd (NumberFormat.isDigit_of_mem_toDigits hmem) (by decide)
  have hlist : ∀ (sessionId keyId : String) (byte : UInt8),
      (replayKey sessionId byte keyId).toList =
        (sessionId.toList ++ ':' :: (toString byte.toNat).toList) ++ ':' :: keyId.toList := by
    intro sessionId keyId byte
    simp [replayKey, String.toList_append]
  have hlists := congrArg String.toList h
  rw [hlist, hlist] at hlists
  obtain ⟨hfront, hlast⟩ := append_colon_inj hkeyId hkeyId' hlists
  obtain ⟨hsession, hbyte⟩ := append_colon_inj (hdigits _) (hdigits _) hfront
  refine ⟨String.toList_injective hsession, ?_, String.toList_injective hlast⟩
  exact UInt8.toNat_inj.mp (toString_nat_injective (String.toList_injective hbyte))

end Coivitas.Communication
