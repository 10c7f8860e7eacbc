import Coivitas.Foundation.BigEndian
import Coivitas.Foundation.Json
import Coivitas.Foundation.OrderedMap
import Coivitas.Foundation.Outcome
import Coivitas.Foundation.Bytes
import Coivitas.Types.Errors

/-! # Encrypted sessions

The model of `session/crypto-state.ts`, `session-registry.ts` and of the rekey
derivation, key identifiers, nonces and associated data of `crypto/src/encryption.ts`.
A registry refers to its handles; a handle that it no longer refers to can still be
held by a caller, so every handle ever made stays on a heap.
-/

namespace Coivitas.Communication

open Foundation Coivitas.Types OrderedMap

/-- What encrypted sessions use of the hash, key derivation and cipher packages, and the
lenient base64url reader of the platform, `Buffer.from(text, 'base64url')`. -/
structure SessionCryptoPorts where
  numberFormat : NumberFormat
  sha256 : List UInt8 → List UInt8
  hkdfExtract : List UInt8 → List UInt8 → List UInt8
  hkdfExpand : List UInt8 → List UInt8 → Nat → List UInt8
  gcmEncrypt (key nonce aad plaintext : List UInt8) : Except Fault (List UInt8)
  gcmDecrypt (key nonce aad ciphertext : List UInt8) : Except Fault (List UInt8)
  base64Bytes : String → List UInt8

variable (C : SessionCryptoPorts)

/-! ## Keys, nonces and associated data -/

inductive Direction where
  | initToResp | respToInit
  deriving DecidableEq, Repr

def Direction.text : Direction → String
  | initToResp => "init_to_resp"
  | respToInit => "resp_to_init"

def Direction.byte : Direction → UInt8
  | initToResp => 0x01
  | respToInit => 0x02

inductive SessionRole where
  | initiator | responder
  deriving DecidableEq, Repr

def ownDirection : SessionRole → Direction
  | .initiator => .initToResp
  | .responder => .respToInit

def peerDirection : SessionRole → Direction
  | .initiator => .respToInit
  | .responder => .initToResp

structure TrafficKeys where
  initToResp : List UInt8
  respToInit : List UInt8
  deriving DecidableEq

def TrafficKeys.key (keys : TrafficKeys) : Direction → List UInt8
  | .initToResp => keys.initToResp
  | .respToInit => keys.respToInit

structure NewSessionData where
  trafficKeys : TrafficKeys
  sessionSalt : List UInt8
  rekeyChainKey : List UInt8
  generation : Nat
  deriving DecidableEq

structure RekeyKeys where
  initToResp : List UInt8
  respToInit : List UInt8
  rekeyChainKey : List UInt8
  deriving DecidableEq

/-- The next traffic keys and chain key; the previous traffic keys are not used. -/
def deriveChainKeyRekeyKeys (prevRekeyChainKey _prevInitToResp _prevRespToInit : List UInt8) :
    RekeyKeys :=
  let prk := C.hkdfExtract prevRekeyChainKey prevRekeyChainKey
  { initToResp := C.hkdfExpand prk (utf8 "ap/e2e/v1/traffic/init->resp/key") 32
    respToInit := C.hkdfExpand prk (utf8 "ap/e2e/v1/traffic/resp->init/key") 32
    rekeyChainKey := C.hkdfExpand prk (utf8 "ap/e2e/v1/rekey/chain-key") 32 }

/-- The hex text of 16 bytes of the hash of a key and its generation. -/
def computeKeyId (directionKey : List UInt8) (generation : Nat) : String :=
  let genBytes := bigEndian 4 (generation / 2 ^ 32) ++ bigEndian 4 (generation % 2 ^ 32)
  toHex ((C.sha256 (directionKey ++ genBytes)).take 16)

/-- A direction byte, the sequence number in two words and three bytes of salt. -/
def buildAeadNonce (direction : Direction) (sequenceNumber : Nat) (sessionSalt : List UInt8) :
    List UInt8 :=
  direction.byte :: (bigEndian 4 (sequenceNumber / 2 ^ 32) ++
    bigEndian 4 (sequenceNumber % 2 ^ 32) ++
    [sessionSalt.getD 0 0, sessionSalt.getD 1 0, sessionSalt.getD 2 0])

/-- The number in the bytes 1 to 8 of a nonce; a missing byte counts as zero. -/
def nonceSequenceNumber (nonce : List UInt8) : Nat :=
  (List.range 8).foldl (fun seq i => seq * 256 + (nonce.getD (i + 1) 0).toNat) 0

theorem buildAeadNonce_eq (direction : Direction) (seq : Nat) (salt : List UInt8) :
    buildAeadNonce direction seq salt = direction.byte ::
      (bigEndian 8 seq ++ [salt.getD 0 0, salt.getD 1 0, salt.getD 2 0]) := by
  have hword : (2 : Nat) ^ 32 = 256 ^ 4 := rfl
  rw [buildAeadNonce, hword, bigEndian_mod, bigEndian_append]

theorem length_buildAeadNonce (direction : Direction) (seq : Nat) (salt : List UInt8) :
    (buildAeadNonce direction seq salt).length = 12 := by
  simp [buildAeadNonce]

/-- The words of a nonce hold 64 bits of the sequence number. -/
theorem nonceSequenceNumber_buildAeadNonce (direction : Direction) (seq : Nat)
    (salt : List UInt8) :
    nonceSequenceNumber (buildAeadNonce direction seq salt) = seq % 2 ^ 64 := by
  have hread : nonceSequenceNumber (buildAeadNonce direction seq salt) =
      readBigEndian 0 (bigEndian 8 seq) := by
    rw [buildAeadNonce_eq]
    rfl
  rw [hread, readBigEndian_bigEndian, Nat.zero_mul, Nat.zero_add]
  rfl

theorem Direction.byte_injective : Function.Injective Direction.byte := by
  intro d d'
  cases d <;> cases d' <;> decide

/-- A nonce determines the direction and a sequence number of 64 bits. -/
theorem buildAeadNonce_inj {direction direction' : Direction} {seq seq' : Nat}
    {salt salt' : List UInt8} (hseq : seq < 2 ^ 64) (hseq' : seq' < 2 ^ 64)
    (h : buildAeadNonce direction seq salt = buildAeadNonce direction' seq' salt') :
    direction = direction' ∧ seq = seq' := by
  refine ⟨?_, ?_⟩
  · exact Direction.byte_injective (List.cons.inj h).1
  · have hread := congrArg nonceSequenceNumber h
    rwa [nonceSequenceNumber_buildAeadNonce, nonceSequenceNumber_buildAeadNonce,
      Nat.mod_eq_of_lt hseq, Nat.mod_eq_of_lt hseq'] at hread

/-- What the caller gives to the associated data. -/
structure AeadAadFields where
  envelopeId : String
  messageType : String
  aadSummary : Option Json := none
  deriving DecidableEq

structure AeadAadParams where
  fields : AeadAadFields
  direction : Direction
  keyId : String
  sequenceNumber : Nat
  sessionId : String
  tokenId : Option String

def AeadAadParams.toJson (params : AeadAadParams) : Json :=
  .obj [("aadSummary", params.fields.aadSummary.getD .null),
    ("direction", .str params.direction.text), ("envelopeId", .str params.fields.envelopeId),
    ("keyId", .str params.keyId), ("messageType", .str params.fields.messageType),
    ("sequenceNumber", .str (toString params.sequenceNumber)),
    ("sessionId", .str params.sessionId),
    ("tokenId", (params.tokenId.map Json.str).getD .null)]

def buildAeadBytes (params : AeadAadParams) : List UInt8 :=
  utf8 (Json.canonicalize C.numberFormat params.toJson)

theorem toString_nat_injective : Function.Injective (toString : Nat → String) := by
  intro m n h
  apply NumberFormat.toDigits_injective
  apply String.ofList_injective
  rw [← Nat.repr_eq_ofList_toDigits, ← Nat.repr_eq_ofList_toDigits]
  exact h

theorem Direction.text_injective : Function.Injective Direction.text := by
  intro d d'
  cases d <;> cases d' <;> simp [Direction.text]

/-- The associated data determine the direction, the key identifier, the sequence number and
the session. -/
theorem buildAeadBytes_inj {params params' : AeadAadParams}
    (h : buildAeadBytes C params = buildAeadBytes C params') :
    params.direction = params'.direction ∧ params.keyId = params'.keyId ∧
      params.sequenceNumber = params'.sequenceNumber ∧ params.sessionId = params'.sessionId := by
  have hlookup := Json.lookup_of_sortKeys_eq (by simp) (by simp)
    ((Json.canonicalize_eq_iff C.numberFormat).mp (utf8_injective h))
  have hdirection := hlookup "direction"
  have hkeyId := hlookup "keyId"
  have hseq : toString params.sequenceNumber = toString params'.sequenceNumber := by
    simpa [lookupList, Json.sortKeys] using hlookup "sequenceNumber"
  have hsession := hlookup "sessionId"
  simp [lookupList, Json.sortKeys] at hdirection hkeyId hsession
  exact ⟨Direction.text_injective hdirection, hkeyId, toString_nat_injective hseq, hsession⟩

/-- The arguments of one encryption. -/
structure AeadCall where
  key : List UInt8
  nonce : List UInt8
  aad : List UInt8
  plaintext : List UInt8
  deriving DecidableEq

def aeadEncrypt (call : AeadCall) : Except Fault (List UInt8) :=
  C.gcmEncrypt call.key call.nonce call.aad call.plaintext

/-- The cipher is called, and the call kept on record. -/
def callCipher (call : AeadCall) : Except Fault (List UInt8) × List AeadCall :=
  (aeadEncrypt C call, [call])

def aeadDecrypt (key nonce aad ciphertext : List UInt8) : Except Fault (List UInt8) :=
  C.gcmDecrypt key nonce aad ciphertext

/-! ## Handles -/

inductive SessionHandleState where
  | active | pendingRekey | closed | revoked
  deriving DecidableEq, Repr

def SessionHandleState.text : SessionHandleState → String
  | active => "ACTIVE"
  | pendingRekey => "PENDING_REKEY"
  | closed => "CLOSED"
  | revoked => "REVOKED"

structure SessionCryptoHandle where
  sessionId : String
  generation : Nat
  role : SessionRole
  authorizedTokenId : Option String
  state : SessionHandleState
  trafficKeys : TrafficKeys
  sessionSalt : List UInt8
  rekeyChainKey : List UInt8
  sequenceNumber : Nat := 0
  zeroized : Bool := false
  deriving DecidableEq

def cryptoFault (code detail : String) : Fault := .protocol ⟨.other code, detail, none⟩

def internalFault (detail : String) : Fault := .protocol ⟨.internalError, detail, none⟩

structure EncryptResult where
  ciphertext : List UInt8
  aeadNonce : List UInt8
  keyId : String
  deriving DecidableEq

namespace SessionCryptoHandle

variable (h : SessionCryptoHandle)

def ownKey : List UInt8 := h.trafficKeys.key (ownDirection h.role)

def peerKey : List UInt8 := h.trafficKeys.key (peerDirection h.role)

def keyId : String := computeKeyId C h.ownKey h.generation

def peerKeyId : String := computeKeyId C h.peerKey h.generation

/-- The state check that encryption and decryption begin with. -/
def checkState (operation : String) : Except Fault Unit :=
  require (h.state ≠ .closed ∧ h.state ≠ .revoked)
    (cryptoFault "SESSION_HANDLE_REVOKED"
      (operation ++ " rejected: handle state=" ++ h.state.text))

def checkEncrypt : Except Fault Unit := do
  h.checkState "encrypt"
  require (h.authorizedTokenId ≠ none) (cryptoFault "SESSION_HANDLE_REVOKED"
    "encrypt rejected: authorizedTokenId is null in encrypted session")

/-- The call that the next encryption makes. -/
def nextCall (fields : AeadAadFields) (plaintext : List UInt8) : AeadCall where
  key := h.ownKey
  nonce := buildAeadNonce (ownDirection h.role) h.sequenceNumber h.sessionSalt
  aad := buildAeadBytes C
    { fields, direction := ownDirection h.role, keyId := h.keyId C
      sequenceNumber := h.sequenceNumber, sessionId := h.sessionId
      tokenId := h.authorizedTokenId }
  plaintext := plaintext

/-- What an encryption returns, the handle it leaves and the calls it made to the cipher. -/
structure Encryption where
  result : Except Fault EncryptResult
  handle : SessionCryptoHandle
  calls : List AeadCall

/-- Encrypts; the sequence number is taken before the cipher is called, so a call that
throws in the cipher has used it up. -/
def runEncrypt (fields : AeadAadFields) (plaintext : List UInt8) : Encryption :=
  match h.checkEncrypt with
  | .error fault => ⟨.error fault, h, []⟩
  | .ok () =>
      let call := h.nextCall C fields plaintext
      let (ciphertext, calls) := callCipher C call
      ⟨ciphertext.map fun ciphertext => ⟨ciphertext, call.nonce, h.keyId C⟩,
        { h with sequenceNumber := h.sequenceNumber + 1 }, calls⟩

def encrypt (fields : AeadAadFields) (plaintext : List UInt8) :
    Except Fault EncryptResult × SessionCryptoHandle :=
  let encryption := h.runEncrypt C fields plaintext
  (encryption.result, encryption.handle)

theorem encrypt_eq (fields : AeadAadFields) (plaintext : List UInt8) :
    h.encrypt C fields plaintext = match h.checkEncrypt with
      | .error fault => (.error fault, h)
      | .ok () => ((aeadEncrypt C (h.nextCall C fields plaintext)).map fun ciphertext =>
          ⟨ciphertext, (h.nextCall C fields plaintext).nonce, h.keyId C⟩,
          { h with sequenceNumber := h.sequenceNumber + 1 }) := by
  unfold encrypt runEncrypt
  cases h.checkEncrypt with
  | error fault => rfl
  | ok _ => rfl

theorem runEncrypt_calls (fields : AeadAadFields) (plaintext : List UInt8) :
    (h.runEncrypt C fields plaintext).calls = match h.checkEncrypt with
      | .error _ => []
      | .ok () => [h.nextCall C fields plaintext] := by
  unfold runEncrypt
  cases h.checkEncrypt with
  | error fault => rfl
  | ok _ => rfl

/-- The associated data that a received nonce is checked against. -/
def peerAad (fields : AeadAadFields) (nonce : List UInt8) : List UInt8 :=
  buildAeadBytes C
    { fields, direction := peerDirection h.role, keyId := h.peerKeyId C
      sequenceNumber := nonceSequenceNumber nonce, sessionId := h.sessionId
      tokenId := h.authorizedTokenId }

def decrypt (fields : AeadAadFields) (ciphertext aeadNonce : List UInt8) :
    Except Fault (List UInt8) := do
  h.checkState "decrypt"
  (aeadDecrypt C h.peerKey aeadNonce (h.peerAad C fields aeadNonce) ciphertext).mapError
    fun _ => cryptoFault "DECRYPTION_FAILED" "AEAD authentication tag verification failed"

/-- `bytes.fill(0)`. -/
def fillZero (bytes : List UInt8) : List UInt8 := List.replicate bytes.length 0

def zeroize : SessionCryptoHandle :=
  if h.zeroized then h
  else
    { h with
      trafficKeys := ⟨fillZero h.trafficKeys.initToResp, fillZero h.trafficKeys.respToInit⟩
      sessionSalt := fillZero h.sessionSalt
      rekeyChainKey := fillZero h.rekeyChainKey
      zeroized := true
      state := .closed }

def setState (state : SessionHandleState) : SessionCryptoHandle := { h with state }

end SessionCryptoHandle

/-! ## The registry -/

/-- References to the handles of a session, and whether the timer of its dual-key window
is running. -/
structure RegistryEntry where
  currentHandle : Nat
  previousHandle : Option Nat
  dualKeyTimer : Bool
  deriving DecidableEq

def RegistryEntry.references (entry : RegistryEntry) : List Nat :=
  entry.currentHandle :: entry.previousHandle.toList

/-- The handles ever made and the entries of the open sessions, which refer to handles
of their own session; the previous handle was made before the current one. -/
structure SessionRegistry where
  handles : List SessionCryptoHandle
  entries : OrderedMap String RegistryEntry
  owned : ∀ sessionId entry, entries.get? sessionId = some entry → ∀ ref ∈ entry.references,
    ∃ h, handles[ref]? = some h ∧ h.sessionId = sessionId
  older : ∀ sessionId entry, entries.get? sessionId = some entry →
    ∀ ref ∈ entry.previousHandle, ref < entry.currentHandle

namespace SessionRegistry

def empty : SessionRegistry := ⟨[], .empty, by simp, by simp⟩

/-- A change of one handle that leaves its session alone. -/
def alter (r : SessionRegistry) (ref : Nat) (f : SessionCryptoHandle → SessionCryptoHandle)
    (hf : ∀ h, (f h).sessionId = h.sessionId) : SessionRegistry where
  handles := r.handles.modify ref f
  entries := r.entries
  owned := by
    intro sessionId entry hentry ref' href'
    obtain ⟨h, hget, hsession⟩ := r.owned sessionId entry hentry ref' href'
    rw [List.getElem?_modify, hget]
    by_cases hsame : ref = ref'
    · exact ⟨f h, by simp [hsame], by rw [hf, hsession]⟩
    · exact ⟨h, by simp [hsame], hsession⟩
  older := r.older

/-- A new handle with the entry that refers to it, next to an older handle or alone. -/
def install (r : SessionRegistry) (handle : SessionCryptoHandle) (previousHandle : Option Nat)
    (hprevious : ∀ ref ∈ previousHandle, ∃ h, r.handles[ref]? = some h ∧
      h.sessionId = handle.sessionId) : SessionRegistry where
  handles := r.handles ++ [handle]
  entries := r.entries.set handle.sessionId
    ⟨r.handles.length, previousHandle, previousHandle.isSome⟩
  owned := by
    intro sessionId entry hentry ref href
    rw [get?_set] at hentry
    have hkeep : ∀ {ref h}, r.handles[ref]? = some h → (r.handles ++ [handle])[ref]? = some h :=
      fun hget => List.getElem?_append_left (List.getElem?_eq_some_iff.mp hget).1 ▸ hget
    split at hentry
    next hsession =>
      obtain rfl := Option.some.inj hentry
      simp only [RegistryEntry.references, List.mem_cons, Option.mem_toList] at href
      rcases href with rfl | href
      · exact ⟨handle, by simp, hsession⟩
      · obtain ⟨h, hget, hown⟩ := hprevious ref href
        exact ⟨h, hkeep hget, hown.trans hsession⟩
    next =>
      obtain ⟨h, hget, hown⟩ := r.owned sessionId entry hentry ref href
      exact ⟨h, hkeep hget, hown⟩
  older := by
    intro sessionId entry hentry ref href
    rw [get?_set] at hentry
    split at hentry
    next =>
      obtain rfl := Option.some.inj hentry
      obtain ⟨h, hget, -⟩ := hprevious ref href
      exact (List.getElem?_eq_some_iff.mp hget).1
    next => exact r.older sessionId entry hentry ref href

/-- The entry of an open session with its current handle. -/
structure Found (r : SessionRegistry) (sessionId : String) where
  entry : RegistryEntry
  handle : SessionCryptoHandle
  get_entry : r.entries.get? sessionId = some entry
  get_handle : r.handles[entry.currentHandle]? = some handle

def find (r : SessionRegistry) (sessionId : String) : Option (Found r sessionId) :=
  match hentry : r.entries.get? sessionId with
  | none => none
  | some entry =>
      match hhandle : r.handles[entry.currentHandle]? with
      | none => none
      | some handle => some ⟨entry, handle, hentry, hhandle⟩

theorem Found.sessionId_eq {r : SessionRegistry} {sessionId : String}
    (found : Found r sessionId) : found.handle.sessionId = sessionId := by
  obtain ⟨h, hget, hsession⟩ := r.owned sessionId found.entry found.get_entry
    found.entry.currentHandle List.mem_cons_self
  rw [found.get_handle] at hget
  obtain rfl := Option.some.inj hget
  exact hsession

/-- A session is found exactly when it has an entry. -/
theorem find_eq_none_iff {r : SessionRegistry} {sessionId : String} :
    r.find sessionId = none ↔ r.entries.get? sessionId = none := by
  unfold find
  split
  next hentry => simp [hentry]
  next entry hentry =>
    obtain ⟨h, hget, -⟩ := r.owned sessionId entry hentry entry.currentHandle List.mem_cons_self
    split
    next hhandle => simp [hget] at hhandle
    next => simp [hentry]

def createSession (r : SessionRegistry) (sessionId : String) (role : SessionRole)
    (authorizedTokenId : Option String) (data : NewSessionData) : Except Fault SessionRegistry := do
  require (r.entries.has sessionId = false)
    (internalFault ("createSession: sessionId=" ++ sessionId ++ " already registered"))
  pure (r.install
    { sessionId, generation := data.generation, role, authorizedTokenId, state := .active
      trafficKeys := data.trafficKeys, sessionSalt := data.sessionSalt
      rekeyChainKey := data.rekeyChainKey } none (by simp))

/-- The current handle. -/
def lookupHandle (r : SessionRegistry) (sessionId : String) : Option Nat :=
  (r.find sessionId).map (·.entry.currentHandle)

/-- The handle whose peer uses the key identifier, current or previous. -/
def lookupHandleForDecrypt (r : SessionRegistry) (sessionId keyId : String) :
    Option SessionCryptoHandle :=
  match r.find sessionId with
  | none => none
  | some found =>
      if found.handle.peerKeyId C = keyId then some found.handle
      else (found.entry.previousHandle.bind (r.handles[·]?)).filter (·.peerKeyId C = keyId)

/-- A handle is routed to by its session and the key identifier of its peer. -/
theorem lookupHandleForDecrypt_eq_some {r : SessionRegistry} {sessionId keyId : String}
    {h : SessionCryptoHandle} (hlookup : r.lookupHandleForDecrypt C sessionId keyId = some h) :
    h.sessionId = sessionId ∧ h.peerKeyId C = keyId := by
  unfold lookupHandleForDecrypt at hlookup
  split at hlookup
  next => cases hlookup
  next found hfound =>
    split at hlookup
    next hcurrent =>
      obtain rfl := Option.some.inj hlookup
      exact ⟨found.sessionId_eq, hcurrent⟩
    next =>
      rw [Option.filter_eq_some_iff, Option.bind_eq_some_iff] at hlookup
      obtain ⟨⟨ref, href, hget⟩, hkeyId⟩ := hlookup
      have hmem : ref ∈ found.entry.references := by simp [RegistryEntry.references, href]
      obtain ⟨h', hget', hsession⟩ := r.owned sessionId found.entry found.get_entry ref hmem
      rw [hget] at hget'
      obtain rfl := Option.some.inj hget'
      exact ⟨hsession, of_decide_eq_true hkeyId⟩

/-- The handle of a new generation, with the role and token of the old one. -/
def successor (old : SessionCryptoHandle) (data : NewSessionData) : SessionCryptoHandle where
  sessionId := old.sessionId
  generation := data.generation
  role := old.role
  authorizedTokenId := old.authorizedTokenId
  state := .pendingRekey
  trafficKeys := data.trafficKeys
  sessionSalt := data.sessionSalt
  rekeyChainKey := data.rekeyChainKey

def swapForDualKey (r : SessionRegistry) (sessionId : String) (newSession : NewSessionData) :
    Except Fault SessionRegistry :=
  match r.find sessionId with
  | none => .error (internalFault ("swapForDualKey: sessionId=" ++ sessionId ++ " not found"))
  | some found =>
      if found.handle.state = .pendingRekey then .ok r
      else
        .ok (r.install (successor found.handle newSession) (some found.entry.currentHandle)
          (fun _ href => ⟨found.handle, Option.some.inj href ▸ found.get_handle, rfl⟩))

/-- The data of the generation that follows a handle. -/
def nextGeneration (old : SessionCryptoHandle) : NewSessionData :=
  let derived := deriveChainKeyRekeyKeys C old.rekeyChainKey old.trafficKeys.initToResp
    old.trafficKeys.respToInit
  { trafficKeys := ⟨derived.initToResp, derived.respToInit⟩
    sessionSalt := old.sessionSalt
    rekeyChainKey := derived.rekeyChainKey
    generation := old.generation + 1 }

def swapForDualKeyChainMode (r : SessionRegistry) (sessionId : String) :
    Except Fault SessionRegistry :=
  match r.find sessionId with
  | none =>
      .error (internalFault ("swapForDualKeyChainMode: sessionId=" ++ sessionId ++ " not found"))
  | some found =>
      if found.handle.state = .pendingRekey then .ok r
      else r.swapForDualKey sessionId (nextGeneration C found.handle)

theorem sessionId_zeroize (h : SessionCryptoHandle) : h.zeroize.sessionId = h.sessionId := by
  unfold SessionCryptoHandle.zeroize
  split <;> rfl

/-- Zeroize the handles in turn. -/
def zeroizeAll (r : SessionRegistry) (refs : List Nat) : SessionRegistry :=
  refs.foldl (fun r ref => r.alter ref SessionCryptoHandle.zeroize sessionId_zeroize) r

/-- `_setState('ACTIVE')` on a handle that waits for the window to end. -/
def activate (h : SessionCryptoHandle) : SessionCryptoHandle :=
  if h.state = .pendingRekey then h.setState .active else h

theorem sessionId_activate (h : SessionCryptoHandle) : (activate h).sessionId = h.sessionId := by
  unfold activate
  split <;> rfl

/-- The entry without its previous handle and timer. -/
def endWindow (r : SessionRegistry) (sessionId : String) : SessionRegistry where
  handles := r.handles
  entries := match r.entries.get? sessionId with
    | none => r.entries
    | some entry =>
        r.entries.set sessionId { entry with previousHandle := none, dualKeyTimer := false }
  owned := by
    intro sessionId' entry' hentry' ref href
    split at hentry'
    next => exact r.owned sessionId' entry' hentry' ref href
    next entry hentry =>
      rw [get?_set] at hentry'
      split at hentry'
      next hsame =>
        obtain rfl := Option.some.inj hentry'
        refine r.owned sessionId' entry (hsame ▸ hentry) ref ?_
        simp only [RegistryEntry.references, Option.toList_none, List.mem_singleton] at href
        exact href ▸ List.mem_cons_self
      next => exact r.owned sessionId' entry' hentry' ref href
  older := by
    intro sessionId' entry' hentry' ref href
    split at hentry'
    next => exact r.older sessionId' entry' hentry' ref href
    next entry hentry =>
      rw [get?_set] at hentry'
      split at hentry'
      next =>
        obtain rfl := Option.some.inj hentry'
        cases href
      next => exact r.older sessionId' entry' hentry' ref href

/-- What the timer of the dual-key window runs. -/
def expireDualKeyWindow (r : SessionRegistry) (sessionId : String) : SessionRegistry :=
  match r.find sessionId with
  | none => r
  | some found =>
      ((r.zeroizeAll found.entry.previousHandle.toList).alter found.entry.currentHandle activate
        sessionId_activate).endWindow sessionId

def remove (r : SessionRegistry) (sessionId : String) : SessionRegistry where
  handles := r.handles
  entries := r.entries.delete sessionId
  owned := by
    intro sessionId' entry hentry
    rw [OrderedMap.delete, get?_filter, Option.filter_eq_some_iff] at hentry
    exact r.owned sessionId' entry hentry.1
  older := by
    intro sessionId' entry hentry
    rw [OrderedMap.delete, get?_filter, Option.filter_eq_some_iff] at hentry
    exact r.older sessionId' entry hentry.1

/-- Closes a session for whatever reason. -/
def closeSession (r : SessionRegistry) (sessionId : String) : SessionRegistry :=
  match r.find sessionId with
  | none => r
  | some found => (r.zeroizeAll found.entry.references).remove sessionId

/-- `handle.encrypt` on a handle that a caller holds. -/
def encryptOn (r : SessionRegistry) (ref : Nat) (fields : AeadAadFields) (plaintext : List UInt8) :
    SessionRegistry :=
  r.alter ref (fun h => (h.encrypt C fields plaintext).2) fun h => by
    rw [SessionCryptoHandle.encrypt_eq]
    split <;> rfl

/-- The registry after an operation; one that throws has changed nothing. -/
def after (r : SessionRegistry) : Except Fault SessionRegistry → SessionRegistry
  | .ok r' => r'
  | .error _ => r

end SessionRegistry

/-- What changes a registry: the calls of its users and the timers of its windows. -/
inductive RegistryCall where
  | createSession (sessionId : String) (role : SessionRole) (authorizedTokenId : Option String)
      (data : NewSessionData)
  | swapForDualKey (sessionId : String) (newSession : NewSessionData)
  | swapForDualKeyChainMode (sessionId : String)
  | expireDualKeyWindow (sessionId : String)
  | closeSession (sessionId : String)
  deriving DecidableEq

def RegistryCall.sessionId : RegistryCall → String
  | createSession sessionId _ _ _ => sessionId
  | swapForDualKey sessionId _ => sessionId
  | swapForDualKeyChainMode sessionId => sessionId
  | expireDualKeyWindow sessionId => sessionId
  | closeSession sessionId => sessionId

/-- The registry after a call; a timer fires only while it runs. -/
def SessionRegistry.apply (r : SessionRegistry) : RegistryCall → Option SessionRegistry
  | .createSession sessionId role authorizedTokenId data =>
      some (r.after (r.createSession sessionId role authorizedTokenId data))
  | .swapForDualKey sessionId newSession => some (r.after (r.swapForDualKey sessionId newSession))
  | .swapForDualKeyChainMode sessionId => some (r.after (r.swapForDualKeyChainMode C sessionId))
  | .expireDualKeyWindow sessionId =>
      if (r.entries.get? sessionId).any (·.dualKeyTimer) then
        some (r.expireDualKeyWindow sessionId)
      else none
  | .closeSession sessionId => some (r.closeSession sessionId)

/-! ## A session whose keys are known

The hash and the derived keys of one session before and after a rekey, and a cipher that knows the
messages of a run. -/

namespace SampleSession

def data : NewSessionData where
  trafficKeys :=
    { initToResp := bigEndian 32 0x6b5f7911a132fdf4289c27d14d05cec71f15bd0c61622056e28781842e3df1d4
      respToInit := bigEndian 32 0x684d3820b56311ba9522829d80b6b01c8e6bd22c454a8a9c8ba2b79564fb6e0d }
  sessionSalt := bigEndian 32 0x6182e91aab6c3f248b4d83ee6ddf06bdd95733257552de0321b4d8e1bee322cb
  rekeyChainKey := bigEndian 32 0xe31532cfad9cc5dc10a9befe2c2653339061c4f965b659c071f1853a7ab2c7bb
  generation := 0

def rekeyed : RekeyKeys where
  initToResp := bigEndian 32 0x24edd900ff1e3aad464ebeb95ce763a68c080dc28a279566b70e84b95bde4a97
  respToInit := bigEndian 32 0x676e591e6023918d2ca6cface20e0c4e44437fdb2b430bab69d05aa1891b091d
  rekeyChainKey := bigEndian 32 0xe3355600bb484975f431eb0be127df846c3cb6b6c842976d70a74511178aae9b

def pseudorandomKey : List UInt8 :=
  bigEndian 32 0x7e5b75e9db68ad29ea905c69260b9c6d8aae35fd7e69f44827b21745a44485e1

/-- SHA-256 of the keys, each with its generation. -/
def digests : List (List UInt8 × List UInt8) :=
  [(data.trafficKeys.initToResp ++ bigEndian 8 0,
      bigEndian 32 0xd9aa41d02b9e752983f8a2f0d6f47e20c52f74c7fe92126580639f326e0a4017),
    (data.trafficKeys.respToInit ++ bigEndian 8 0,
      bigEndian 32 0x6ae016cf651362038d1100057bbbc07226d6e6f7b610e956cb2acea36d0e6ce3),
    (rekeyed.initToResp ++ bigEndian 8 1,
      bigEndian 32 0x292a808c49dfd7870f434b0b6266ac4ffcc4e2d23c993892426d9ccb79d2bf3b),
    (rekeyed.respToInit ++ bigEndian 8 1,
      bigEndian 32 0x352fd00930c0d4ae5d42911fb69288e7013042d379c867a39a7044206f1a57c0)]

/-- HKDF over SHA-256 of the pseudorandom key. -/
def derived : List (List UInt8 × List UInt8) :=
  [(utf8 "ap/e2e/v1/traffic/init->resp/key", rekeyed.initToResp),
    (utf8 "ap/e2e/v1/traffic/resp->init/key", rekeyed.respToInit),
    (utf8 "ap/e2e/v1/rekey/chain-key", rekeyed.rekeyChainKey)]

/-- A message under a key, with its AES-256-GCM ciphertext. -/
structure Sealed where
  key : List UInt8
  nonce : List UInt8
  plaintext : List UInt8
  ciphertext : List UInt8

/-- A cipher that knows the messages of a run. -/
def ports (messages : List Sealed) : SessionCryptoPorts where
  numberFormat := .decimal
  sha256 input := (digests.lookup input).getD []
  hkdfExtract salt ikm :=
    if salt = data.rekeyChainKey ∧ ikm = data.rekeyChainKey then pseudorandomKey else []
  hkdfExpand prk info length :=
    if prk = pseudorandomKey ∧ length = 32 then (derived.lookup info).getD [] else []
  gcmEncrypt key nonce _ plaintext :=
    match messages.find? fun m => m.key = key ∧ m.nonce = nonce ∧ m.plaintext = plaintext with
    | some m => .ok m.ciphertext
    | none => .error (.error "unknown call")
  gcmDecrypt key nonce _ ciphertext :=
    match messages.find? fun m => m.key = key ∧ m.nonce = nonce ∧ m.ciphertext = ciphertext with
    | some m => .ok m.plaintext
    | none => .error (.error "Unsupported state or unable to authenticate data")
  base64Bytes _ := []

/-- What is opened is one of the messages. -/
theorem message_of_decrypt {messages : List Sealed}
    {key nonce aad ciphertext plaintext : List UInt8}
    (h : aeadDecrypt (ports messages) key nonce aad ciphertext = .ok plaintext) :
    ⟨key, nonce, plaintext, ciphertext⟩ ∈ messages := by
  simp only [aeadDecrypt, ports] at h
  split at h
  next m hfind =>
    obtain rfl := Except.ok.inj h
    have hfound := List.find?_some hfind
    rw [decide_eq_true_eq] at hfound
    obtain ⟨rfl, rfl, rfl⟩ := hfound
    exact List.mem_of_find?_eq_some hfind
  next => cases h

def sessionId : String := "5f0c9a3e-7d21-4b68-9e54-1c8f2a6b7d90"
def tokenId : String := "urn:cap:3c9e1f70-84b5-4d2a-9f63-7e0a5b8c2d14"

def fields : AeadAadFields where
  envelopeId := "0b9d7c52-6e1f-4a83-b7d4-92f5c8e0a361"
  messageType := "BUSINESS"

def price (amount : String) : List UInt8 := utf8 ("\x7b\"price\":" ++ amount ++ "\x7d")

end SampleSession

end Coivitas.Communication
