import Coivitas.Communication.EncryptedBody
import Coivitas.Foundation.Run

/-! # Replay protection of encrypted bodies

Sequences of `decryptEnvelopeBody` calls on any registries in any state, with bodies
from anyone. What the cipher opens was made by the honest peer; then no message of the
peer is opened twice, and under one key identifier of a session the messages are opened
in the order of their sequence numbers.
-/

namespace Coivitas.Communication

open Foundation Coivitas.Types OrderedMap

variable (C : SessionCryptoPorts)

/-! ## Messages of the peer -/

/-- A message of the honest peer, with the handle as it was when it encrypted it. -/
structure PeerMessage where
  handle : SessionCryptoHandle
  fields : AeadAadFields
  plaintext : List UInt8
  ciphertext : List UInt8
  checked : handle.checkEncrypt = .ok ()
  produced : aeadEncrypt C (handle.nextCall C fields plaintext) = .ok ciphertext

/-- The call decrypts the message: it decodes to its ciphertext and nonce, and has its key and
associated data. -/
def PeerMessage.Opens {C : SessionCryptoPorts} (m : PeerMessage C)
    (params : DecryptEnvelopeBodyParams) : Prop :=
  ∃ handle, routeHandle C params = .ok handle ∧
    m.ciphertext = decodeEncryptedField C params.body.ciphertext ∧
    m.handle.nextCall C m.fields m.plaintext =
      { key := handle.peerKey
        nonce := decodeEncryptedField C params.body.aeadNonce
        aad := handle.peerAad C params.aadFields (decodeEncryptedField C params.body.aeadNonce)
        plaintext := m.plaintext }

/-- What the cipher opens for the call is a message of the peer, and comes out as the peer
put it in. -/
def Authentic (messages : List (PeerMessage C)) (params : DecryptEnvelopeBodyParams) : Prop :=
  ∀ handle plaintext, routeHandle C params = .ok handle →
    aeadDecrypt C handle.peerKey (decodeEncryptedField C params.body.aeadNonce)
      (handle.peerAad C params.aadFields (decodeEncryptedField C params.body.aeadNonce))
      (decodeEncryptedField C params.body.ciphertext) = .ok plaintext →
    ∃ m ∈ messages, m.Opens params ∧ m.plaintext = plaintext

variable {C}

/-- The sequence number that the nonce of a call holds. -/
def DecryptEnvelopeBodyParams.sequenceNumber (C : SessionCryptoPorts)
    (params : DecryptEnvelopeBodyParams) : Nat :=
  nonceSequenceNumber (decodeEncryptedField C params.body.aeadNonce)

/-- An opened message belongs to the session of the call, and has its key identifier, nonce
and sequence number. -/
theorem PeerMessage.Opens.facts {m : PeerMessage C} {params : DecryptEnvelopeBodyParams}
    (hopens : m.Opens params) :
    m.handle.sessionId = params.sessionId ∧ m.handle.keyId C = params.body.keyId ∧
      decodeEncryptedField C params.body.aeadNonce =
        buildAeadNonce (ownDirection m.handle.role) m.handle.sequenceNumber m.handle.sessionSalt ∧
      m.handle.sequenceNumber = params.sequenceNumber C := by
  obtain ⟨handle, hroute, -, hcall⟩ := hopens
  obtain ⟨hsession, hkeyId⟩ :=
    SessionRegistry.lookupHandleForDecrypt_eq_some C ((routeHandle_eq_ok C).mp hroute)
  obtain ⟨-, hnonce, haad, -⟩ := AeadCall.mk.inj hcall
  obtain ⟨-, hkey, hseq, hid⟩ := buildAeadBytes_inj C haad
  exact ⟨hid.trans hsession, hkey.trans hkeyId, hnonce.symm, hseq⟩

/-! ## Runs of a receiver -/

/-- A call that returned, with what it returned. -/
structure Accepted where
  params : DecryptEnvelopeBodyParams
  plaintext : List UInt8

/-- The tracker of a process and the calls that have returned, in order. -/
structure Receiver where
  tracker : ReplayTracker
  accepted : List Accepted

variable (C)

def receiveStep (s : Receiver) (params : DecryptEnvelopeBodyParams) : Option Receiver :=
  let execution := (decryptEnvelopeBody C params).run s.tracker
  match execution.result with
  | .ok plaintext => some ⟨execution.world, s.accepted ++ [⟨params, plaintext⟩]⟩
  | .error _ => some { s with tracker := execution.world }

/-- A call leaves the receiver as it was, or it passed its checks and is accepted. -/
theorem receiveStep_cases {s s' : Receiver} {params : DecryptEnvelopeBodyParams}
    (hstep : receiveStep C s params = some s') :
    s' = s ∨ ∃ rKey seq plaintext, openBody C s.tracker params = .ok (rKey, seq, plaintext) ∧
      s' = ⟨s.tracker.set rKey seq, s.accepted ++ [⟨params, plaintext⟩]⟩ := by
  simp only [receiveStep, run_decryptEnvelopeBody] at hstep
  cases hopen : openBody C s.tracker params with
  | error fault =>
      simp only [hopen, Option.some.injEq] at hstep
      exact .inl hstep.symm
  | ok opened =>
      obtain ⟨rKey, seq, plaintext⟩ := opened
      simp only [hopen, Option.some.injEq] at hstep
      exact .inr ⟨rKey, seq, plaintext, rfl, hstep.symm⟩

/-- The replay key of a session and key identifier whose peer has the role. -/
def peerReplayKey (role : SessionRole) (sessionId keyId : String) : String :=
  replayKey sessionId (ownDirection role).byte keyId

/-- What an accepted call has shown: it opened a message of the peer, and the tracker had
nothing as high as its sequence number. -/
theorem openBody_authentic {tracker : ReplayTracker} {params : DecryptEnvelopeBodyParams}
    {messages : List (PeerMessage C)} (hauth : Authentic C messages params) {rKey : String}
    {seq : Nat} {plaintext : List UInt8}
    (hopen : openBody C tracker params = .ok (rKey, seq, plaintext)) :
    ∃ m ∈ messages, m.Opens params ∧ m.plaintext = plaintext ∧
      rKey = peerReplayKey m.handle.role params.sessionId params.body.keyId ∧
      seq = params.sequenceNumber C ∧ (tracker.get? rKey).all (· < seq) = true := by
  obtain ⟨-, bytes, hbytes, hkey, hseq, hnewer, handle, hroute, hdecrypt, -⟩ :=
    (openBody_eq_ok C).mp hopen
  simp only [SessionCryptoHandle.decrypt, bind_eq_ok, exists_unit, mapError_eq_ok] at hdecrypt
  obtain ⟨m, hm, hopens, hplain⟩ := hauth handle plaintext hroute hdecrypt.2
  obtain ⟨-, -, hnonce, -⟩ := hopens.facts
  have hdecoded : decodeEncryptedField C params.body.aeadNonce = bytes :=
    decodeEncryptedField_eq_nonceBytes C hbytes (by rw [hnonce, length_buildAeadNonce])
  refine ⟨m, hm, hopens, hplain, ?_, ?_, hnewer⟩
  · rw [hkey, ← hdecoded, hnonce]
    rfl
  · rw [hseq, ← hdecoded]
    rfl

/-! ## The invariant -/

/-- Every accepted call opened a message of the peer, the tracker has reached its sequence
number, and the calls of one key identifier came in order. -/
structure ReplayInv (peerRole : String → SessionRole) (messages : List (PeerMessage C))
    (s : Receiver) : Prop where
  opened : ∀ a ∈ s.accepted, ∃ m ∈ messages, m.Opens a.params ∧ m.plaintext = a.plaintext
  seen : ∀ a ∈ s.accepted, ∃ highest, s.tracker.get? (peerReplayKey (peerRole a.params.sessionId)
    a.params.sessionId a.params.body.keyId) = some highest ∧ a.params.sequenceNumber C ≤ highest
  increasing : s.accepted.Pairwise fun a b => a.params.sessionId = b.params.sessionId →
    a.params.body.keyId = b.params.body.keyId →
      a.params.sequenceNumber C < b.params.sequenceNumber C

theorem replayInv_step {peerRole : String → SessionRole} {messages : List (PeerMessage C)}
    (hrole : ∀ m ∈ messages, m.handle.role = peerRole m.handle.sessionId) {s s' : Receiver}
    {params : DecryptEnvelopeBodyParams} (hinv : ReplayInv C peerRole messages s)
    (hauth : Authentic C messages params) (hstep : receiveStep C s params = some s') :
    ReplayInv C peerRole messages s' := by
  obtain rfl | ⟨rKey, seq, plaintext, hopen, rfl⟩ := receiveStep_cases C hstep
  · exact hinv
  obtain ⟨m, hm, hopens, hplain, hkey, hseq, hnewer⟩ := openBody_authentic C hauth hopen
  rw [hrole m hm, hopens.facts.1] at hkey
  -- A call with this session and key identifier looked at the same entry of the tracker.
  have hbefore : ∀ a ∈ s.accepted, a.params.sessionId = params.sessionId →
      a.params.body.keyId = params.body.keyId → a.params.sequenceNumber C < seq := by
    intro a ha hsession hkeyId
    obtain ⟨highest, hget, hle⟩ := hinv.seen a ha
    rw [hsession, hkeyId, ← hkey] at hget
    rw [hget] at hnewer
    exact hle.trans_lt (by simpa using hnewer)
  refine ⟨?_, ?_, ?_⟩
  · intro a ha
    rcases List.mem_append.mp ha with hold | hlast
    · exact hinv.opened a hold
    · rw [List.mem_singleton.mp hlast]
      exact ⟨m, hm, hopens, hplain⟩
  · intro a ha
    rw [get?_set]
    rcases List.mem_append.mp ha with hold | hlast
    · obtain ⟨highest, hget, hle⟩ := hinv.seen a hold
      split
      next hsame =>
        rw [← hsame] at hget
        rw [hget] at hnewer
        have hlt : highest < seq := by simpa using hnewer
        exact ⟨seq, rfl, hle.trans hlt.le⟩
      next => exact ⟨highest, hget, hle⟩
    · rw [List.mem_singleton.mp hlast, if_pos hkey]
      exact ⟨seq, rfl, hseq.ge⟩
  · refine List.pairwise_append.mpr ⟨hinv.increasing, List.pairwise_singleton _ _, ?_⟩
    intro a ha b hb hsession hkeyId
    rw [List.mem_singleton.mp hb] at hsession hkeyId ⊢
    exact (hbefore a ha hsession hkeyId).trans_eq hseq

theorem replayInv_start (peerRole : String → SessionRole) (messages : List (PeerMessage C))
    (tracker : ReplayTracker) : ReplayInv C peerRole messages ⟨tracker, []⟩ :=
  ⟨by simp, by simp, List.Pairwise.nil⟩

/-- Two calls that open one message have its session, key identifier and sequence number. -/
theorem not_opens_twice {m : PeerMessage C} {params params' : DecryptEnvelopeBodyParams}
    (hlt : params.sessionId = params'.sessionId → params.body.keyId = params'.body.keyId →
      params.sequenceNumber C < params'.sequenceNumber C)
    (hopens : m.Opens params) : ¬ m.Opens params' := by
  intro hopens'
  obtain ⟨hsession, hkeyId, -, hseq⟩ := hopens.facts
  obtain ⟨hsession', hkeyId', -, hseq'⟩ := hopens'.facts
  have hcontra := hlt (hsession.symm.trans hsession') (hkeyId.symm.trans hkeyId')
  omega

/-- Over every sequence of calls, whatever their registries and bodies: each accepted call
opened a message of the peer, no message is opened by two of them, those of one session and
key identifier have increasing sequence numbers, and a call that throws leaves the tracker as
it was. -/
theorem encrypted_bodies_not_replayed {peerRole : String → SessionRole}
    {messages : List (PeerMessage C)}
    (hrole : ∀ m ∈ messages, m.handle.role = peerRole m.handle.sessionId)
    {calls : List DecryptEnvelopeBodyParams}
    (hauth : ∀ params ∈ calls, Authentic C messages params) {tracker : ReplayTracker}
    {s : Receiver} (hrun : run (receiveStep C) ⟨tracker, []⟩ calls = some s) :
    (∀ a ∈ s.accepted, ∃ m ∈ messages, m.Opens a.params ∧ m.plaintext = a.plaintext ∧
      m.handle.sequenceNumber = a.params.sequenceNumber C) ∧
    (s.accepted.Pairwise fun a b => ∀ m ∈ messages, m.Opens a.params → ¬ m.Opens b.params) ∧
    (s.accepted.Pairwise fun a b => a.params.sessionId = b.params.sessionId →
      a.params.body.keyId = b.params.body.keyId →
        a.params.sequenceNumber C < b.params.sequenceNumber C) ∧
    ∀ tracker params fault, ((decryptEnvelopeBody C params).run tracker).result = .error fault →
      ((decryptEnvelopeBody C params).run tracker).world = tracker := by
  have hinv : ReplayInv C peerRole messages s :=
    run_invariant (ReplayInv C peerRole messages)
      (fun _ _ _ hinv hgood hstep => replayInv_step C hrole hinv hgood hstep)
      (replayInv_start C peerRole messages tracker)
      (along_of_forall_mem fun params hparams _ => hauth params hparams) hrun
  refine ⟨?_, ?_, hinv.increasing, ?_⟩
  · intro a ha
    obtain ⟨m, hm, hopens, hplain⟩ := hinv.opened a ha
    exact ⟨m, hm, hopens, hplain, hopens.facts.2.2.2⟩
  · exact hinv.increasing.imp fun hlt m _ => not_opens_twice C hlt
  · intro tracker params fault hthrow
    rw [run_decryptEnvelopeBody] at hthrow ⊢
    cases hopen : openBody C tracker params with
    | error fault' => rfl
    | ok opened =>
        rw [hopen] at hthrow
        cases hthrow

namespace SpellingRun

def nonce : List UInt8 := bigEndian 12 0x0200000000000000006182e9

def ciphertext : List UInt8 :=
  bigEndian 27 0xc3cee1a54449a718c6a8460a4298008246cb1310ada9fa9509c06a

def ports : SessionCryptoPorts :=
  SampleSession.ports [⟨SampleSession.data.trafficKeys.respToInit, nonce, SampleSession.price "8",
    ciphertext⟩]

def handle (role : SessionRole) : SessionCryptoHandle where
  sessionId := SampleSession.sessionId
  generation := 0
  role := role
  authorizedTokenId := some SampleSession.tokenId
  state := .active
  trafficKeys := SampleSession.data.trafficKeys
  sessionSalt := SampleSession.data.sessionSalt
  rekeyChainKey := SampleSession.data.rekeyChainKey

theorem nonce_handle :
    buildAeadNonce .respToInit 0 SampleSession.data.sessionSalt = nonce := by
  decide +kernel

/-- What the responder sends. -/
def message : PeerMessage ports where
  handle := handle .responder
  fields := SampleSession.fields
  plaintext := SampleSession.price "8"
  ciphertext := ciphertext
  checked := rfl
  produced := by
    show ports.gcmEncrypt _
      (buildAeadNonce .respToInit 0 SampleSession.data.sessionSalt) _ _ = _
    rw [nonce_handle]
    decide +kernel

/-- The message as the initiator gets it, with its nonce in some spelling. -/
def received (spell : Char → Char) : DecryptEnvelopeBodyParams where
  registry := SessionRegistry.empty.install (handle .initiator) none (by simp)
  sessionId := SampleSession.sessionId
  body :=
    { type := some .business
      ciphertext := toHex ciphertext
      aeadNonce := String.ofList ((nonce.flatMap hexByte).map spell)
      keyId := (handle .responder).keyId ports }
  aadFields := SampleSession.fields
  capabilityTokenRef := SampleSession.tokenId

/-- The message, and the message again with its nonce in upper case. -/
def calls : List DecryptEnvelopeBodyParams := [received id, received Char.toUpper]

theorem ran : (run (receiveStep ports) ⟨.empty, []⟩ calls).any
    (fun s => decide (s.accepted.length = 1)) = true := by
  decide +kernel

/-- The initiator finds its handle for the message. -/
theorem authentic {spell : Char → Char}
    (hroute : routeHandle ports (received spell) = .ok (handle .initiator)) :
    Authentic ports [message] (received spell) := by
  intro h plaintext hroute' hopen
  obtain rfl := Except.ok.inj (hroute.symm.trans hroute')
  have hsealed := List.mem_singleton.mp (SampleSession.message_of_decrypt hopen)
  obtain ⟨-, hnonce, rfl, hciphertext⟩ := SampleSession.Sealed.mk.inj hsealed
  refine ⟨message, List.mem_singleton_self _, ⟨_, hroute, hciphertext.symm, ?_⟩, rfl⟩
  rw [hnonce, ← nonce_handle]
  rfl

def peerRole (_sessionId : String) : SessionRole := .responder

theorem role_message : ∀ m ∈ [message], m.handle.role = peerRole m.handle.sessionId := by
  intro m hm
  rw [List.mem_singleton.mp hm]
  rfl

theorem authentic_calls : ∀ params ∈ calls, Authentic ports [message] params := by
  intro params hparams
  simp only [calls, List.mem_cons, List.not_mem_nil, or_false] at hparams
  have hlower : routeHandle ports (received id) = .ok (handle .initiator) := by decide +kernel
  have hupper : routeHandle ports (received Char.toUpper) = .ok (handle .initiator) := by
    decide +kernel
  rcases hparams with rfl | rfl
  · exact authentic hlower
  · exact authentic hupper

end SpellingRun

/-- Of the two spellings of one message, one is accepted. -/
theorem encrypted_bodies_not_replayed_spellings :
    ∃ s, run (receiveStep SpellingRun.ports) ⟨.empty, []⟩ SpellingRun.calls = some s ∧
      s.accepted.length = 1 ∧
      ∀ a ∈ s.accepted, ∃ m ∈ [SpellingRun.message], m.Opens a.params ∧
        m.plaintext = a.plaintext ∧
        m.handle.sequenceNumber = a.params.sequenceNumber SpellingRun.ports := by
  obtain ⟨s, hrun, hlength⟩ := (Option.any_eq_true _ _).mp SpellingRun.ran
  have hmain := encrypted_bodies_not_replayed SpellingRun.ports SpellingRun.role_message
    SpellingRun.authentic_calls hrun
  exact ⟨s, hrun, of_decide_eq_true hlength, hmain.1⟩

end Coivitas.Communication
