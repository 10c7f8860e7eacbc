import Coivitas.Communication.SessionViews
import Coivitas.Foundation.Run
import Mathlib.Logic.Function.Basic

/-! # The encrypted channel between two registries

The two sides of a session, each with a registry that may hold other sessions too, and
the processes that keep their replay trackers, one for each side or one for both. Each
side rekeys in chain mode and lets its windows run out in its own time. A body that one
side has made is opened by the other while that side holds the generation of the body.
-/

namespace Coivitas.Communication

open Foundation Coivitas.Types OrderedMap

variable (C : SessionCryptoPorts)

/-! ## Generations -/

def SessionRole.other : SessionRole → SessionRole
  | .initiator => .responder
  | .responder => .initiator

/-- The data of the generation that follows by a chain-mode rekey. -/
def NewSessionData.next (data : NewSessionData) : NewSessionData :=
  let derived := deriveChainKeyRekeyKeys C data.rekeyChainKey data.trafficKeys.initToResp
    data.trafficKeys.respToInit
  { trafficKeys := ⟨derived.initToResp, derived.respToInit⟩
    sessionSalt := data.sessionSalt
    rekeyChainKey := derived.rekeyChainKey
    generation := data.generation + 1 }

/-- The data after so many rekeys. -/
def NewSessionData.rekeyed (data : NewSessionData) : Nat → NewSessionData
  | 0 => data
  | n + 1 => (NewSessionData.rekeyed data n).next C

theorem generation_rekeyed (data : NewSessionData) (n : Nat) :
    (data.rekeyed C n).generation = data.generation + n := by
  induction n with
  | zero => rfl
  | succ n ih => rw [NewSessionData.rekeyed, NewSessionData.next, ih, Nat.add_assoc]

/-- The key identifier of a direction after so many rekeys. -/
def NewSessionData.keyIdAt (data : NewSessionData) (direction : Direction) (n : Nat) : String :=
  computeKeyId C ((data.rekeyed C n).trafficKeys.key direction) (data.rekeyed C n).generation

/-- What the two sides agree on when they create the session. -/
structure ChannelSetup where
  sessionId : String
  token : Option String
  data : NewSessionData

variable (S : ChannelSetup)

/-- A handle of one side that can encrypt and decrypt, after so many rekeys. -/
structure InGeneration (role : SessionRole) (n : Nat) (h : SessionCryptoHandle) : Prop where
  sessionId : h.sessionId = S.sessionId
  role : h.role = role
  token : h.authorizedTokenId = S.token
  trafficKeys : h.trafficKeys = (S.data.rekeyed C n).trafficKeys
  sessionSalt : h.sessionSalt = (S.data.rekeyed C n).sessionSalt
  rekeyChainKey : h.rekeyChainKey = (S.data.rekeyed C n).rekeyChainKey
  generation : h.generation = S.data.generation + n
  state : h.state = .active ∨ h.state = .pendingRekey

/-- One side after so many rekeys: its current handle is of that generation, the previous one
of the generation before. -/
structure SideInv (role : SessionRole) (n : Nat) (v : SessionView) : Prop where
  current : InGeneration C S role n v.current
  previous : ∀ h ∈ v.previous, ∃ m, n = m + 1 ∧ InGeneration C S role m h

variable {C S} {role : SessionRole} {n : Nat} {v : SessionView} {h : SessionCryptoHandle}

theorem InGeneration.successor (hgen : InGeneration C S role n h) :
    InGeneration C S role (n + 1)
      (SessionRegistry.successor h (SessionRegistry.nextGeneration C h)) where
  sessionId := hgen.sessionId
  role := hgen.role
  token := hgen.token
  trafficKeys := by
    simp only [SessionRegistry.successor, SessionRegistry.nextGeneration, hgen.rekeyChainKey]
    rfl
  sessionSalt := hgen.sessionSalt
  rekeyChainKey := by
    simp only [SessionRegistry.successor, SessionRegistry.nextGeneration, hgen.rekeyChainKey]
    rfl
  generation := by
    simp only [SessionRegistry.successor, SessionRegistry.nextGeneration, hgen.generation]
    rfl
  state := .inr rfl

theorem InGeneration.activate (hgen : InGeneration C S role n h) :
    InGeneration C S role n (SessionRegistry.activate h) := by
  unfold SessionRegistry.activate
  split
  next => exact { hgen with state := .inl rfl }
  next => exact hgen

theorem InGeneration.keyId (hgen : InGeneration C S role n h) :
    h.keyId C = S.data.keyIdAt C (ownDirection role) n := by
  rw [SessionCryptoHandle.keyId, SessionCryptoHandle.ownKey, hgen.trafficKeys, hgen.role,
    hgen.generation, NewSessionData.keyIdAt, generation_rekeyed]

theorem peerDirection_eq (role : SessionRole) : peerDirection role = ownDirection role.other := by
  cases role <;> rfl

theorem InGeneration.peerKeyId (hgen : InGeneration C S role n h) :
    h.peerKeyId C = S.data.keyIdAt C (ownDirection role.other) n := by
  rw [SessionCryptoHandle.peerKeyId, SessionCryptoHandle.peerKey, hgen.trafficKeys, hgen.role,
    hgen.generation, NewSessionData.keyIdAt, generation_rekeyed, peerDirection_eq]

/-- The handles of the two sides in one generation: what one encrypts has the key and the
associated data that the other checks. -/
theorem InGeneration.checks {h' : SessionCryptoHandle} (hgen : InGeneration C S role n h)
    (hgen' : InGeneration C S role.other n h') (hseq : h'.sequenceNumber < 2 ^ 64)
    (fields : AeadAadFields) (plaintext : List UInt8) :
    let call := h'.nextCall C fields plaintext
    call.key = h.peerKey ∧ call.aad = h.peerAad C fields call.nonce := by
  refine ⟨?_, ?_⟩
  · rw [SessionCryptoHandle.nextCall, SessionCryptoHandle.ownKey, SessionCryptoHandle.peerKey,
      hgen.trafficKeys, hgen'.trafficKeys, hgen.role, hgen'.role, peerDirection_eq]
  · have hread : nonceSequenceNumber (h'.nextCall C fields plaintext).nonce =
        h'.sequenceNumber := by
      rw [SessionCryptoHandle.nextCall, nonceSequenceNumber_buildAeadNonce, Nat.mod_eq_of_lt hseq]
    rw [SessionCryptoHandle.peerAad, hread, hgen.role, hgen.sessionId, hgen.token, hgen.peerKeyId,
      peerDirection_eq, SessionCryptoHandle.nextCall, hgen'.role, hgen'.sessionId, hgen'.token,
      hgen'.keyId]

/-! ## Runs of the channel -/

/-- A body that a side has made for the session, with the generation and the sequence number
of the handle that made it. -/
structure SentMessage where
  params : EncryptEnvelopeBodyParams
  body : EncryptedBody
  generation : Nat
  sequenceNumber : Nat

/-- Both sides; `opened` names the messages that a side has opened by their place among those
the other side has sent. -/
structure Channel (π : Type) where
  registry : SessionRole → SessionRegistry
  tracker : π → ReplayTracker
  sent : SessionRole → List SentMessage
  opened : List (SessionRole × Nat)

inductive ChannelEvent where
  | registry (side : SessionRole) (call : RegistryCall)
  | send (side : SessionRole) (params : EncryptEnvelopeBodyParams)
  | deliver (side : SessionRole) (index : Nat)
  | receive (side : SessionRole) (sessionId : String) (body : EncryptedBody)
      (aadFields : AeadAadFields) (capabilityTokenRef : String)

variable (C S)

namespace Channel

variable {π : Type} (s : Channel π)

/-- The decryption of a message of the other side. -/
def delivery (side : SessionRole) (m : SentMessage) : DecryptEnvelopeBodyParams where
  registry := s.registry side
  sessionId := S.sessionId
  body := m.body
  aadFields := m.params.aadFields
  capabilityTokenRef := m.params.capabilityTokenRef

def setRegistry (side : SessionRole) (r : SessionRegistry) : Channel π :=
  { s with registry := Function.update s.registry side r }

def setTracker [DecidableEq π] (p : π) (tracker : ReplayTracker) : Channel π :=
  { s with tracker := Function.update s.tracker p tracker }

/-- The messages that a side has sent after an encryption. -/
def sentAfter (side : SessionRole) (params : EncryptEnvelopeBodyParams) : List SentMessage :=
  match (encryptEnvelopeBody C (s.registry side) params).1,
    (s.registry side).view S.sessionId with
  | .ok body, some v =>
      if params.sessionId = S.sessionId then
        s.sent side ++ [⟨params, body, v.current.generation, v.current.sequenceNumber⟩]
      else s.sent side
  | _, _ => s.sent side

/-- The generation of the current handle of a side. -/
def generation (side : SessionRole) : Option Nat :=
  ((s.registry side).view S.sessionId).map (·.current.generation)

/-- The side still has the handle of the generation before. -/
def windowOpen (side : SessionRole) : Prop :=
  ((s.registry side).view S.sessionId).any (·.previous.isSome) = true

end Channel

/-- One event. A body is sent when the encryption returns one, and delivered with the fields and
the token it was made with. -/
def Channel.step {π : Type} [DecidableEq π] (process : SessionRole → π) (s : Channel π) :
    ChannelEvent → Option (Channel π)
  | .registry side call => ((s.registry side).apply C call).map (s.setRegistry side)
  | .send side params => some
      { s.setRegistry side (encryptEnvelopeBody C (s.registry side) params).2 with
        sent := Function.update s.sent side (s.sentAfter C S side params) }
  | .deliver side index =>
      match (s.sent side.other)[index]? with
      | none => none
      | some m =>
          let execution := (decryptEnvelopeBody C (s.delivery S side m)).run
            (s.tracker (process side))
          some { s.setTracker (process side) execution.world with
            opened := match execution.result with
              | .ok _ => s.opened ++ [(side, index)]
              | .error _ => s.opened }
  | .receive side sessionId body aadFields capabilityTokenRef =>
      let execution := (decryptEnvelopeBody C
        ⟨s.registry side, sessionId, body, aadFields, capabilityTokenRef⟩).run
          (s.tracker (process side))
      some (s.setTracker (process side) execution.world)

/-- On the session itself only chain-mode rekeys and timers; anything on other sessions. -/
def ChannelEvent.Allowed : ChannelEvent → Prop
  | .registry _ call => call.sessionId ≠ S.sessionId ∨
      call = .swapForDualKeyChainMode S.sessionId ∨ call = .expireDualKeyWindow S.sessionId
  | .send _ _ => True
  | .deliver _ _ => True
  | .receive _ sessionId _ _ _ => sessionId ≠ S.sessionId

/-! ## The invariant -/

/-- A message made by a handle of its generation. -/
structure Sealed (role : SessionRole) (n : Nat) (m : SentMessage) : Prop where
  generation : m.generation = S.data.generation + n
  exists_handle : ∃ h ciphertext, InGeneration C S role n h ∧
    h.sequenceNumber = m.sequenceNumber ∧ S.token = some m.params.capabilityTokenRef ∧
    aeadEncrypt C (h.nextCall C m.params.aadFields m.params.plaintext) = .ok ciphertext ∧
    m.body =
      { type := some m.params.bodyType
        ciphertext := toHex ciphertext
        aeadNonce := toHex (h.nextCall C m.params.aadFields m.params.plaintext).nonce
        keyId := S.data.keyIdAt C (ownDirection role) n
        aadSummary := m.params.aadFields.aadSummary }

/-- The first message was sent before the second: by an older handle, or with a lower number. -/
def SentMessage.Before (m m' : SentMessage) : Prop :=
  m.generation < m'.generation ∨
    m.generation = m'.generation ∧ m.sequenceNumber < m'.sequenceNumber

/-- A side after so many rekeys has sent these messages. -/
structure SenderInv (role : SessionRole) (v : SessionView) (n : Nat) (sent : List SentMessage) :
    Prop where
  side : SideInv C S role n v
  sealed : ∀ m ∈ sent, ∃ k ≤ n, Sealed C S role k m
  past : ∀ m ∈ sent, m.generation < v.current.generation ∨
    m.generation = v.current.generation ∧ m.sequenceNumber < v.current.sequenceNumber
  ordered : sent.Pairwise SentMessage.Before

/-- A key of a tracker that no message of the session has. -/
def Foreign (key : String) : Prop :=
  ∀ (byte : UInt8) (keyId : String), ':' ∉ keyId.toList → key ≠ replayKey S.sessionId byte keyId

/-- What an entry of a tracker can be: it is about other sessions, or of a message that was
opened. -/
def Tracked {π : Type} (process : SessionRole → π) (s : Channel π) (p : π) (key : String)
    (value : Nat) : Prop :=
  Foreign S key ∨
    ∃ side index m, process side = p ∧ (side, index) ∈ s.opened ∧
      (s.sent side.other)[index]? = some m ∧ value ≤ m.sequenceNumber ∧
      key = replayKey S.sessionId (ownDirection side.other).byte m.body.keyId

/-- Both sides are in a generation, and a tracker knows of the session only what was opened. -/
structure ChannelInv {π : Type} (process : SessionRole → π) (s : Channel π) : Prop where
  sides : ∀ side, ∃ v n, (s.registry side).view S.sessionId = some v ∧
    SenderInv C S side v n (s.sent side)
  tracked : ∀ p key value, (s.tracker p).get? key = some value →
    Tracked S process s p key value

/-! ## Steps of one side -/

variable {C S} {sent : List SentMessage}

theorem SideInv.rekey (hinv : SideInv C S role n v) :
    SideInv C S role (n + 1)
      ⟨SessionRegistry.successor v.current (SessionRegistry.nextGeneration C v.current),
        some v.current⟩ where
  current := hinv.current.successor
  previous _ hmem := ⟨n, rfl, Option.some.inj hmem ▸ hinv.current⟩

theorem SenderInv.rekey (hinv : SenderInv C S role v n sent) :
    SenderInv C S role
      ⟨SessionRegistry.successor v.current (SessionRegistry.nextGeneration C v.current),
        some v.current⟩ (n + 1) sent where
  side := hinv.side.rekey
  sealed m hm := by
    obtain ⟨k, hk, hsealed⟩ := hinv.sealed m hm
    exact ⟨k, hk.trans (Nat.le_succ n), hsealed⟩
  past m hm := by
    have hold := hinv.past m hm
    left
    show m.generation < v.current.generation + 1
    omega
  ordered := hinv.ordered

theorem generation_activate (h : SessionCryptoHandle) :
    (SessionRegistry.activate h).generation = h.generation := by
  unfold SessionRegistry.activate
  split <;> rfl

theorem sequenceNumber_activate (h : SessionCryptoHandle) :
    (SessionRegistry.activate h).sequenceNumber = h.sequenceNumber := by
  unfold SessionRegistry.activate
  split <;> rfl

theorem SenderInv.expire (hinv : SenderInv C S role v n sent) :
    SenderInv C S role ⟨SessionRegistry.activate v.current, none⟩ n sent where
  side := ⟨hinv.side.current.activate, by simp⟩
  sealed := hinv.sealed
  past m hm := by
    rw [generation_activate, sequenceNumber_activate]
    exact hinv.past m hm
  ordered := hinv.ordered

/-- The counter moves on, whether or not a body came out. -/
theorem SenderInv.count (hinv : SenderInv C S role v n sent) :
    SenderInv C S role { v with current :=
      { v.current with sequenceNumber := v.current.sequenceNumber + 1 } } n sent where
  side := ⟨{ hinv.side.current with }, hinv.side.previous⟩
  sealed := hinv.sealed
  past m hm := by
    rcases hinv.past m hm with hlt | ⟨heq, hlt⟩
    · exact .inl hlt
    · exact .inr ⟨heq, hlt.trans (Nat.lt_succ_self _)⟩
  ordered := hinv.ordered

theorem SenderInv.send (hinv : SenderInv C S role v n sent) {params : EncryptEnvelopeBodyParams}
    {body : EncryptedBody}
    (hsealed : Sealed C S role n
      ⟨params, body, v.current.generation, v.current.sequenceNumber⟩) :
    SenderInv C S role { v with current :=
      { v.current with sequenceNumber := v.current.sequenceNumber + 1 } } n
      (sent ++ [⟨params, body, v.current.generation, v.current.sequenceNumber⟩]) where
  side := hinv.count.side
  sealed m hm := by
    rcases List.mem_append.mp hm with hold | hlast
    · exact hinv.sealed m hold
    · rw [List.mem_singleton.mp hlast]
      exact ⟨n, le_refl n, hsealed⟩
  past m hm := by
    rcases List.mem_append.mp hm with hold | hlast
    · exact hinv.count.past m hold
    · rw [List.mem_singleton.mp hlast]
      exact .inr ⟨rfl, Nat.lt_succ_self _⟩
  ordered := by
    refine List.pairwise_append.mpr ⟨hinv.ordered, List.pairwise_singleton _ _, ?_⟩
    intro m hm m' hm'
    rw [List.mem_singleton.mp hm']
    exact hinv.past m hm

/-- What a side has after a call that is allowed on its registry. -/
theorem exists_senderInv_apply {r r' : SessionRegistry} {call : RegistryCall}
    (hview : r.view S.sessionId = some v) (hinv : SenderInv C S role v n sent)
    (hallowed : call.sessionId ≠ S.sessionId ∨
      call = .swapForDualKeyChainMode S.sessionId ∨ call = .expireDualKeyWindow S.sessionId)
    (happly : r.apply C call = some r') :
    ∃ v' n', r'.view S.sessionId = some v' ∧ SenderInv C S role v' n' sent := by
  rcases hallowed with hne | rfl | rfl
  · exact ⟨v, n, (SessionRegistry.untouched_apply C hne happly).view_eq.trans hview, hinv⟩
  · obtain ⟨r₁, hswap, hview₁⟩ := SessionRegistry.view_swapForDualKeyChainMode C hview
    simp only [SessionRegistry.apply, hswap, SessionRegistry.after, Option.some.injEq] at happly
    subst happly
    split at hview₁
    next => exact ⟨v, n, hview₁, hinv⟩
    next => exact ⟨_, n + 1, hview₁, hinv.rekey⟩
  · simp only [SessionRegistry.apply, Option.ite_none_right_eq_some, Option.some.injEq] at happly
    obtain ⟨-, rfl⟩ := happly
    exact ⟨_, n, SessionRegistry.view_expireDualKeyWindow hview, hinv.expire⟩

theorem sealed_of_encrypt {r : SessionRegistry} {params : EncryptEnvelopeBodyParams}
    {body : EncryptedBody} (hsession : params.sessionId = S.sessionId)
    (hview : r.view S.sessionId = some v) (hside : SideInv C S role n v)
    (hok : (encryptEnvelopeBody C r params).1 = .ok body) :
    Sealed C S role n ⟨params, body, v.current.generation, v.current.sequenceNumber⟩ := by
  rw [← hsession] at hview
  obtain ⟨htoken, ciphertext, hencrypt, hbody⟩ :=
    SessionRegistry.encryptEnvelopeBody_eq_ok C hview hok
  refine ⟨hside.current.generation, v.current, ciphertext, hside.current, rfl, ?_, hencrypt, ?_⟩
  · rw [← hside.current.token]
    exact htoken
  · rw [hbody, hside.current.keyId]
    rfl

/-- What a side has after it has encrypted, for this session or another. -/
theorem exists_senderInv_send {π : Type} {s : Channel π} {side : SessionRole}
    (params : EncryptEnvelopeBodyParams)
    (hview : (s.registry side).view S.sessionId = some v)
    (hinv : SenderInv C S side v n (s.sent side)) :
    ∃ v', (encryptEnvelopeBody C (s.registry side) params).2.view S.sessionId = some v' ∧
      SenderInv C S side v' n (s.sentAfter C S side params) := by
  by_cases hsession : params.sessionId = S.sessionId
  · cases hresult : (encryptEnvelopeBody C (s.registry side) params).1 with
    | error fault =>
        have hsent : s.sentAfter C S side params = s.sent side := by
          simp [Channel.sentAfter, hresult]
        rw [hsent]
        rcases SessionRegistry.view_encryptEnvelopeBody C (hsession ▸ hview) with
          ⟨hsame, -⟩ | hcounted
        · exact ⟨v, hsession ▸ hsame, hinv⟩
        · exact ⟨_, hsession ▸ hcounted, hinv.count⟩
    | ok body =>
        have hsent : s.sentAfter C S side params =
            s.sent side ++ [⟨params, body, v.current.generation, v.current.sequenceNumber⟩] := by
          simp [Channel.sentAfter, hresult, hview, hsession]
        rw [hsent]
        rcases SessionRegistry.view_encryptEnvelopeBody C (hsession ▸ hview) with
          ⟨-, hthrew⟩ | hcounted
        · exact absurd hresult (hthrew body)
        · exact ⟨_, hsession ▸ hcounted,
            hinv.send (sealed_of_encrypt hsession hview hinv.side hresult)⟩
  · have hsent : s.sentAfter C S side params = s.sent side := by
      unfold Channel.sentAfter
      split
      next => rw [if_neg hsession]
      next => rfl
    rw [hsent]
    have huntouched := SessionRegistry.untouched_encryptEnvelopeBody C (r := s.registry side)
      hsession
    exact ⟨v, huntouched.view_eq.trans hview, hinv⟩

/-! ## Steps of the channel -/

variable {π : Type} {process : SessionRole → π} {s s' : Channel π}

/-- The messages of a side only become more. -/
theorem getElem?_sentAfter {side : SessionRole} {params : EncryptEnvelopeBodyParams} {index : Nat}
    {m : SentMessage} (hget : (s.sent side)[index]? = some m) :
    (s.sentAfter C S side params)[index]? = some m := by
  have hlt := (List.getElem?_eq_some_iff.mp hget).1
  unfold Channel.sentAfter
  split
  next =>
    split
    next => rw [List.getElem?_append_left hlt, hget]
    next => exact hget
  next => exact hget

theorem ChannelInv.registry (hinv : ChannelInv C S process s) {side : SessionRole}
    {r : SessionRegistry}
    (hside : ∃ v n, r.view S.sessionId = some v ∧ SenderInv C S side v n (s.sent side)) :
    ChannelInv C S process (s.setRegistry side r) where
  sides side' := by
    by_cases hsame : side' = side
    · subst hsame
      simpa [Channel.setRegistry] using hside
    · simpa [Channel.setRegistry, hsame] using hinv.sides side'
  tracked := hinv.tracked

theorem ChannelInv.send (hinv : ChannelInv C S process s) (side : SessionRole)
    (params : EncryptEnvelopeBodyParams) :
    ChannelInv C S process
      { s.setRegistry side (encryptEnvelopeBody C (s.registry side) params).2 with
        sent := Function.update s.sent side (s.sentAfter C S side params) } where
  sides side' := by
    by_cases hsame : side' = side
    · subst hsame
      obtain ⟨v, n, hview, hsender⟩ := hinv.sides side'
      obtain ⟨v', hview', hsender'⟩ := exists_senderInv_send params hview hsender
      refine ⟨v', n, ?_, ?_⟩
      · simpa [Channel.setRegistry] using hview'
      · simpa using hsender'
    · simpa [Channel.setRegistry, hsame] using hinv.sides side'
  tracked p key value hget := by
    rcases hinv.tracked p key value hget with
      hforeign | ⟨receiver, index, m, hp, hopened, hm, hle, hkey⟩
    · exact .inl hforeign
    · refine .inr ⟨receiver, index, m, hp, hopened, ?_, hle, hkey⟩
      by_cases hsame : receiver.other = side
      · subst hsame
        simpa using getElem?_sentAfter hm
      · simpa [hsame] using hm

/-- A decryption changes nothing but an entry of the tracker, for a key identifier without a
colon. -/
theorem world_decrypt (tracker : ReplayTracker) (params : DecryptEnvelopeBodyParams) :
    (((decryptEnvelopeBody C params).run tracker).world = tracker ∧
        ∃ fault, ((decryptEnvelopeBody C params).run tracker).result = .error fault) ∨
      ∃ bytes, nonceBytes C params.body.aeadNonce = .ok bytes ∧ ':' ∉ params.body.keyId.toList ∧
        (∃ plaintext, ((decryptEnvelopeBody C params).run tracker).result = .ok plaintext) ∧
        ((decryptEnvelopeBody C params).run tracker).world =
          tracker.set (replayKey params.sessionId (bytes.getD 0 0) params.body.keyId)
            (nonceSequenceNumber bytes) := by
  rw [run_decryptEnvelopeBody]
  cases hopen : openBody C tracker params with
  | error fault => exact .inl ⟨rfl, fault, rfl⟩
  | ok opened =>
      obtain ⟨rKey, seq, plaintext⟩ := opened
      obtain ⟨-, bytes, hbytes, rfl, rfl, -, handle, hroute, -⟩ := (openBody_eq_ok C).mp hopen
      refine .inr ⟨bytes, hbytes, ?_, ⟨plaintext, rfl⟩, rfl⟩
      rw [← (SessionRegistry.lookupHandleForDecrypt_eq_some C
        ((routeHandle_eq_ok C).mp hroute)).2]
      exact colon_notMem_toHex _

/-- The tracker entry that a delivered message writes. -/
theorem Sealed.nonce {m : SentMessage} {bytes : List UInt8} (hsealed : Sealed C S role n m)
    (hbytes : nonceBytes C m.body.aeadNonce = .ok bytes) :
    bytes.getD 0 0 = (ownDirection role).byte ∧
      nonceSequenceNumber bytes = m.sequenceNumber % 2 ^ 64 := by
  obtain ⟨h, ciphertext, hgen, hseq, -, -, hbody⟩ := hsealed.exists_handle
  rw [hbody] at hbytes
  obtain rfl := Except.ok.inj
    ((nonceBytes_toHex C (length_buildAeadNonce _ _ _)).symm.trans hbytes)
  refine ⟨?_, ?_⟩
  · rw [hgen.role]
    rfl
  · rw [nonceSequenceNumber_buildAeadNonce, hseq]

variable [DecidableEq π]

omit [DecidableEq π] in
theorem Tracked.mono {s s' : Channel π} (hsent : s'.sent = s.sent)
    (hopened : ∀ entry ∈ s.opened, entry ∈ s'.opened) {p : π} {key : String} {value : Nat}
    (htracked : Tracked S process s p key value) : Tracked S process s' p key value := by
  rcases htracked with hforeign | ⟨side, index, m, hp, hmem, hget, hle, hkey⟩
  · exact .inl hforeign
  · exact .inr ⟨side, index, m, hp, hopened _ hmem, hsent ▸ hget, hle, hkey⟩

/-- One entry of one tracker is set. -/
theorem tracked_set {tracker : π → ReplayTracker} {good : π → String → Nat → Prop}
    (hold : ∀ p key value, (tracker p).get? key = some value → good p key value) {p₀ : π}
    {rKey : String} {seq : Nat} (hnew : good p₀ rKey seq) (p : π) (key : String) (value : Nat)
    (hget : (Function.update tracker p₀ ((tracker p₀).set rKey seq) p).get? key = some value) :
    good p key value := by
  by_cases hp : p = p₀
  · subst hp
    rw [Function.update_self, get?_set] at hget
    split at hget
    next hkey =>
      subst hkey
      exact Option.some.inj hget ▸ hnew
    next => exact hold p key value hget
  · rw [Function.update_of_ne hp] at hget
    exact hold p key value hget

theorem ChannelInv.receive (hinv : ChannelInv C S process s) {side : SessionRole}
    {params : DecryptEnvelopeBodyParams} (hother : params.sessionId ≠ S.sessionId) :
    ChannelInv C S process (s.setTracker (process side)
      ((decryptEnvelopeBody C params).run (s.tracker (process side))).world) := by
  rcases world_decrypt (C := C) (s.tracker (process side)) params with
    ⟨hsame, -⟩ | ⟨bytes, -, hcolon, -, hset⟩
  · rw [hsame, Channel.setTracker, Function.update_eq_self]
    exact hinv
  · rw [hset]
    refine ⟨hinv.sides, tracked_set hinv.tracked (.inl ?_)⟩
    intro byte keyId hkeyId heq
    exact hother (replayKey_inj hcolon hkeyId heq).1

theorem ChannelInv.deliver (hinv : ChannelInv C S process s) {side : SessionRole} {index : Nat}
    {m : SentMessage} (hget : (s.sent side.other)[index]? = some m) :
    let execution := (decryptEnvelopeBody C (s.delivery S side m)).run (s.tracker (process side))
    ChannelInv C S process { s.setTracker (process side) execution.world with
      opened := match execution.result with
        | .ok _ => s.opened ++ [(side, index)]
        | .error _ => s.opened } := by
  obtain ⟨v, n, -, hsender⟩ := hinv.sides side.other
  obtain ⟨k, -, hsealed⟩ := hsender.sealed m (List.mem_of_getElem? hget)
  rcases world_decrypt (C := C) (s.tracker (process side)) (s.delivery S side m) with
    ⟨hsame, fault, hresult⟩ | ⟨bytes, hbytes, -, ⟨plaintext, hresult⟩, hset⟩
  · simp only [hsame, hresult, Channel.setTracker, Function.update_eq_self]
    exact hinv
  · simp only [hset, hresult]
    obtain ⟨hbyte, hseq⟩ := hsealed.nonce hbytes
    refine ⟨hinv.sides, tracked_set (fun p key value hold => ?_) (.inr ?_)⟩
    · refine Tracked.mono ?_ ?_ (hinv.tracked p key value hold)
      · rfl
      · exact fun _ hmem => List.mem_append_left _ hmem
    · refine ⟨side, index, m, rfl, by simp, hget, ?_, ?_⟩
      · rw [hseq]
        exact Nat.mod_le _ _
      · rw [hbyte]
        rfl

/-- Every allowed event keeps the invariant. -/
theorem channelInv_step {event : ChannelEvent} (hinv : ChannelInv C S process s)
    (hallowed : event.Allowed S) (hstep : s.step C S process event = some s') :
    ChannelInv C S process s' := by
  cases event with
  | registry side call =>
      obtain ⟨r, happly, rfl⟩ := Option.map_eq_some_iff.mp hstep
      obtain ⟨v, n, hview, hsender⟩ := hinv.sides side
      exact hinv.registry (exists_senderInv_apply hview hsender hallowed happly)
  | send side params =>
      obtain rfl := Option.some.inj hstep
      exact hinv.send side params
  | deliver side index =>
      simp only [Channel.step] at hstep
      split at hstep
      next => cases hstep
      next m hget =>
        obtain rfl := Option.some.inj hstep
        exact hinv.deliver hget
  | receive side sessionId body aadFields capabilityTokenRef =>
      obtain rfl := Option.some.inj hstep
      exact hinv.receive hallowed

end Coivitas.Communication
