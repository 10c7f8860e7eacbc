import Coivitas.Communication.EncryptedChannel

/-! # The round trip of an encrypted channel

A body that one side of the channel has made comes out of the other side as it went in,
across rekeys on both sides. The sequence number has 64 bits in the nonce and any number
of bits in the associated data, so the message after the first `2 ^ 64` of a generation is
the first that cannot be opened.
-/

namespace Coivitas.Communication

open Foundation Coivitas.Types OrderedMap

variable {C : SessionCryptoPorts} {S : ChannelSetup} {π : Type} {process : SessionRole → π}
  {s : Channel π} {role : SessionRole} {n : Nat} {v : SessionView} {h : SessionCryptoHandle}
  {sent : List SentMessage}

/-! ## What is assumed -/

/-- The key identifiers of the generations that a side has reached are distinct. -/
def Channel.KeyIdsDistinct (C : SessionCryptoPorts) (S : ChannelSetup) (s : Channel π) : Prop :=
  ∀ side generation, s.generation S side = some generation → ∀ direction i j, i < j →
    S.data.generation + j ≤ generation →
      S.data.keyIdAt C direction i ≠ S.data.keyIdAt C direction j

/-- A side has the generation: it is its current one, or the one before with the window still
open. -/
def Channel.Holds (S : ChannelSetup) (s : Channel π) (side : SessionRole) (generation : Nat) :
    Prop :=
  s.generation S side = some generation ∨
    s.generation S side = some (generation + 1) ∧ s.windowOpen S side

/-- No message of the generation that was sent later, nor the message itself, was opened. -/
def Channel.InOrder (s : Channel π) (side : SessionRole) (index : Nat) (m : SentMessage) : Prop :=
  ∀ index' m', (side, index') ∈ s.opened → (s.sent side.other)[index']? = some m' →
    m'.generation = m.generation → index' < index

/-- What the cipher has encrypted it decrypts, and the empty text has no bytes. -/
structure CipherLaws (C : SessionCryptoPorts) : Prop where
  decrypt_encrypt : ∀ call ciphertext, aeadEncrypt C call = .ok ciphertext →
    aeadDecrypt C call.key call.nonce call.aad ciphertext = .ok call.plaintext
  base64Bytes_empty : C.base64Bytes "" = []

theorem SenderInv.generation_eq {r : SessionRegistry} (hview : r.view S.sessionId = some v)
    (hinv : SenderInv C S role v n sent) :
    (r.view S.sessionId).map (·.current.generation) = some (S.data.generation + n) := by
  rw [hview, Option.map_some, hinv.side.current.generation]

theorem keyIdAt_inj {side : SessionRole} {generation i j : Nat} {direction : Direction}
    (hdistinct : s.KeyIdsDistinct C S) (hgeneration : s.generation S side = some generation)
    (hi : S.data.generation + i ≤ generation) (hj : S.data.generation + j ≤ generation)
    (h : S.data.keyIdAt C direction i = S.data.keyIdAt C direction j) : i = j := by
  rcases Nat.lt_trichotomy i j with hlt | heq | hgt
  · exact absurd h (hdistinct side generation hgeneration direction i j hlt hj)
  · exact heq
  · exact absurd h.symm (hdistinct side generation hgeneration direction j i hgt hi)

theorem colon_notMem_keyIdAt (data : NewSessionData) (direction : Direction) (k : Nat) :
    ':' ∉ (data.keyIdAt C direction k).toList :=
  colon_notMem_toHex _

/-- A side that has the generation routes to its handle of it. -/
theorem exists_route {side : SessionRole} {k : Nat} (hdistinct : s.KeyIdsDistinct C S)
    (hview : (s.registry side).view S.sessionId = some v) (hside : SenderInv C S side v n sent)
    (hholds : s.Holds S side (S.data.generation + k)) :
    ∃ handle, InGeneration C S side k handle ∧
      (s.registry side).lookupHandleForDecrypt C S.sessionId
        (S.data.keyIdAt C (ownDirection side.other) k) = some handle := by
  have hgeneration : s.generation S side = some (S.data.generation + n) :=
    hside.generation_eq hview
  rw [SessionRegistry.lookupHandleForDecrypt_eq, hview, Option.bind_some,
    hside.side.current.peerKeyId]
  rcases hholds with hcurrent | ⟨hnext, hopen⟩
  · have hk : n = k := by
      have := Option.some.inj (hgeneration.symm.trans hcurrent)
      omega
    subst hk
    exact ⟨v.current, hside.side.current, if_pos rfl⟩
  · have hk : n = k + 1 := by
      have := Option.some.inj (hgeneration.symm.trans hnext)
      omega
    subst hk
    rw [Channel.windowOpen, hview] at hopen
    obtain ⟨old, hold⟩ := Option.isSome_iff_exists.mp hopen
    obtain ⟨k', hk', hgen⟩ := hside.side.previous old hold
    obtain rfl := Nat.succ.inj hk'
    have hne : S.data.keyIdAt C (ownDirection side.other) (k + 1) ≠
        S.data.keyIdAt C (ownDirection side.other) k :=
      (hdistinct side _ hgeneration _ k (k + 1) (Nat.lt_succ_self k) (le_refl _)).symm
    refine ⟨old, hgen, ?_⟩
    rw [if_neg hne, hold, Option.filter_some, if_pos (decide_eq_true hgen.peerKeyId)]

theorem other_injective : Function.Injective SessionRole.other := by
  intro side side'
  cases side <;> cases side' <;> simp [SessionRole.other]

theorem ownDirection_injective : Function.Injective ownDirection := by
  intro side side'
  cases side <;> cases side' <;> simp [ownDirection]

/-- A sent message is of a generation that its side has reached, and has its key identifier. -/
theorem ChannelInv.sent_keyId (hinv : ChannelInv C S process s) {side : SessionRole}
    {m : SentMessage} (hm : m ∈ s.sent side) :
    ∃ n k, s.generation S side = some (S.data.generation + n) ∧ k ≤ n ∧
      m.generation = S.data.generation + k ∧
      m.body.keyId = S.data.keyIdAt C (ownDirection side) k := by
  obtain ⟨v, n, hview, hsender⟩ := hinv.sides side
  obtain ⟨k, hk, hsealed⟩ := hsender.sealed m hm
  obtain ⟨h, ciphertext, -, -, -, -, hbody⟩ := hsealed.exists_handle
  exact ⟨n, k, hsender.generation_eq hview, hk, hsealed.generation, by rw [hbody]⟩

/-- Messages of one side with one key identifier are of one generation. -/
theorem ChannelInv.generation_eq_of_keyId (hinv : ChannelInv C S process s)
    (hdistinct : s.KeyIdsDistinct C S) {side : SessionRole} {m m' : SentMessage}
    (hm : m ∈ s.sent side) (hm' : m' ∈ s.sent side) (hkeyId : m.body.keyId = m'.body.keyId) :
    m.generation = m'.generation := by
  obtain ⟨n, k, hreached, hk, hgeneration, hid⟩ := hinv.sent_keyId hm
  obtain ⟨n', k', hreached', hk', hgeneration', hid'⟩ := hinv.sent_keyId hm'
  have hn := Option.some.inj (hreached.symm.trans hreached')
  have hsame : k = k' := keyIdAt_inj hdistinct hreached (by omega) (by omega)
    (hid.symm.trans (hkeyId.trans hid'))
  rw [hgeneration, hgeneration', hsame]

/-- The tracker has nothing as high as the message for the message's key. -/
theorem ChannelInv.newer (hinv : ChannelInv C S process s) (hdistinct : s.KeyIdsDistinct C S)
    {side : SessionRole} {index : Nat} {m : SentMessage}
    (hget : (s.sent side.other)[index]? = some m) (horder : s.InOrder side index m) {value : Nat}
    (hvalue : (s.tracker (process side)).get? (replayKey S.sessionId
      (ownDirection side.other).byte m.body.keyId) = some value) : value < m.sequenceNumber := by
  have hcolon : ∀ {role m'}, m' ∈ s.sent role → ':' ∉ m'.body.keyId.toList := by
    intro role m' hm'
    obtain ⟨-, k, -, -, -, hid⟩ := hinv.sent_keyId hm'
    exact hid ▸ colon_notMem_keyIdAt _ _ _
  have hm := List.mem_of_getElem? hget
  rcases hinv.tracked _ _ _ hvalue with
    hforeign | ⟨side', index', m', -, hopened, hget', hle, hkey⟩
  · exact absurd rfl (hforeign _ _ (hcolon hm))
  · have hm' := List.mem_of_getElem? hget'
    obtain ⟨-, hbyte, hid⟩ := replayKey_inj (hcolon hm) (hcolon hm') hkey
    have hside : side' = side :=
      other_injective (ownDirection_injective (Direction.byte_injective hbyte.symm))
    subst hside
    have hgeneration := hinv.generation_eq_of_keyId hdistinct hm' hm hid.symm
    have hlt := horder index' m' hopened hget' hgeneration
    obtain ⟨v, n, -, hsender⟩ := hinv.sides side'.other
    obtain ⟨hindex, rfl⟩ := List.getElem?_eq_some_iff.mp hget
    obtain ⟨hindex', rfl⟩ := List.getElem?_eq_some_iff.mp hget'
    rcases List.pairwise_iff_getElem.mp hsender.ordered index' index hindex' hindex hlt with
      hold | ⟨-, hseq⟩
    · exact absurd hgeneration hold.ne
    · exact hle.trans_lt hseq

theorem InGeneration.checkState (hgen : InGeneration C S role n h) (operation : String) :
    h.checkState operation = .ok () := by
  rw [SessionCryptoHandle.checkState, require_eq_ok]
  rcases hgen.state with hstate | hstate
  · simp [hstate]
  · simp [hstate]

/-- The handles of the two sides in one generation: what one encrypts the other decrypts. -/
theorem InGeneration.decrypt {h' : SessionCryptoHandle} (hlaws : CipherLaws C)
    (hgen : InGeneration C S role n h) (hgen' : InGeneration C S role.other n h')
    (hseq : h'.sequenceNumber < 2 ^ 64) {fields : AeadAadFields}
    {plaintext ciphertext : List UInt8}
    (hencrypt : aeadEncrypt C (h'.nextCall C fields plaintext) = .ok ciphertext) :
    h.decrypt C fields ciphertext (h'.nextCall C fields plaintext).nonce = .ok plaintext := by
  obtain ⟨hkey, haad⟩ := hgen.checks hgen' hseq fields plaintext
  simp only [SessionCryptoHandle.decrypt, bind_eq_ok, exists_unit, mapError_eq_ok]
  refine ⟨hgen.checkState _, ?_⟩
  rw [← hkey, ← haad]
  exact hlaws.decrypt_encrypt _ _ hencrypt

/-- In a state that meets the invariant, a message of a generation that the other side holds
is opened, when it comes in order. -/
theorem ChannelInv.opens (hinv : ChannelInv C S process s) (hlaws : CipherLaws C)
    (hdistinct : s.KeyIdsDistinct C S) {side : SessionRole} {index : Nat} {m : SentMessage}
    (hget : (s.sent side.other)[index]? = some m) (hseq : m.sequenceNumber < 2 ^ 64)
    (horder : s.InOrder side index m) (hholds : s.Holds S side m.generation) :
    ((decryptEnvelopeBody C (s.delivery S side m)).run (s.tracker (process side))).result =
      .ok m.params.plaintext := by
  obtain ⟨v, n, hview, hside⟩ := hinv.sides side
  obtain ⟨v', n', -, hsender⟩ := hinv.sides side.other
  obtain ⟨k, -, hsealed⟩ := hsender.sealed m (List.mem_of_getElem? hget)
  obtain ⟨h, ciphertext, hgen, hnumber, htoken, hencrypt, hbody⟩ := hsealed.exists_handle
  rw [hsealed.generation] at hholds
  obtain ⟨handle, hhandle, hlookup⟩ := exists_route hdistinct hview hside hholds
  have hkeyId : m.body.keyId = S.data.keyIdAt C (ownDirection side.other) k := by rw [hbody]
  have hbytes : nonceBytes C m.body.aeadNonce =
      .ok (h.nextCall C m.params.aadFields m.params.plaintext).nonce := by
    rw [hbody]
    exact nonceBytes_toHex C (length_buildAeadNonce _ _ _)
  obtain ⟨hbyte, hread⟩ := hsealed.nonce hbytes
  rw [Nat.mod_eq_of_lt hseq] at hread
  have hopen : openBody C (s.tracker (process side)) (s.delivery S side m) =
      .ok (replayKey S.sessionId (ownDirection side.other).byte m.body.keyId, m.sequenceNumber,
        m.params.plaintext) := by
    refine (openBody_eq_ok C).mpr ⟨?_, _, hbytes, ?_, hread.symm, ?_, handle, ?_, ?_, ?_⟩
    · rw [Channel.delivery, hbody]
      simp
    · rw [hbyte]
      rfl
    · cases hvalue : (s.tracker (process side)).get? (replayKey S.sessionId
        (ownDirection side.other).byte m.body.keyId) with
      | none => rfl
      | some value => exact decide_eq_true (hinv.newer hdistinct hget horder hvalue)
    · rw [routeHandle_eq_ok, Channel.delivery, hkeyId]
      exact hlookup
    · rw [Channel.delivery, hbody, decodeEncryptedField_toHex C hlaws.base64Bytes_empty,
        decodeEncryptedField_toHex C hlaws.base64Bytes_empty]
      exact hhandle.decrypt hlaws hgen (hnumber ▸ hseq) hencrypt
    · rw [hhandle.token, htoken]
      rfl
  rw [run_decryptEnvelopeBody, hopen]

/-! ## Runs -/

/-- Both registries have created the session in opposite roles; nothing was sent, and the
trackers know nothing of the session. -/
structure Channel.Starts (S : ChannelSetup) (s : Channel π) : Prop where
  created : ∀ side, ∃ r : SessionRegistry,
    r.createSession S.sessionId side S.token S.data = .ok (s.registry side)
  sent : ∀ side, s.sent side = []
  tracked : ∀ p key value, (s.tracker p).get? key = some value → Foreign S key

theorem channelInv_start (hstarts : s.Starts S) : ChannelInv C S process s where
  sides side := by
    obtain ⟨r, hcreate⟩ := hstarts.created side
    refine ⟨_, 0, SessionRegistry.view_createSession hcreate, ?_⟩
    rw [hstarts.sent side]
    exact ⟨⟨⟨rfl, rfl, rfl, rfl, rfl, rfl, rfl, .inl rfl⟩, by simp⟩, by simp, by simp,
      List.Pairwise.nil⟩
  tracked p key value hget := .inl (hstarts.tracked p key value hget)

/-- In every state of every run: a body that one side made is opened by the other, to its
plaintext, when no later message of its generation was opened before, the generation is the
receiver's current one or the one before with the window still open, and its sequence number
has 64 bits. -/
theorem encrypted_round_trip [DecidableEq π] (hlaws : CipherLaws C) {start : Channel π}
    (hstarts : start.Starts S) {events : List ChannelEvent}
    (hallowed : ∀ event ∈ events, event.Allowed S)
    (hrun : run (Channel.step C S process) start events = some s)
    (hdistinct : s.KeyIdsDistinct C S) {side : SessionRole} {index : Nat} {m : SentMessage}
    (hget : (s.sent side.other)[index]? = some m) (hseq : m.sequenceNumber < 2 ^ 64)
    (horder : s.InOrder side index m) (hholds : s.Holds S side m.generation) :
    ((decryptEnvelopeBody C (s.delivery S side m)).run (s.tracker (process side))).result =
      .ok m.params.plaintext := by
  have hinv : ChannelInv C S process s :=
    run_invariant (ChannelInv C S process)
      (fun _ _ _ hinv hgood hstep => channelInv_step hinv hgood hstep)
      (channelInv_start hstarts)
      (along_of_forall_mem fun event hevent _ => hallowed event hevent) hrun
  exact hinv.opens hlaws hdistinct hget hseq horder hholds

/-! ## A channel -/

namespace SampleChannel

/-- The bytes, each after a one, and a zero at the end. -/
def tag : List UInt8 → List UInt8
  | [] => [0]
  | b :: rest => 1 :: b :: tag rest

/-- A cipher for any number of messages: it puts the tag of the associated data before the
plaintext. -/
def ports : SessionCryptoPorts where
  numberFormat := .decimal
  sha256 := (SampleSession.ports []).sha256
  hkdfExtract := (SampleSession.ports []).hkdfExtract
  hkdfExpand := (SampleSession.ports []).hkdfExpand
  gcmEncrypt _ _ aad plaintext := .ok (tag aad ++ plaintext)
  gcmDecrypt _ _ aad ciphertext :=
    if (tag aad).isPrefixOf ciphertext then .ok (ciphertext.drop (tag aad).length)
    else .error (.error "invalid tag")
  base64Bytes _ := []

theorem tag_inj {left right rest : List UInt8} (hhead : tag left <+: tag right ++ rest) :
    left = right := by
  induction left generalizing right with
  | nil =>
      cases right with
      | nil => rfl
      | cons b right => simp [tag] at hhead
  | cons a left ih =>
      cases right with
      | nil => simp [tag] at hhead
      | cons b right =>
          simp only [tag, List.cons_append, List.cons_prefix_cons, true_and] at hhead
          rw [hhead.1, ih hhead.2]

theorem laws : CipherLaws ports where
  decrypt_encrypt call ciphertext hencrypt := by
    obtain rfl := Except.ok.inj hencrypt
    simp [aeadDecrypt, ports]
  base64Bytes_empty := rfl

def setup : ChannelSetup where
  sessionId := SampleSession.sessionId
  token := some SampleSession.tokenId
  data := SampleSession.data

def handle (role : SessionRole) : SessionCryptoHandle where
  sessionId := SampleSession.sessionId
  generation := 0
  role := role
  authorizedTokenId := some SampleSession.tokenId
  state := .active
  trafficKeys := SampleSession.data.trafficKeys
  sessionSalt := SampleSession.data.sessionSalt
  rekeyChainKey := SampleSession.data.rekeyChainKey

/-- Both sides in one process. -/
def start : Channel Unit where
  registry role := SessionRegistry.empty.install (handle role) none (by simp)
  tracker _ := .empty
  sent _ := []
  opened := []

theorem starts : start.Starts setup where
  created side := ⟨.empty, rfl⟩
  sent _ := rfl
  tracked _ _ _ hget := by cases hget

def params : EncryptEnvelopeBodyParams where
  sessionId := SampleSession.sessionId
  capabilityTokenRef := SampleSession.tokenId
  aadFields := SampleSession.fields
  plaintext := SampleSession.price "8"
  bodyType := .business

/-- The initiator sends, and the responder rekeys before the message arrives. -/
def events : List ChannelEvent :=
  [.send .initiator params, .registry .responder (.swapForDualKeyChainMode SampleSession.sessionId)]

theorem events_allowed : ∀ event ∈ events, event.Allowed setup := by
  intro event hevent
  simp only [events, List.mem_cons, List.not_mem_nil, or_false] at hevent
  rcases hevent with rfl | rfl
  · trivial
  · exact .inr (.inl rfl)

/-- The state in which the message arrives. -/
def Arrives (s : Channel Unit) : Prop :=
  ((s.sent .initiator)[0]?.map fun m => (m.generation, m.sequenceNumber, m.params.plaintext)) =
      some (0, 0, SampleSession.price "8") ∧
    s.generation setup .initiator = some 0 ∧ s.generation setup .responder = some 1 ∧
    ((s.registry .responder).view SampleSession.sessionId).any (·.previous.isSome) = true ∧
    s.opened = []

instance (s : Channel Unit) : Decidable (Arrives s) :=
  inferInstanceAs (Decidable (_ ∧ _ ∧ _ ∧ _ ∧ _))

theorem ran : (run (Channel.step ports setup fun _ => ()) start events).any
    (fun s => decide (Arrives s)) = true := by
  decide +kernel

theorem keyIds : ∀ direction : Direction,
    setup.data.keyIdAt ports direction 0 ≠ setup.data.keyIdAt ports direction 1 := by
  intro direction
  cases direction <;> decide +kernel

end SampleChannel

/-- A message that arrives after the receiver's rekey, in its window, is opened. -/
theorem encrypted_round_trip_window :
    ∃ s m, run (Channel.step SampleChannel.ports SampleChannel.setup fun _ => ())
        SampleChannel.start SampleChannel.events = some s ∧
      (s.sent .initiator)[0]? = some m ∧ m.params.plaintext = SampleSession.price "8" ∧
      ((decryptEnvelopeBody SampleChannel.ports
        (s.delivery SampleChannel.setup .responder m)).run (s.tracker ())).result =
          .ok (SampleSession.price "8") := by
  obtain ⟨s, hrun, harrives⟩ := (Option.any_eq_true _ _).mp SampleChannel.ran
  obtain ⟨hsent, hinitiator, hresponder, hwindow, hopened⟩ := of_decide_eq_true harrives
  obtain ⟨m, hget, hm⟩ := Option.map_eq_some_iff.mp hsent
  obtain ⟨hgeneration, hseq, hplaintext⟩ : m.generation = 0 ∧ m.sequenceNumber = 0 ∧
      m.params.plaintext = SampleSession.price "8" := by simpa using hm
  have hdistinct : s.KeyIdsDistinct SampleChannel.ports SampleChannel.setup := by
    intro side generation hside direction i j hij hj
    have hle : generation ≤ 1 := by
      cases side with
      | initiator => exact Option.some.inj (hinitiator.symm.trans hside) ▸ Nat.zero_le 1
      | responder => exact (Option.some.inj (hresponder.symm.trans hside)).ge
    have hzero : SampleChannel.setup.data.generation = 0 := rfl
    obtain ⟨rfl, rfl⟩ : i = 0 ∧ j = 1 := by omega
    exact SampleChannel.keyIds direction
  refine ⟨s, m, hrun, hget, hplaintext, hplaintext ▸ ?_⟩
  refine encrypted_round_trip SampleChannel.laws SampleChannel.starts
    SampleChannel.events_allowed hrun hdistinct hget (by rw [hseq]; decide) ?_ ?_
  · intro index' m' hmem
    rw [hopened] at hmem
    cases hmem
  · rw [hgeneration]
    exact .inr ⟨hresponder, hwindow⟩

/-! ## The last sequence number -/

namespace SampleChannel

/-- The initiator has encrypted so many messages, and nothing else has happened. -/
structure Counted (k : Nat) (s : Channel Unit) : Prop where
  view : (s.registry .initiator).view SampleSession.sessionId =
    some ⟨{ handle .initiator with sequenceNumber := k }, none⟩
  responder : s.registry .responder = start.registry .responder
  opened : s.opened = []
  sent : (s.sent .initiator).length = k

theorem counted_start : Counted 0 start where
  view := by decide +kernel
  responder := rfl
  opened := rfl
  sent := rfl

/-- One more message: its nonce and associated data are made from the counter. -/
theorem counted_send {k : Nat} {s : Channel Unit} (hcounted : Counted k s) :
    ∃ s' body ciphertext, s.step ports setup (fun _ => ()) (.send .initiator params) = some s' ∧
      Counted (k + 1) s' ∧ (s'.sent .initiator)[k]? = some ⟨params, body, 0, k⟩ ∧
      aeadEncrypt ports (({ handle .initiator with sequenceNumber := k }).nextCall ports
        params.aadFields params.plaintext) = .ok ciphertext ∧
      body.ciphertext = toHex ciphertext ∧
      body.aeadNonce = toHex (buildAeadNonce .initToResp k SampleSession.data.sessionSalt) := by
  have hview : (s.registry .initiator).view params.sessionId =
      some ⟨{ handle .initiator with sequenceNumber := k }, none⟩ := hcounted.view
  obtain ⟨body, hok⟩ := SessionRegistry.exists_encryptEnvelopeBody ports hview rfl rfl rfl
  obtain ⟨-, ciphertext, hencrypt, hbody⟩ :=
    SessionRegistry.encryptEnvelopeBody_eq_ok ports hview hok
  have hsent : s.sentAfter ports setup .initiator params =
      s.sent .initiator ++ [⟨params, body, 0, k⟩] := by
    have hsession : (s.registry .initiator).view setup.sessionId =
        some ⟨{ handle .initiator with sequenceNumber := k }, none⟩ := hcounted.view
    simp only [Channel.sentAfter, hok, hsession]
    rfl
  refine ⟨_, body, ciphertext, rfl, ⟨?_, ?_, hcounted.opened, ?_⟩, ?_, hencrypt, ?_, ?_⟩
  · rcases SessionRegistry.view_encryptEnvelopeBody ports hview with ⟨-, hthrew⟩ | hafter
    · exact absurd hok (hthrew body)
    · exact hafter
  · exact hcounted.responder
  · simp [hsent, hcounted.sent]
  · simp [hsent, ← hcounted.sent]
  · rw [hbody]
  · rw [hbody]
    rfl

theorem counted_run (k : Nat) :
    ∃ s, run (Channel.step ports setup fun _ => ()) start
      (List.replicate k (.send .initiator params)) = some s ∧ Counted k s := by
  induction k with
  | zero => exact ⟨start, rfl, counted_start⟩
  | succ k ih =>
      obtain ⟨s, hrun, hcounted⟩ := ih
      obtain ⟨s', -, -, hstep, hcounted', -⟩ := counted_send hcounted
      refine ⟨s', ?_, hcounted'⟩
      rw [List.replicate_succ', run_append]
      exact ⟨s, hrun, by rw [run_cons hstep]; rfl⟩

/-- What the cipher opens has the associated data that it was encrypted with. -/
theorem aad_of_decrypt {key key' nonce nonce' aad aad' plaintext opened ciphertext : List UInt8}
    (hencrypt : aeadEncrypt ports ⟨key, nonce, aad, plaintext⟩ = .ok ciphertext)
    (hdecrypt : aeadDecrypt ports key' nonce' aad' ciphertext = .ok opened) : aad' = aad := by
  obtain rfl := Except.ok.inj hencrypt
  simp only [aeadDecrypt, ports] at hdecrypt
  split at hdecrypt
  next hhead => exact tag_inj (List.isPrefixOf_iff_prefix.mp hhead)
  next => cases hdecrypt

/-- A message whose number has more than 64 bits is not opened: the receiver checks it against
the associated data of a lower number. -/
theorem not_opened {k : Nat} (hk : 2 ^ 64 ≤ k) {body : EncryptedBody} {ciphertext : List UInt8}
    (hencrypt : aeadEncrypt ports (({ handle .initiator with sequenceNumber := k }).nextCall ports
      params.aadFields params.plaintext) = .ok ciphertext)
    (hciphertext : body.ciphertext = toHex ciphertext)
    (hnonce : body.aeadNonce = toHex (buildAeadNonce .initToResp k SampleSession.data.sessionSalt))
    (s : Channel Unit) (tracker : ReplayTracker) (plaintext : List UInt8) :
    ((decryptEnvelopeBody ports (s.delivery setup .responder ⟨params, body, 0, k⟩)).run
      tracker).result ≠ .ok plaintext := by
  intro hresult
  rw [run_decryptEnvelopeBody] at hresult
  cases hopen : openBody ports tracker (s.delivery setup .responder ⟨params, body, 0, k⟩) with
  | error fault =>
      rw [hopen] at hresult
      cases hresult
  | ok opened =>
      obtain ⟨rKey, seq, plaintext'⟩ := opened
      obtain ⟨-, -, -, -, -, -, h, -, hdecrypt, -⟩ := (openBody_eq_ok ports).mp hopen
      rw [Channel.delivery, hciphertext, hnonce, decodeEncryptedField_toHex ports rfl,
        decodeEncryptedField_toHex ports rfl] at hdecrypt
      simp only [SessionCryptoHandle.decrypt, bind_eq_ok, exists_unit, mapError_eq_ok] at hdecrypt
      have haad := aad_of_decrypt hencrypt hdecrypt.2
      obtain ⟨-, -, hseq, -⟩ := buildAeadBytes_inj ports haad
      have hread : nonceSequenceNumber
          (buildAeadNonce .initToResp k SampleSession.data.sessionSalt) = k := hseq
      rw [nonceSequenceNumber_buildAeadNonce] at hread
      omega

end SampleChannel

/-- After `2 ^ 64` messages of one generation, the next one is sent in order to a side that
holds its generation and is not opened. -/
theorem encrypted_round_trip_limit :
    CipherLaws SampleChannel.ports ∧ SampleChannel.start.Starts SampleChannel.setup ∧
    ∃ s m, run (Channel.step SampleChannel.ports SampleChannel.setup fun _ => ())
        SampleChannel.start (List.replicate (2 ^ 64 + 1) (.send .initiator SampleChannel.params)) =
          some s ∧
      s.KeyIdsDistinct SampleChannel.ports SampleChannel.setup ∧
      (s.sent .initiator)[2 ^ 64]? = some m ∧ s.InOrder .responder (2 ^ 64) m ∧
      s.Holds SampleChannel.setup .responder m.generation ∧
      ((decryptEnvelopeBody SampleChannel.ports
        (s.delivery SampleChannel.setup .responder m)).run (s.tracker ())).result ≠
          .ok m.params.plaintext := by
  refine ⟨SampleChannel.laws, SampleChannel.starts, ?_⟩
  generalize hlimit : 2 ^ 64 = limit
  obtain ⟨s, hrun, hcounted⟩ := SampleChannel.counted_run limit
  obtain ⟨s', body, ciphertext, hstep, hcounted', hget, hencrypt, hciphertext, hnonce⟩ :=
    SampleChannel.counted_send hcounted
  have hinitiator : s'.generation SampleChannel.setup .initiator = some 0 := by
    have hview := hcounted'.view
    have hsession : SampleChannel.setup.sessionId = SampleSession.sessionId := rfl
    rw [Channel.generation, hsession, hview]
    rfl
  have hresponder : s'.generation SampleChannel.setup .responder = some 0 := by
    rw [Channel.generation, hcounted'.responder]
    decide +kernel
  refine ⟨s', _, ?_, ?_, hget, ?_, .inl hresponder, ?_⟩
  · rw [List.replicate_succ', run_append]
    exact ⟨s, hrun, by rw [run_cons hstep]; rfl⟩
  · intro side generation hside direction i j hij hj
    have hzero : generation = 0 := by
      cases side with
      | initiator => exact Option.some.inj (hside.symm.trans hinitiator)
      | responder => exact Option.some.inj (hside.symm.trans hresponder)
    omega
  · intro index' m' hmem
    rw [hcounted'.opened] at hmem
    cases hmem
  · exact SampleChannel.not_opened hlimit.le hencrypt hciphertext hnonce s' _ _

end Coivitas.Communication
