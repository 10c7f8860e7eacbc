import Coivitas.Communication.Handshake
import Coivitas.Foundation.Run

/-! # Agreement of the two sides of a handshake

Any number of handshakes run at once, in parts that interleave. Envelopes reach an
honest party from a network that may drop, replay, re-address and invent them; only
an envelope that verifies under the key of an honest party has been signed by it
before. The acknowledgement names its session, its nonce and its challenge, but the
initiator does not compare the recipient it is addressed to with itself.
-/

namespace Coivitas.Communication

open Foundation Coivitas.Types Crypto OrderedMap

/-! ## The system -/

local instance instLawfulBEqTicket : LawfulBEq (String × String) := inferInstance

/-- An attempt of an honest initiator that waits for its answer. -/
structure InitiatorRun where
  options : HandshakeInitiatorOptions
  pending : PendingHandshake

/-- A challenge that an honest responder has admitted. -/
structure ResponderRun where
  options : HandshakeResponderOptions
  init : NegotiationEnvelope
  challenge : HandshakeChallenge

/-- An attempt that returned, with the answer it returned on. -/
structure Completion where
  run : InitiatorRun
  envelope : NegotiationEnvelope
  result : HandshakeResult
  agreement : Option SecretAgreement

/-- The honest parties: what they have signed, the attempts and challenges they are
in the middle of, the nonces their stores have claimed, and what came of it. -/
structure HandshakeSystem where
  signed : List (String × NegotiationEnvelope)
  waiting : List InitiatorRun
  admitted : List ResponderRun
  claimed : List (String × String)
  establishing : List ResponderRun
  sessions : List (ResponderRun × Established)
  completed : List Completion

def HandshakeSystem.initial : HandshakeSystem := ⟨[], [], [], [], [], [], []⟩

inductive HandshakeEvent where
  | start (options : HandshakeInitiatorOptions) (params : InitiateParams) (answers : StartAnswers)
  | admitInit (options : HandshakeResponderOptions) (init : NegotiationEnvelope)
      (answers : AdmitAnswers)
  | claim (index : Nat) (answers : AckAnswers)
  | establish (index : Nat) (answers : EstablishAnswers)
  | finish (index : Nat) (envelope : NegotiationEnvelope) (answers : FinishAnswers)
  | signOther (did : String) (envelope : NegotiationEnvelope)

def HandshakeSystem.sign (s : HandshakeSystem) (did : String) :
    Except Fault NegotiationEnvelope → HandshakeSystem
  | .ok envelope => { s with signed := (did, envelope) :: s.signed }
  | .error _ => s

/-- The nonce a run is about, at its responder. -/
def ResponderRun.ticket (run : ResponderRun) : String × String :=
  (run.options.responderDid, run.challenge.nonce)

section System

variable (C : HandshakePorts) (honest : String → Bool)

def startStep (s : HandshakeSystem) (options : HandshakeInitiatorOptions)
    (params : InitiateParams) (answers : StartAnswers) : HandshakeSystem :=
  match startHandshake C options params answers with
  | .error _ => s
  | .ok (pending, init) =>
      { s.sign options.initiatorDid (.ok init) with
        waiting := s.waiting ++ [⟨options, pending⟩] }

def admitStep (s : HandshakeSystem) (options : HandshakeResponderOptions)
    (init : NegotiationEnvelope) (answers : AdmitAnswers) : HandshakeSystem :=
  match admitInit C options init answers with
  | .error _ => s
  | .ok (.inl refusal) => s.sign options.responderDid (.ok refusal)
  | .ok (.inr challenge) => { s with admitted := s.admitted ++ [⟨options, init, challenge⟩] }

/-- The nonce store answers and records in one step. -/
def claimStep (s : HandshakeSystem) (index : Nat) (run : ResponderRun) (answers : AckAnswers) :
    HandshakeSystem :=
  let rest := { s with admitted := s.admitted.eraseIdx index }
  if run.ticket ∈ s.claimed then
    rest.sign run.options.responderDid
      (refuseDuplicate C run.options run.init.header.senderDid run.challenge answers)
  else
    { rest with
      claimed := run.ticket :: s.claimed
      establishing := s.establishing ++ [run] }

def establishStep (s : HandshakeSystem) (index : Nat) (run : ResponderRun)
    (answers : EstablishAnswers) : HandshakeSystem :=
  let outcome :=
    establishSession C run.options run.init.header.senderDid run.challenge answers
  { s.sign run.options.responderDid outcome.ack with
    establishing := s.establishing.eraseIdx index
    sessions := outcome.established.toList.map (run, ·) ++ s.sessions }

def finishStep (s : HandshakeSystem) (index : Nat) (run : InitiatorRun)
    (envelope : NegotiationEnvelope) (answers : FinishAnswers) : HandshakeSystem :=
  let rest := { s with waiting := s.waiting.eraseIdx index }
  match finishHandshake C run.options run.pending envelope answers with
  | .error _ => rest
  | .ok (result, agreement) =>
      { rest with completed := ⟨run, envelope, result, agreement⟩ :: s.completed }

def isHandshakeType (messageType : String) : Bool :=
  messageType = "HANDSHAKE_INIT" || messageType = "HANDSHAKE_ACK"

/-- A step of an honest party. -/
def handshakeStep (s : HandshakeSystem) : HandshakeEvent → Option HandshakeSystem
  | .start options params answers =>
      if honest options.initiatorDid then some (startStep C s options params answers) else none
  | .admitInit options init answers =>
      if honest options.responderDid then some (admitStep C s options init answers) else none
  | .claim index answers => s.admitted[index]?.map fun run => claimStep C s index run answers
  | .establish index answers =>
      s.establishing[index]?.map fun run => establishStep C s index run answers
  | .finish index envelope answers =>
      s.waiting[index]?.map fun run => finishStep C s index run envelope answers
  | .signOther did envelope =>
      if honest did ∧ isHandshakeType envelope.messageType = false then
        some (s.sign did (.ok envelope))
      else none

/-! ## Assumptions on the network -/

def NegotiationEnvelope.payload (envelope : NegotiationEnvelope) : Json :=
  signedPayload envelope.id envelope.specVersion envelope.header envelope.messageType
    envelope.body envelope.timestamp

variable (publicKey : String → String)

/-- What verifies under the key of an honest party was signed by it. -/
def Unforged (s : HandshakeSystem) (envelope : NegotiationEnvelope) : Prop :=
  ∀ did, honest did = true →
    verifyEnvelopeSignature C.toEnvelopeCrypto envelope (publicKey did) = none →
      ∃ original, (did, original) ∈ s.signed ∧
        signedBytes C.toEnvelopeCrypto envelope.payload =
          signedBytes C.toEnvelopeCrypto original.payload

/-- The resolver answers with registered keys. -/
def Registered (resolvePublicKey : String → Except Fault (Option String)) : Prop :=
  ∀ did key, resolvePublicKey did = .ok (some key) → key = publicKey did

def NetworkAssumptions (s : HandshakeSystem) : HandshakeEvent → Prop
  | .admitInit _ init answers =>
      Unforged C honest publicKey s init ∧ Registered publicKey answers.resolvePublicKey
  | .finish _ envelope answers =>
      Unforged C honest publicKey s envelope ∧ Registered publicKey answers.resolvePublicKey
  | _ => True

end System

/-! ## What a signed acknowledgement tells -/

section Signed

variable {C : HandshakePorts}

theorem EnvelopeHeader.names (header : EnvelopeHeader) :
    (([("senderDid", .str header.senderDid), ("recipientDid", .str header.recipientDid),
      ("sessionId", (header.sessionId.map Json.str).getD .null)] ++
      optionalMember "sequenceNumber" (header.sequenceNumber.map .num) ++
      optionalMember "capabilityTokenRef" (header.capabilityTokenRef.map .str) :
        List (String × Json)).map Prod.fst).Nodup := by
  have hsub : (([("senderDid", .str header.senderDid), ("recipientDid", .str header.recipientDid),
      ("sessionId", (header.sessionId.map Json.str).getD .null)] ++
      optionalMember "sequenceNumber" (header.sequenceNumber.map .num) ++
      optionalMember "capabilityTokenRef" (header.capabilityTokenRef.map .str) :
        List (String × Json)).map Prod.fst).Sublist
      (["senderDid", "recipientDid", "sessionId"] ++ ["sequenceNumber"] ++
        ["capabilityTokenRef"]) := by
    simp only [List.map_append]
    exact ((List.Sublist.refl _).append (names_optionalMember _ _)).append
      (names_optionalMember _ _)
  exact List.Nodup.sublist hsub (by simp)

theorem recipientDid_of_sortKeys {header header' : EnvelopeHeader}
    (h : header.toJson.sortKeys = header'.toJson.sortKeys) :
    header.recipientDid = header'.recipientDid := by
  have hlookup := Json.lookup_of_sortKeys_eq header.names header'.names h "recipientDid"
  simpa [JsonReader.lookup_cons, Json.sortKeys] using hlookup

/-- Envelopes with the same signed bytes agree on their recipient, their type and, up
to member order, their body. -/
theorem of_signedBytes_eq {e e' : NegotiationEnvelope}
    (h : signedBytes C.toEnvelopeCrypto e.payload = signedBytes C.toEnvelopeCrypto e'.payload) :
    e.header.recipientDid = e'.header.recipientDid ∧ e.messageType = e'.messageType ∧
      Json.sortKeys (.obj e.body) = Json.sortKeys (.obj e'.body) := by
  have hsorted := (Json.canonicalize_eq_iff C.numberFormat).mp (utf8_injective h)
  have hlookup := Json.lookup_of_sortKeys_eq (by simp) (by simp) hsorted
  refine ⟨recipientDid_of_sortKeys ?_, ?_, ?_⟩
  · simpa [JsonReader.lookup_cons] using hlookup "header"
  · simpa [JsonReader.lookup_cons, Json.sortKeys] using hlookup "messageType"
  · simpa [JsonReader.lookup_cons] using hlookup "body"

/-- An acknowledgement with the signed bytes of another one reads as its body. -/
theorem ackBody_of_sortKeys {members : List (String × Json)} {body ackBody : HandshakeAckBody}
    (hsorted : Json.sortKeys (.obj members) = Json.sortKeys (.obj body.members))
    (hread : Schema.handshakeAckBody (.obj members) = some ackBody) : ackBody = body := by
  have hbody : Schema.handshakeAckBody (.obj body.members) = some ackBody :=
    (Schema.stable_handshakeAckBody _ _ hsorted).symm.trans hread
  exact ((Schema.inverts_handshakeAckBody _ _).mp hbody).2

/-- What the initiator returns of an acknowledgement, and what it confirmed of its
encryption. -/
theorem settleAck_eq_ok {options : HandshakeInitiatorOptions} {pending : PendingHandshake}
    {ackBody : HandshakeAckBody} {result : HandshakeResult} {agreement : Option SecretAgreement}
    (h : settleAck C options pending ackBody = .ok (result, agreement)) :
    result.sessionId = ackBody.response.sessionId ∧
      ∀ a ∈ agreement, a.transcript.initiatorDid = options.initiatorDid ∧
        ∃ encryption ∈ ackBody.response.encryption, encryption.negotiatedMode = .required ∧
          confirmation (computeTranscriptHash C a.transcript) =
            encryption.transcriptHashConfirmation := by
  unfold settleAck at h
  dsimp only at h
  split at h
  next =>
    obtain ⟨rfl, rfl⟩ := Prod.mk.inj (pure_eq_ok.mp h)
    exact ⟨rfl, nofun⟩
  next key _ =>
    split at h
    next encryption hencryption =>
      obtain ⟨hmem, hmode⟩ := Option.filter_eq_some_iff.mp hencryption
      simp only [bind_eq_ok, pure_eq_ok] at h
      obtain ⟨⟨derived, a⟩, hconfirm, hresult⟩ := h
      obtain ⟨rfl, rfl⟩ := Prod.mk.inj hresult
      refine ⟨rfl, ?_⟩
      rintro _ ⟨⟩
      unfold confirmEncryption at hconfirm
      split at hconfirm
      next =>
        simp only [bind_eq_ok, exists_unit, require_eq_ok, pure_eq_ok, Prod.mk.injEq] at hconfirm
        obtain ⟨-, -, _, -, _, -, hmatch, -, rfl⟩ := hconfirm
        exact ⟨rfl, encryption, hmem, by simpa using hmode, hmatch⟩
      next => simp at hconfirm
    next =>
      simp only [bind_eq_ok, exists_unit, require_eq_ok, pure_eq_ok] at h
      obtain ⟨-, hresult⟩ := h
      obtain ⟨rfl, rfl⟩ := Prod.mk.inj hresult
      exact ⟨rfl, nofun⟩

end Signed

/-! ## What holds in every state -/

/-- What the responder has checked of a challenge it goes on with. -/
structure ResponderRun.Checked (run : ResponderRun) : Prop where
  messageType : run.init.messageType = "HANDSHAKE_INIT"
  challenge : Schema.handshakeChallenge ((lookupList "challenge" run.init.body).getD .null) =
    some run.challenge
  initiatorDid : run.challenge.initiatorDid = run.init.header.senderDid
  responderDid : run.challenge.responderDid = run.options.responderDid

/-- The session of a run is between the two parties its challenge names. -/
structure Established.Of (e : Established) (run : ResponderRun) : Prop where
  checked : run.Checked
  initiatorDid : e.record.initiatorDid = run.challenge.initiatorDid
  responderDid : e.record.responderDid = run.options.responderDid
  nonce : e.nonce = run.challenge.nonce

/-- The session that an accepted acknowledgement announces: the recipient is its
initiator, and a confirmation is one of a transcript that names this initiator. -/
structure Announces (C : HandshakePorts) (recipientDid : String) (body : HandshakeAckBody)
    (e : Established) : Prop where
  sessionId : e.record.sessionId = body.response.sessionId
  recipientDid : e.record.initiatorDid = recipientDid
  transcript : ∀ encryption ∈ body.response.encryption, encryption.negotiatedMode = .required →
    ∃ a ∈ e.agreement, a.transcript.initiatorDid = e.record.initiatorDid ∧
      confirmation (computeTranscriptHash C a.transcript) = encryption.transcriptHashConfirmation

/-- A signed acknowledgement that accepts announces a session of its signer. -/
def Accounted (C : HandshakePorts) (sessions : List (ResponderRun × Established)) (did : String)
    (envelope : NegotiationEnvelope) : Prop :=
  envelope.messageType = "HANDSHAKE_ACK" → ∃ body : HandshakeAckBody,
    envelope.body = body.members ∧ (body.accepted = true → ∃ p ∈ sessions,
      p.1.options.responderDid = did ∧ Announces C envelope.header.recipientDid body p.2)

/-- The session behind an attempt that returned. -/
structure Backs (C : HandshakePorts) (c : Completion) (p : ResponderRun × Established) :
    Prop where
  responderDid : p.1.options.responderDid = c.run.pending.params.responderDid
  sessionId : p.2.record.sessionId = c.result.sessionId
  recipientDid : p.2.record.initiatorDid = c.envelope.header.recipientDid
  transcript : ∀ a ∈ c.agreement, a.transcript.initiatorDid = c.run.options.initiatorDid ∧
    ∃ b ∈ p.2.agreement, b.transcript.initiatorDid = p.2.record.initiatorDid ∧
      confirmation (computeTranscriptHash C b.transcript) =
        confirmation (computeTranscriptHash C a.transcript)

/-- The nonces of the runs that got past their claim. -/
def HandshakeSystem.tickets (s : HandshakeSystem) : List (String × String) :=
  s.establishing.map ResponderRun.ticket ++ s.sessions.map fun p => p.1.ticket

structure HandshakeInv (C : HandshakePorts) (honest : String → Bool) (s : HandshakeSystem) :
    Prop where
  runs : ∀ run ∈ s.admitted ++ s.establishing, run.Checked
  sessions : ∀ p ∈ s.sessions, p.2.Of p.1
  signed : ∀ p ∈ s.signed, Accounted C s.sessions p.1 p.2
  tickets : s.tickets.Nodup
  claimed : s.tickets ⊆ s.claimed
  completed : ∀ c ∈ s.completed, honest c.run.pending.params.responderDid = true →
    ∃ p ∈ s.sessions, Backs C c p

section Steps

variable {C : HandshakePorts} {honest : String → Bool} {s : HandshakeSystem}

theorem Accounted.mono {sessions sessions' : List (ResponderRun × Established)} {did : String}
    {envelope : NegotiationEnvelope} (h : Accounted C sessions did envelope)
    (hsub : sessions ⊆ sessions') : Accounted C sessions' did envelope := by
  intro htype
  obtain ⟨body, hbody, hannounced⟩ := h htype
  refine ⟨body, hbody, ?_⟩
  intro haccepted
  obtain ⟨p, hp, hdid, hannounces⟩ := hannounced haccepted
  exact ⟨p, hsub hp, hdid, hannounces⟩

theorem accounted_of_refusal {options : HandshakeResponderOptions} {recipientDid did : String}
    {body : HandshakeAckBody} {envelope : NegotiationEnvelope}
    {sessions : List (ResponderRun × Established)} (hrefused : body.accepted = false)
    (hspoken : SaysAck options recipientDid body envelope) : Accounted C sessions did envelope := by
  intro _
  refine ⟨body, hspoken.body, ?_⟩
  intro haccepted
  exact absurd (hrefused.symm.trans haccepted) (by decide)

theorem HandshakeInv.sign (hinv : HandshakeInv C honest s) (did : String)
    {answer : Except Fault NegotiationEnvelope}
    (hsigned : ∀ envelope, answer = .ok envelope → Accounted C s.sessions did envelope) :
    HandshakeInv C honest (s.sign did answer) := by
  cases answer with
  | error fault => exact hinv
  | ok envelope =>
      refine ⟨hinv.runs, hinv.sessions, ?_, hinv.tickets, hinv.claimed, hinv.completed⟩
      rintro p (_ | ⟨_, hp⟩)
      · exact hsigned envelope rfl
      · exact hinv.signed p hp

theorem startStep_inv (hinv : HandshakeInv C honest s) (options : HandshakeInitiatorOptions)
    (params : InitiateParams) (answers : StartAnswers) :
    HandshakeInv C honest (startStep C s options params answers) := by
  unfold startStep
  split
  next => exact hinv
  next pending init hstart =>
    obtain ⟨_, _, -, -, -, -, -, -, htype, -⟩ := startHandshake_eq_ok hstart
    have hinit : Accounted C s.sessions options.initiatorDid init := by
      intro hack
      exact absurd (htype.symm.trans hack) (by simp)
    have hsigned : HandshakeInv C honest (s.sign options.initiatorDid (.ok init)) :=
      hinv.sign _ fun _ hok => Except.ok.inj hok ▸ hinit
    exact ⟨hsigned.runs, hsigned.sessions, hsigned.signed, hsigned.tickets, hsigned.claimed,
      hsigned.completed⟩

theorem admitStep_inv (hinv : HandshakeInv C honest s) (options : HandshakeResponderOptions)
    (init : NegotiationEnvelope) (answers : AdmitAnswers) :
    HandshakeInv C honest (admitStep C s options init answers) := by
  unfold admitStep
  split
  next => exact hinv
  next refusal hadmit =>
    obtain ⟨challenge, -, ⟨⟨⟩⟩ | ⟨reason, _, ⟨⟩, hrefusal⟩⟩ := admitInit_eq_ok hadmit
    obtain ⟨body, hrefused, hspoken⟩ := buildAck_says hrefusal
    exact hinv.sign _ fun _ hok => Except.ok.inj hok ▸ accounted_of_refusal hrefused hspoken
  next challenge hadmit =>
    obtain ⟨_, hcheck, ⟨⟨⟩⟩ | ⟨_, _, ⟨⟩, _⟩⟩ := admitInit_eq_ok hadmit
    obtain ⟨htype, -, hchallenge, -, hinitiator, hresponder⟩ := checkInit_eq_ok hcheck
    refine ⟨?_, hinv.sessions, hinv.signed, hinv.tickets, hinv.claimed, hinv.completed⟩
    intro run hrun
    simp only [List.mem_append, List.mem_singleton] at hrun
    obtain (hrun | rfl) | hrun := hrun
    · exact hinv.runs run (List.mem_append_left _ hrun)
    · exact ⟨htype, hchallenge, hinitiator, hresponder⟩
    · exact hinv.runs run (List.mem_append_right _ hrun)

theorem claimStep_inv (hinv : HandshakeInv C honest s) {index : Nat} {run : ResponderRun}
    (hrun : s.admitted[index]? = some run) (answers : AckAnswers) :
    HandshakeInv C honest (claimStep C s index run answers) := by
  have hadmitted : run ∈ s.admitted := List.mem_of_getElem? hrun
  have hruns : ∀ other ∈ s.admitted.eraseIdx index ++ s.establishing, other.Checked := by
    intro other hother
    obtain hother | hother := List.mem_append.mp hother
    · exact hinv.runs other (List.mem_append_left _ (List.mem_of_mem_eraseIdx hother))
    · exact hinv.runs other (List.mem_append_right _ hother)
  unfold claimStep
  dsimp only
  split
  next =>
    have hrest : HandshakeInv C honest { s with admitted := s.admitted.eraseIdx index } :=
      ⟨hruns, hinv.sessions, hinv.signed, hinv.tickets, hinv.claimed, hinv.completed⟩
    refine hrest.sign _ ?_
    intro refusal hrefusal
    obtain ⟨body, hrefused, hspoken⟩ := buildAck_says hrefusal
    exact accounted_of_refusal hrefused hspoken
  next hfresh =>
    have htickets : (s.establishing ++ [run]).map ResponderRun.ticket ++
        s.sessions.map (fun p => p.1.ticket) |>.Perm (run.ticket :: s.tickets) := by
      simp only [List.map_append, List.map_cons, List.map_nil, List.append_assoc,
        HandshakeSystem.tickets]
      exact List.perm_middle
    refine ⟨?_, hinv.sessions, hinv.signed, ?_, ?_, hinv.completed⟩
    · intro other hother
      rw [← List.append_assoc] at hother
      obtain hother | hother := List.mem_append.mp hother
      · exact hruns other hother
      · exact List.mem_singleton.mp hother ▸ hinv.runs run (List.mem_append_left _ hadmitted)
    · refine htickets.nodup_iff.mpr (List.nodup_cons.mpr ⟨?_, hinv.tickets⟩)
      exact fun hmem => hfresh (hinv.claimed hmem)
    · intro ticket hticket
      obtain rfl | hmem := List.mem_cons.mp (htickets.mem_iff.mp hticket)
      · exact List.mem_cons_self
      · exact List.mem_cons_of_mem _ (hinv.claimed hmem)

/-- The session that the responder creates, and the body that announces it. -/
theorem establish_announces {run : ResponderRun} {fingerprint : Option String}
    {answers : EstablishAnswers} {e : Established} {body : HandshakeAckBody}
    (hchecked : run.Checked)
    (h : establish C run.options run.init.header.senderDid run.challenge fingerprint answers =
      .ok (e, body)) : e.Of run ∧ Announces C run.init.header.senderDid body e := by
  obtain ⟨mode, keys, -, hkeys, rfl, rfl⟩ := establish_eq_ok h
  refine ⟨⟨hchecked, hchecked.initiatorDid.symm, rfl, rfl⟩, rfl, rfl, ?_⟩
  intro encryption hencryption hmode
  obtain ⟨-, rfl⟩ | ⟨-, derived, rfl, hagree⟩ := keysFor_eq_ok hkeys
  · simp only [acceptedBody, encryptionForResponse, Option.map_none] at hencryption
    split at hencryption
    next =>
      cases hencryption
      cases hmode
    next => cases hencryption
  · obtain ⟨offer, _, _, -, -, -, htranscript, -, hderived⟩ := agreeKeys_eq_ok hagree
    cases hencryption
    refine ⟨derived.2, rfl, ?_, ?_⟩
    · rw [htranscript]
      exact hchecked.initiatorDid
    · rw [hderived]

/-- A run that got past its claim leaves, with the session it created if it created one. -/
theorem HandshakeInv.leave (hinv : HandshakeInv C honest s) {index : Nat} {run : ResponderRun}
    (hrun : s.establishing[index]? = some run) {created : Option Established}
    (hcreated : ∀ e ∈ created, e.Of run) :
    HandshakeInv C honest { s with
      establishing := s.establishing.eraseIdx index
      sessions := created.toList.map (run, ·) ++ s.sessions } := by
  obtain ⟨hindex, hget⟩ := List.getElem?_eq_some_iff.mp hrun
  have herased : (run :: s.establishing.eraseIdx index).Perm s.establishing :=
    hget ▸ List.getElem_cons_eraseIdx_perm hindex
  have hperm : ((s.establishing.eraseIdx index).map ResponderRun.ticket ++
      ([run.ticket] ++ s.sessions.map fun p => p.1.ticket)).Perm s.tickets :=
    List.perm_middle.trans ((herased.map ResponderRun.ticket).append_right _)
  have hsublist : ((s.establishing.eraseIdx index).map ResponderRun.ticket ++
      (created.toList.map (run, ·) ++ s.sessions).map fun p => p.1.ticket).Sublist
      ((s.establishing.eraseIdx index).map ResponderRun.ticket ++
        ([run.ticket] ++ s.sessions.map fun p => p.1.ticket)) := by
    rw [List.map_append]
    refine (List.Sublist.refl _).append (List.Sublist.append ?_ (List.Sublist.refl _))
    cases created with
    | none => exact List.nil_sublist _
    | some e => exact List.Sublist.refl _
  have hsessions : s.sessions ⊆ created.toList.map (run, ·) ++ s.sessions :=
    List.subset_append_right _ _
  refine ⟨?_, ?_, ?_, ?_, ?_, ?_⟩
  · intro other hother
    obtain hother | hother := List.mem_append.mp hother
    · exact hinv.runs other (List.mem_append_left _ hother)
    · exact hinv.runs other (List.mem_append_right _ (List.mem_of_mem_eraseIdx hother))
  · intro p hp
    obtain hp | hp := List.mem_append.mp hp
    · obtain ⟨e, he, rfl⟩ := List.mem_map.mp hp
      exact hcreated e (Option.mem_toList.mp he)
    · exact hinv.sessions p hp
  · intro p hp
    exact (hinv.signed p hp).mono hsessions
  · exact (hperm.nodup_iff.mpr hinv.tickets).sublist hsublist
  · intro ticket hticket
    exact hinv.claimed (hperm.mem_iff.mp (hsublist.subset hticket))
  · intro c hc hhonest
    obtain ⟨p, hp, hbacks⟩ := hinv.completed c hc hhonest
    exact ⟨p, hsessions hp, hbacks⟩

theorem establishStep_inv (hinv : HandshakeInv C honest s) {index : Nat} {run : ResponderRun}
    (hrun : s.establishing[index]? = some run) (answers : EstablishAnswers) :
    HandshakeInv C honest (establishStep C s index run answers) := by
  have hchecked : run.Checked :=
    hinv.runs run (List.mem_append_right _ (List.mem_of_getElem? hrun))
  have hcommute : ∀ answer created,
      { s.sign run.options.responderDid answer with
        establishing := s.establishing.eraseIdx index
        sessions := created } =
      HandshakeSystem.sign { s with
        establishing := s.establishing.eraseIdx index
        sessions := created } run.options.responderDid answer := by
    intro answer created
    cases answer <;> rfl
  have hcases :=
    establishSession_cases (C := C) run.options run.init.header.senderDid run.challenge answers
  unfold establishStep
  dsimp only at hcases ⊢
  rw [hcommute]
  generalize establishSession C run.options run.init.header.senderDid run.challenge answers =
    outcome at hcases ⊢
  obtain ⟨created, ack⟩ := outcome
  obtain ⟨rfl, hack⟩ | ⟨fingerprint, e, body, hestablish, rfl, hack⟩ := hcases
  · refine (hinv.leave hrun (by simp)).sign _ ?_
    intro envelope henvelope
    obtain ⟨body, hrefused, hspoken⟩ := hack envelope henvelope
    exact accounted_of_refusal hrefused hspoken
  · obtain ⟨hof, hannounces⟩ := establish_announces hchecked hestablish
    have hcreated : ∀ e' ∈ some e, e'.Of run := by
      rintro _ ⟨⟩
      exact hof
    refine (hinv.leave hrun hcreated).sign _ ?_
    intro envelope henvelope _
    have hspoken := signAck_says (hack.symm.trans henvelope)
    refine ⟨body, hspoken.body, ?_⟩
    intro _
    exact ⟨(run, e), List.mem_cons_self, rfl, hspoken.recipientDid ▸ hannounces⟩

variable {publicKey : String → String}

/-- An acknowledgement an honest attempt goes on with is one that the responder signed. -/
theorem backed_of_finish (hinv : HandshakeInv C honest s) {run : InitiatorRun}
    {envelope : NegotiationEnvelope} {answers : FinishAnswers} {result : HandshakeResult}
    {agreement : Option SecretAgreement} (hunforged : Unforged C honest publicKey s envelope)
    (hregistered : Registered publicKey answers.resolvePublicKey)
    (hhonest : honest run.pending.params.responderDid = true)
    (h : finishHandshake C run.options run.pending envelope answers = .ok (result, agreement)) :
    ∃ p ∈ s.sessions, Backs C ⟨run, envelope, result, agreement⟩ p := by
  simp only [finishHandshake, bind_eq_ok] at h
  obtain ⟨ackBody, hcheck, hsettle⟩ := h
  obtain ⟨-, hverify, htype, hsender, hread, haccepted, -, -, -⟩ := checkAck_eq_ok.mp hcheck
  obtain ⟨hsession, htranscript⟩ := settleAck_eq_ok hsettle
  obtain ⟨-, -, key, hkey, -, hsignature⟩ := verifyEnvelopeAt_eq_none.mp hverify
  obtain rfl := hregistered _ _ hkey
  rw [hsender] at hsignature
  obtain ⟨original, horiginal, hbytes⟩ := hunforged _ hhonest hsignature
  obtain ⟨hrecipient, htypes, hbody⟩ := of_signedBytes_eq hbytes
  obtain ⟨body, hmembers, hannounced⟩ := hinv.signed _ horiginal (htypes ▸ htype)
  dsimp only at hannounced hmembers
  rw [hmembers] at hbody
  obtain rfl := ackBody_of_sortKeys hbody hread
  obtain ⟨p, hp, hdid, hannounces⟩ := hannounced haccepted
  refine ⟨p, hp, hdid, hannounces.sessionId.trans hsession.symm,
    hannounces.recipientDid.trans hrecipient.symm, ?_⟩
  intro a ha
  obtain ⟨hinitiator, encryption, hencryption, hmode, hconfirmed⟩ := htranscript a ha
  obtain ⟨b, hb, hnames, hconfirms⟩ := hannounces.transcript encryption hencryption hmode
  exact ⟨hinitiator, b, hb, hnames, hconfirms.trans hconfirmed.symm⟩

theorem finishStep_inv (hinv : HandshakeInv C honest s) {index : Nat} {run : InitiatorRun}
    {envelope : NegotiationEnvelope} {answers : FinishAnswers}
    (hunforged : Unforged C honest publicKey s envelope)
    (hregistered : Registered publicKey answers.resolvePublicKey) :
    HandshakeInv C honest (finishStep C s index run envelope answers) := by
  unfold finishStep
  dsimp only
  split
  next =>
    exact ⟨hinv.runs, hinv.sessions, hinv.signed, hinv.tickets, hinv.claimed, hinv.completed⟩
  next result agreement hfinish =>
    refine ⟨hinv.runs, hinv.sessions, hinv.signed, hinv.tickets, hinv.claimed, ?_⟩
    rintro c (_ | ⟨_, hc⟩) hhonest
    · exact backed_of_finish hinv hunforged hregistered hhonest hfinish
    · exact hinv.completed c hc hhonest

theorem handshakeStep_inv {s' : HandshakeSystem} {event : HandshakeEvent}
    (hinv : HandshakeInv C honest s) (hnetwork : NetworkAssumptions C honest publicKey s event)
    (hstep : handshakeStep C honest s event = some s') : HandshakeInv C honest s' := by
  cases event with
  | start options params answers =>
      simp only [handshakeStep, Option.ite_none_right_eq_some, Option.some.injEq] at hstep
      exact hstep.2 ▸ startStep_inv hinv options params answers
  | admitInit options init answers =>
      simp only [handshakeStep, Option.ite_none_right_eq_some, Option.some.injEq] at hstep
      exact hstep.2 ▸ admitStep_inv hinv options init answers
  | claim index answers =>
      simp only [handshakeStep, Option.map_eq_some_iff] at hstep
      obtain ⟨run, hrun, rfl⟩ := hstep
      exact claimStep_inv hinv hrun answers
  | establish index answers =>
      simp only [handshakeStep, Option.map_eq_some_iff] at hstep
      obtain ⟨run, hrun, rfl⟩ := hstep
      exact establishStep_inv hinv hrun answers
  | finish index envelope answers =>
      simp only [handshakeStep, Option.map_eq_some_iff] at hstep
      obtain ⟨run, -, rfl⟩ := hstep
      exact finishStep_inv hinv hnetwork.1 hnetwork.2
  | signOther did envelope =>
      simp only [handshakeStep, Option.ite_none_right_eq_some, Option.some.injEq] at hstep
      obtain ⟨⟨-, hother⟩, rfl⟩ := hstep
      refine hinv.sign did ?_
      rintro _ ⟨⟩ hack
      simp [isHandshakeType, hack] at hother

theorem handshake_inv {s : HandshakeSystem} {events : List HandshakeEvent}
    (hnetwork : Along (handshakeStep C honest) (NetworkAssumptions C honest publicKey) .initial
      events)
    (hrun : Foundation.run (handshakeStep C honest) .initial events = some s) :
    HandshakeInv C honest s := by
  have hinitial : HandshakeInv C honest .initial := by
    constructor <;> simp [HandshakeSystem.initial, HandshakeSystem.tickets]
  exact run_invariant (HandshakeInv C honest) (fun _ _ _ hinv hgood hstep =>
    handshakeStep_inv hinv hgood hstep) hinitial hnetwork hrun

end Steps

/-! ## Agreement -/

/-- The responder accepted a challenge of the initiator and created the session that the
attempt returned, with this initiator. -/
structure Agrees (c : Completion) (p : ResponderRun × Established) : Prop where
  checked : p.1.Checked
  challenge : p.1.challenge.initiatorDid = c.run.options.initiatorDid
  responder : p.1.options.responderDid = c.run.pending.params.responderDid
  sessionId : p.2.record.sessionId = c.result.sessionId
  initiatorDid : p.2.record.initiatorDid = c.run.options.initiatorDid
  responderDid : p.2.record.responderDid = c.run.pending.params.responderDid

def HandshakeSystem.Agreed (s : HandshakeSystem) (c : Completion) : Prop :=
  ∃ p ∈ s.sessions, Agrees c p

/-- The acknowledgement is addressed to the initiator that completes on it. -/
def Completion.Addressed (c : Completion) : Prop :=
  c.envelope.header.recipientDid = c.run.options.initiatorDid

/-- No two sessions have the same identifier. -/
def HandshakeSystem.DistinctSessions (s : HandshakeSystem) : Prop :=
  (s.sessions.map fun p => p.2.record.sessionId).Nodup

/-- No transcript of an attempt and a different one of a session have the same
confirmation. -/
def HandshakeSystem.Collisionless (C : HandshakePorts) (s : HandshakeSystem) : Prop :=
  ∀ c ∈ s.completed, ∀ a ∈ c.agreement, ∀ p ∈ s.sessions, ∀ b ∈ p.2.agreement,
    confirmation (computeTranscriptHash C b.transcript) =
      confirmation (computeTranscriptHash C a.transcript) → b.transcript = a.transcript

section Agreement

variable {C : HandshakePorts} {honest : String → Bool} {publicKey : String → String}

theorem Backs.agrees {c : Completion} {p : ResponderRun × Established} (h : Backs C c p)
    (hof : p.2.Of p.1) (haddressed : c.Addressed) : Agrees c p where
  checked := hof.checked
  challenge := hof.initiatorDid.symm.trans (h.recipientDid.trans haddressed)
  responder := h.responderDid
  sessionId := h.sessionId
  initiatorDid := h.recipientDid.trans haddressed
  responderDid := hof.responderDid.trans h.responderDid

/-- In mode `REQUIRED` the transcript of the attempt names its initiator. -/
theorem Backs.addressed_of_agreement {s : HandshakeSystem} {c : Completion}
    {p : ResponderRun × Established} (h : Backs C c p) (hc : c ∈ s.completed)
    (hp : p ∈ s.sessions) (hsome : c.agreement.isSome = true)
    (hcollisionless : s.Collisionless C) : c.Addressed := by
  obtain ⟨a, ha⟩ := Option.isSome_iff_exists.mp hsome
  obtain ⟨hinitiator, b, hb, hnames, hconfirms⟩ := h.transcript a ha
  have htranscript : b.transcript = a.transcript := hcollisionless c hc a ha p hp b hb hconfirms
  calc c.envelope.header.recipientDid
      = p.2.record.initiatorDid := h.recipientDid.symm
    _ = b.transcript.initiatorDid := hnames.symm
    _ = a.transcript.initiatorDid := by rw [htranscript]
    _ = c.run.options.initiatorDid := hinitiator

/-- In every run, an attempt that returns agrees with its honest responder exactly when
the acknowledgement it returned on is addressed to it, which in mode `REQUIRED` its
transcript enforces; a nonce has one session at most. -/
theorem handshake_agreement {s : HandshakeSystem} {events : List HandshakeEvent}
    (hnetwork : Along (handshakeStep C honest) (NetworkAssumptions C honest publicKey) .initial
      events)
    (hrun : Foundation.run (handshakeStep C honest) .initial events = some s) :
    (s.sessions.map fun p => p.1.ticket).Nodup ∧
      ∀ c ∈ s.completed, honest c.run.pending.params.responderDid = true →
        (c.Addressed → s.Agreed c) ∧
        (s.DistinctSessions → s.Agreed c → c.Addressed) ∧
        (c.agreement.isSome = true → s.Collisionless C → c.Addressed) := by
  have hinv := handshake_inv hnetwork hrun
  refine ⟨hinv.tickets.sublist (List.sublist_append_right _ _), ?_⟩
  intro c hc hhonest
  obtain ⟨p, hp, hbacks⟩ := hinv.completed c hc hhonest
  refine ⟨?_, ?_, hbacks.addressed_of_agreement hc hp⟩
  · intro haddressed
    exact ⟨p, hp, hbacks.agrees (hinv.sessions p hp) haddressed⟩
  · rintro hdistinct ⟨q, hq, hagrees⟩
    have hsame : q = p :=
      List.inj_on_of_nodup_map hdistinct hq hp (hagrees.sessionId.trans hbacks.sessionId.symm)
    exact hbacks.recipientDid.symm.trans (hsame ▸ hagrees.initiatorDid)

end Agreement

/-! ## A relayed challenge -/

namespace RelayedChallenge

def initiatorDid : String := "did:agent:6ff43316a17136e4bf6eb1773b13b1db74c3a601"
def responderDid : String := "did:agent:8ac1b6deca69c592c885c166228553c5c1c7746a"
def relayDid : String := "did:agent:b7250bfb2c9bebb66b5b27845a51fbc52ca9f42a"

def publicKey (did : String) : String :=
  if did = initiatorDid then "2f29d40e37d72ef7ace488fd1d8e2fc1fa47db92b3c5d65b114e2f0150521b0c"
  else if did = responderDid then
    "18322aa4a5c2521cecd756a2a2d13cf6fd0931cd632b8daf7f733ab9c246d6c8"
  else if did = relayDid then "396eee406935a9a23fcb59cdce701b332360449e42d246617a115db99273db79"
  else ""

def resolvePublicKey (did : String) : Except Fault (Option String) := .ok (some (publicKey did))

def honest (did : String) : Bool := did ∈ [initiatorDid, responderDid]

def initSignature : String :=
    "c7d4a2c303a1fea3d829b467c96d6365af6be80835e038b8801fa5b02a1f8a6b2d6132c18a30f2d122e85b53b5e8dfbde0c88f0a0fdc017ed3af67d378bf9700"

def relaySignature : String :=
    "6f24f8508fbd8f64766c87dbec128bc6066bd5e1407aefbcc0059429eb64df59f9a434d863f59a64cd9ab0deda9c72105f8ad170a24f388febcd41538fd78407"

/-- The signatures of a run in which the responder signs one acknowledgement; its mode is
`OFF`, so no key is agreed on. -/
def ports (ackSignature : String) : HandshakePorts where
  numberFormat := NumberFormat.decimal
  getTime := Calendar.getTime
  sign _ privateKey _ := .ok (if privateKey =
    "a56461a633e0605b020b6cf79bf14e5d7fef44f2af060148c3170d6e6335a6e3" then initSignature
    else ackSignature)
  verify _ signature key := .ok (decide ((key, signature) ∈
    [(publicKey initiatorDid, initSignature), (publicKey responderDid, ackSignature),
      (publicKey relayDid, relaySignature)]))
  sha256 _ := []
  getPublicKey _ := []
  getSharedSecret _ _ := .ok []
  hkdfExtract _ _ := []
  hkdfExpand _ _ _ := []
  firstIssue _ _ := ⟨"/", "", ""⟩

def initiator : HandshakeInitiatorOptions where
  initiatorDid := initiatorDid
  initiatorPrivateKey := "a56461a633e0605b020b6cf79bf14e5d7fef44f2af060148c3170d6e6335a6e3"
  capabilities := ["INQUIRY", "QUOTE"]

def responder : HandshakeResponderOptions where
  responderDid := responderDid
  responderPrivateKey := "3188e06dce2313d4267815510a6c22ef2687392470e1745429fe163df2a48436"
  capabilities := ["INQUIRY", "QUOTE"]

/-- The challenge under the name of an initiator. -/
def challenge (did : String) : HandshakeChallenge where
  challengeId := "5b8f0d7e-3c64-4a52-9b1f-7d2e6c8a9f10"
  initiatorDid := did
  responderDid := responderDid
  nonce := "8c3bbbab15d9a20d8ab5ac317614ab6f246795574c0a1c51582f5f5373001230"
  timestamp := "2026-03-01T00:00:00.000Z"
  expiresAt := "2026-03-01T00:01:00.000Z"
  initiatorCapabilities := ["INQUIRY", "QUOTE"]
  principalDid := none
  capabilityTokenId := none
  resumeSessionId := none
  encryption := none

def init (id did signature : String) : NegotiationEnvelope where
  id := id
  specVersion := "0.1.0"
  header := ⟨did, responderDid, none, none, none⟩
  messageType := "HANDSHAKE_INIT"
  body := [("challenge", (challenge did).toJson)]
  timestamp := "2026-03-01T00:00:00.000Z"
  signature := signature

def sessionId : String := "e2a4c6d8-1b3f-4d57-8a9c-0f1e2d3c4b5a"

def ackBody : HandshakeAckBody where
  response :=
    { challengeId := "5b8f0d7e-3c64-4a52-9b1f-7d2e6c8a9f10"
      sessionId := sessionId
      responderDid := responderDid
      responderCapabilities := ["INQUIRY", "QUOTE"]
      nonce := "8c3bbbab15d9a20d8ab5ac317614ab6f246795574c0a1c51582f5f5373001230"
      timestamp := "2026-03-01T00:00:01.000Z"
      encryption := none }
  accepted := true
  reason := none

def ack (did signature : String) : NegotiationEnvelope where
  id := "2f5b7c9d-4e6a-4b82-8d3f-5a7c9e1f2b43"
  specVersion := "0.1.0"
  header := ⟨responderDid, did, some sessionId, none, none⟩
  messageType := "HANDSHAKE_ACK"
  body := ackBody.members
  timestamp := "2026-03-01T00:00:01.000Z"
  signature := signature

def ackAnswers : AckAnswers :=
  ⟨1772323201000, "2f5b7c9d-4e6a-4b82-8d3f-5a7c9e1f2b43", 1772323201000⟩

/-- A run in which the responder answers the challenge, and the initiator gets the answer. -/
def events (challenge answer : NegotiationEnvelope) : List HandshakeEvent :=
  [.start initiator ⟨responderDid, none, none, 30000⟩
      ⟨"8c3bbbab15d9a20d8ab5ac317614ab6f246795574c0a1c51582f5f5373001230", 1772323200000,
        "5b8f0d7e-3c64-4a52-9b1f-7d2e6c8a9f10", [], "0d3f5a7b-2c4e-4f60-8b1d-3e5a7c9d0f21",
        1772323200000⟩,
    .admitInit responder challenge
      ⟨1772323201000, resolvePublicKey, 1772323201000, fun _ => .ok true, ackAnswers⟩,
    .claim 0 ackAnswers,
    .establish 0 ⟨sessionId, none, [], none, ackAnswers⟩,
    .finish 0 answer ⟨1772323201000, resolvePublicKey⟩]

def ackSignature : String :=
    "5487e20f1ac0964b7d8bbeac542bfc6c14f140b028aa693325380536d2a330e3f4797b7e56497cc59b8cb3f5f644004f9a394bba56b442fd05931f2c23d1be0e"

def relayedSignature : String :=
    "e3a73b49bd6308e545f97af3df5a1db35986010e7a9b8cfc497b20823d62c69ea0b7dc3028f276af9ef4d3b1e321afad45d363ffcf0071534f1e23759fbbdb07"

def directEvents : List HandshakeEvent :=
  events (init "0d3f5a7b-2c4e-4f60-8b1d-3e5a7c9d0f21" initiatorDid initSignature)
    (ack initiatorDid ackSignature)

/-- The relay signs a challenge of its own with the nonce and the challenge id it has seen,
and passes the answer on. -/
def relayedEvents : List HandshakeEvent :=
  events (init "1e4a6b8c-3d5f-4a71-9c2e-4f6b8d0e1a32" relayDid relaySignature)
    (ack relayDid relayedSignature)

/-- What verifies under an honest key has been signed as it is. -/
def Delivered (signature : String) (s : HandshakeSystem) : HandshakeEvent → Prop
  | .admitInit _ envelope _ | .finish _ envelope _ => ∀ did ∈ [initiatorDid, responderDid],
      verifyEnvelopeSignature (ports signature).toEnvelopeCrypto envelope (publicKey did) = none →
        (did, envelope) ∈ s.signed
  | _ => True

instance (signature : String) (s : HandshakeSystem) (event : HandshakeEvent) :
    Decidable (Delivered signature s event) := by
  cases event <;> (unfold Delivered; infer_instance)

theorem registered : Registered publicKey resolvePublicKey := by
  intro did key h
  cases h
  rfl

theorem unforged_of_signed {signature : String} {s : HandshakeSystem}
    {envelope : NegotiationEnvelope}
    (h : ∀ did ∈ [initiatorDid, responderDid],
      verifyEnvelopeSignature (ports signature).toEnvelopeCrypto envelope (publicKey did) = none →
        (did, envelope) ∈ s.signed) : Unforged (ports signature) honest publicKey s envelope := by
  intro did hdid hverify
  exact ⟨envelope, h did (of_decide_eq_true hdid) hverify, rfl⟩

theorem along_network {signature : String} {challenge answer : NegotiationEnvelope}
    (h : Along (handshakeStep (ports signature) honest) (Delivered signature) .initial
      (events challenge answer)) :
    Along (handshakeStep (ports signature) honest)
      (NetworkAssumptions (ports signature) honest publicKey) .initial
      (events challenge answer) := by
  have hresolvers : ∀ event ∈ events challenge answer, ∀ _ : HandshakeSystem,
      match event with
      | .admitInit _ _ answers => Registered publicKey answers.resolvePublicKey
      | .finish _ _ answers => Registered publicKey answers.resolvePublicKey
      | _ => True := by
    simp [events, registered]
  refine (h.and (along_of_forall_mem hresolvers)).mono ?_
  intro s event hgood
  cases event with
  | admitInit _ _ _ => exact ⟨unforged_of_signed hgood.1, hgood.2⟩
  | finish _ _ _ => exact ⟨unforged_of_signed hgood.1, hgood.2⟩
  | _ => trivial

/-- Without a relay the two sides agree. -/
theorem direct_agrees :
    ∃ s, Foundation.run (handshakeStep (ports ackSignature) honest) .initial directEvents =
        some s ∧
      ∃ c ∈ s.completed, c.result.sessionId = sessionId ∧ s.Agreed c := by
  obtain ⟨hdelivered, hcompleted⟩ :
      Along (handshakeStep (ports ackSignature) honest) (Delivered ackSignature) .initial
        directEvents ∧
      (Foundation.run (handshakeStep (ports ackSignature) honest) .initial directEvents).map
        (fun s => s.completed.map fun c => (c.run.pending.params.responderDid,
          c.result.sessionId, c.run.options.initiatorDid, c.envelope.header.recipientDid)) =
        some [(responderDid, sessionId, initiatorDid, initiatorDid)] := by decide +kernel
  obtain ⟨s, hs, hcompleted⟩ := Option.map_eq_some_iff.mp hcompleted
  obtain ⟨c, hc, hfacts⟩ := List.map_eq_singleton_iff.mp hcompleted
  simp only [Prod.mk.injEq] at hfacts
  obtain ⟨hresponder, hsession, hinitiator, hrecipient⟩ := hfacts
  have hmem : c ∈ s.completed := hc ▸ List.mem_singleton_self c
  have hhonest : honest c.run.pending.params.responderDid = true := by
    rw [hresponder]
    decide
  refine ⟨s, hs, c, hmem, hsession, ?_⟩
  have hagreement := handshake_agreement (along_network hdelivered) hs
  exact (hagreement.2 c hmem hhonest).1 (hrecipient.trans hinitiator.symm)

/-- A relay that copies a challenge gets the session: the attempt of the initiator returns
its identifier, and the responder has no session with the initiator. -/
theorem relayed_disagrees :
    ¬ ∀ s events, Along (handshakeStep (ports relayedSignature) honest)
        (NetworkAssumptions (ports relayedSignature) honest publicKey) .initial events →
      Foundation.run (handshakeStep (ports relayedSignature) honest) .initial events = some s →
      ∀ c ∈ s.completed, honest c.run.pending.params.responderDid = true → s.Agreed c := by
  intro hclaim
  obtain ⟨hdelivered, hstate⟩ :
      Along (handshakeStep (ports relayedSignature) honest) (Delivered relayedSignature) .initial
        relayedEvents ∧
      (Foundation.run (handshakeStep (ports relayedSignature) honest) .initial relayedEvents).map
        (fun s => (s.completed.map fun c => (c.run.pending.params.responderDid,
          c.run.options.initiatorDid), s.sessions.map fun p => p.2.record.initiatorDid)) =
        some ([(responderDid, initiatorDid)], [relayDid]) := by decide +kernel
  obtain ⟨s, hs, hstate⟩ := Option.map_eq_some_iff.mp hstate
  obtain ⟨hcompleted, hsessions⟩ := Prod.mk.inj hstate
  obtain ⟨c, hc, hfacts⟩ := List.map_eq_singleton_iff.mp hcompleted
  obtain ⟨q, hq, hrecord⟩ := List.map_eq_singleton_iff.mp hsessions
  obtain ⟨hresponder, hinitiator⟩ := Prod.mk.inj hfacts
  have hhonest : honest c.run.pending.params.responderDid = true := by
    rw [hresponder]
    decide
  obtain ⟨p, hp, hagrees⟩ := hclaim s relayedEvents (along_network hdelivered) hs c
    (hc ▸ List.mem_singleton_self c) hhonest
  rw [hq, List.mem_singleton] at hp
  have hnames : relayDid = initiatorDid := by
    rw [← hrecord, ← hp, hagrees.initiatorDid, hinitiator]
  exact absurd hnames (by simp [relayDid, initiatorDid])

end RelayedChallenge

end Coivitas.Communication
