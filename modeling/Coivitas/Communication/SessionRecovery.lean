import Coivitas.Communication.SessionFence

/-! # Resuming and superseding sessions

The two ways back to a session that is not active. `resume` compares the token binding of
the stored session with the one that its caller expects, as `claimForDispatch` does, but
only when a token is expected at all. `supersedeAndCreate` closes the old session and
creates the new one, and the creation has checks of its own that come after the closing.
-/

namespace Coivitas.Communication

open Foundation

/-! ## Token binding -/

/-- The call fails with the code. -/
def Fails (code : SessionErrorCode) (outcome : SessionOutcome) : Prop :=
  ∃ message, outcome = .error (.protocol code message)

/-- The claim is for the session that is resumed, with the same token id and fingerprint. -/
structure SameBinding (params : ClaimParams) (input : SessionResumeInput) : Prop where
  sessionId : params.sessionId = input.sessionId
  tokenId : params.expectedCapabilityTokenId = input.expectedCapabilityTokenId
  fingerprint :
    params.expectedCapabilityTokenFingerprint = input.expectedCapabilityTokenFingerprint

/-- `resume` enforces the token binding of `claimForDispatch`: what it resumes can be claimed
with the same values, and it refuses every binding for which a claim would be refused if the
session were active. -/
structure ResumesAsDispatched (P : SessionPorts) (input : SessionResumeInput) (clock : Int)
    (sessions : Sessions) : Prop where
  resumed : ∀ value sessions',
    (SessionOperation.resume input clock).perform P sessions = (.ok value, sessions') →
      ∀ params clock', SameBinding params input → ¬ Fails .tokenMismatch
        ((SessionOperation.claimForDispatch params clock').perform P sessions').1
  refused : ∀ row, sessions.get? input.sessionId = some row → row.state = some .idle →
    row.initiatorDid = input.expectedInitiatorDid →
    row.responderDid = input.expectedResponderDid →
    ∀ params clock', SameBinding params input → Fails .tokenMismatch
        ((SessionOperation.claimForDispatch params clock').perform P
          (sessions.set input.sessionId { row with state := some .active })).1 →
      Fails .tokenMismatch ((SessionOperation.resume input clock).perform P sessions).1

/-- The parties of a claim are those of the session, in either order. -/
def PartiesMatch (row : Session) (params : ClaimParams) : Prop :=
  row.initiatorDid = params.senderDid ∧ row.responderDid = params.selfDid ∨
    row.responderDid = params.senderDid ∧ row.initiatorDid = params.selfDid

theorem lookup_ne_mismatch {sessions : Sessions} {sessionId message : String} :
    lookup sessions sessionId ≠ .error (.protocol .tokenMismatch message) := by
  unfold lookup notFound
  split <;> simp

theorem dateText_ne_protocol {ms : Option Int} {code : SessionErrorCode} {message : String} :
    dateText ms ≠ .error (.protocol code message) := by
  unfold dateText
  split <;> simp

theorem nowText_ne_protocol {now : Option String} {clock : Int} {code : SessionErrorCode}
    {message : String} : nowText now clock ≠ .error (.protocol code message) := by
  unfold nowText
  split
  next => simp
  next => exact dateText_ne_protocol

theorem bumpRevision_ne_mismatch {rev message : String} :
    bumpRevision rev ≠ .error (.protocol .tokenMismatch message) := by
  unfold bumpRevision
  split <;> simp

theorem closedSession_ne_mismatch {now message : String} {reason : CloseReason}
    {idleSince : Option String} {row : Session} :
    closedSession now reason idleSince row ≠ .error (.protocol .tokenMismatch message) := by
  intro hfails
  simp only [closedSession, bind_eq_error, pure_ne_error, and_false, exists_false,
    or_false] at hfails
  exact bumpRevision_ne_mismatch hfails

/-- A claim is refused for its token exactly when it reaches the comparison and one of the two
values differs. -/
theorem claim_mismatch_iff {P : SessionPorts} {params : ClaimParams} {clock : Int}
    {sessions : Sessions} :
    Fails .tokenMismatch
        ((SessionOperation.claimForDispatch params clock).perform P sessions).1 ↔
      ∃ row, sessions.get? params.sessionId = some row ∧ row.state = some .active ∧
        PartiesMatch row params ∧
        ¬ (row.capabilityTokenId = params.expectedCapabilityTokenId ∧
          row.capabilityTokenFingerprint = params.expectedCapabilityTokenFingerprint) := by
  have hstore : ∀ message, (store params.sessionId (claimedSession params clock sessions)
        sessions).1 = .error (.protocol .tokenMismatch message) ↔
      claimedSession params clock sessions = .error (.protocol .tokenMismatch message) := by
    intro message
    unfold store
    split <;> simp_all
  constructor
  · rintro ⟨message, hfails⟩
    have hfails := (hstore message).mp hfails
    simp only [claimedSession, bind_eq_error, lookup_ne_mismatch, false_or, lookup_eq_ok,
      require_eq_error, require_eq_ok, exists_unit, nowText_ne_protocol, bumpRevision_ne_mismatch,
      pure_ne_error, and_false, exists_false, or_false, SessionError.protocol.injEq,
      reduceCtorEq, false_and] at hfails
    obtain ⟨row, hrow, -, hactive, hparties, hbinding, -⟩ := hfails
    exact ⟨row, hrow, hactive, hparties, hbinding⟩
  · rintro ⟨row, hrow, hactive, hparties, hbinding⟩
    refine ⟨"Token binding mismatch", (hstore _).mpr ?_⟩
    simp only [claimedSession, bind_eq_error, lookup_eq_ok, require_eq_error, require_eq_ok,
      exists_unit]
    refine .inr ⟨row, hrow, .inr ⟨by simp [hactive], .inr ⟨hactive, .inr ⟨hparties, ?_⟩⟩⟩⟩
    exact .inl ⟨hbinding, trivial⟩

/-- A resume is refused for its token exactly when it reaches the comparison, a token is
expected and one of the two values differs. -/
theorem resume_mismatch_iff {P : SessionPorts} {input : SessionResumeInput} {clock : Int}
    {sessions : Sessions} :
    Fails .tokenMismatch ((SessionOperation.resume input clock).perform P sessions).1 ↔
      ∃ row, sessions.get? input.sessionId = some row ∧ row.state = some .idle ∧
        row.initiatorDid = input.expectedInitiatorDid ∧
        row.responderDid = input.expectedResponderDid ∧
        ¬ (input.expectedCapabilityTokenId = none ∨
          row.capabilityTokenId = input.expectedCapabilityTokenId ∧
            row.capabilityTokenFingerprint = input.expectedCapabilityTokenFingerprint ∧
            row.capabilityTokenFingerprint ≠ none) := by
  have hoperation : (SessionOperation.resume input clock).perform P sessions =
      resume P input clock sessions := rfl
  rw [hoperation]
  constructor
  · rintro ⟨message, hfails⟩
    unfold resume at hfails
    split at hfails
    next error herror =>
      cases hfails
      simp only [resumedSession, bind_eq_error] at herror
      obtain hrefused | ⟨row, -, hrest⟩ := herror
      · simp only [resumable, bind_eq_error, lookup_ne_mismatch, false_or, lookup_eq_ok,
          require_eq_error, require_eq_ok, exists_unit, pure_ne_error, and_false, or_false,
          SessionError.protocol.injEq, reduceCtorEq, false_and] at hrefused
        obtain ⟨row, hrow, -, hidle, ⟨hinitiator, hresponder⟩, hbinding, -⟩ := hrefused
        exact ⟨row, hrow, hidle, hinitiator, hresponder, hbinding⟩
      · exfalso
        split at hrest
        · simp only [bind_eq_error, dateText_ne_protocol, closedSession_ne_mismatch, pure_ne_error,
            and_false, exists_false, or_false] at hrest
        · simp only [bind_eq_error, dateText_ne_protocol, bumpRevision_ne_mismatch, pure_ne_error,
            and_false, exists_false, or_false] at hrest
    next => cases hfails
    next session error hclosed =>
      cases hfails
      simp only [resumedSession, bind_eq_ok] at hclosed
      obtain ⟨row, -, hclosed⟩ := hclosed
      split at hclosed
      next =>
        simp only [bind_eq_ok, pure_eq_ok, Prod.mk.injEq, Option.some.injEq,
          SessionError.protocol.injEq, reduceCtorEq, false_and, and_false, exists_false] at hclosed
      next =>
        simp only [bind_eq_ok, pure_eq_ok, Prod.mk.injEq, reduceCtorEq, and_false,
          exists_false] at hclosed
  · rintro ⟨row, hrow, hidle, hinitiator, hresponder, hbinding⟩
    refine ⟨"Token binding mismatch", ?_⟩
    have hrefused : resumedSession P input clock sessions =
        .error (.protocol .tokenMismatch "Token binding mismatch") := by
      simp only [resumedSession, resumable, bind_eq_error, lookup_eq_ok, require_eq_error,
        require_eq_ok, exists_unit]
      refine .inl (.inr ⟨row, hrow, .inr ⟨by simp [hidle], .inr ⟨hidle, .inr ⟨?_, ?_⟩⟩⟩⟩)
      · exact ⟨hinitiator, hresponder⟩
      · exact .inl ⟨hbinding, trivial⟩
    unfold resume
    rw [hrefused]

/-- What a resume stores is the session that it found, active and with its token binding. -/
theorem resume_ok {P : SessionPorts} {input : SessionResumeInput} {clock : Int}
    {sessions sessions' : Sessions} {value : SessionValue}
    (hresumed : (SessionOperation.resume input clock).perform P sessions = (.ok value, sessions')) :
    ∃ row row', sessions.get? input.sessionId = some row ∧ row.state = some .idle ∧
      row.initiatorDid = input.expectedInitiatorDid ∧
      row.responderDid = input.expectedResponderDid ∧
      (input.expectedCapabilityTokenId = none ∨
        row.capabilityTokenId = input.expectedCapabilityTokenId ∧
          row.capabilityTokenFingerprint = input.expectedCapabilityTokenFingerprint ∧
          row.capabilityTokenFingerprint ≠ none) ∧
      sessions'.get? input.sessionId = some row' ∧
      row'.capabilityTokenId = row.capabilityTokenId ∧
      row'.capabilityTokenFingerprint = row.capabilityTokenFingerprint := by
  have hoperation : (SessionOperation.resume input clock).perform P sessions =
      resume P input clock sessions := rfl
  rw [hoperation, resume] at hresumed
  split at hresumed
  next => cases hresumed
  next session hsession =>
    cases hresumed
    simp only [resumedSession, resumable, bind_eq_ok, exists_unit, require_eq_ok, pure_eq_ok,
      lookup_eq_ok] at hsession
    obtain ⟨row, ⟨_, hrow, _, hidle, ⟨hinitiator, hresponder⟩, hbinding, rfl⟩, hsession⟩ := hsession
    split at hsession
    next =>
      simp only [bind_eq_ok, pure_eq_ok, Prod.mk.injEq, reduceCtorEq, and_false,
        exists_false] at hsession
    next =>
      simp only [bind_eq_ok, pure_eq_ok, Prod.mk.injEq, and_true] at hsession
      obtain ⟨_, _, revision, hrevision, rfl⟩ := hsession
      have hstored := OrderedMap.get?_set sessions input.sessionId input.sessionId
      simp only [if_true] at hstored
      exact ⟨_, _, hrow, hidle, hinitiator, hresponder, hbinding, hstored _, rfl, rfl⟩
  next => cases hresumed

/-- `resume` enforces the binding of a dispatch exactly when a token id is expected, or the
session has none and its fingerprint is the expected one. -/
theorem resumesAsDispatched_iff (P : SessionPorts) (input : SessionResumeInput) (clock : Int)
    (sessions : Sessions) :
    ResumesAsDispatched P input clock sessions ↔
      ∀ row, sessions.get? input.sessionId = some row → row.state = some .idle →
        row.initiatorDid = input.expectedInitiatorDid →
        row.responderDid = input.expectedResponderDid →
        input.expectedCapabilityTokenId ≠ none ∨
          (row.capabilityTokenId = none ∧
            row.capabilityTokenFingerprint = input.expectedCapabilityTokenFingerprint) := by
  constructor
  · intro hbinds row hrow hidle hinitiator hresponder
    by_contra hskipped
    rw [not_or, not_not, not_and] at hskipped
    obtain ⟨hnone, hdiffers⟩ := hskipped
    let params : ClaimParams := ⟨input.sessionId, row.initiatorDid, row.responderDid,
      input.expectedCapabilityTokenId, input.expectedCapabilityTokenFingerprint, none⟩
    have hrefused := hbinds.refused row hrow hidle hinitiator hresponder params clock
      ⟨rfl, rfl, rfl⟩ ?_
    · obtain ⟨_, _, _, _, _, hbinding⟩ := resume_mismatch_iff.mp hrefused
      exact hbinding (.inl hnone)
    · refine claim_mismatch_iff.mpr
        ⟨{ row with state := some .active }, ?_, rfl, .inl ⟨rfl, rfl⟩, ?_⟩
      · rw [OrderedMap.get?_set, if_pos rfl]
      · rintro ⟨hid, hfingerprint⟩
        exact hdiffers (hid.trans hnone) hfingerprint
  · intro hgiven
    -- A binding that `resume` lets pass is one that a claim lets pass.
    have hpass : ∀ row, sessions.get? input.sessionId = some row → row.state = some .idle →
        row.initiatorDid = input.expectedInitiatorDid →
        row.responderDid = input.expectedResponderDid →
        (input.expectedCapabilityTokenId = none ∨
          row.capabilityTokenId = input.expectedCapabilityTokenId ∧
            row.capabilityTokenFingerprint = input.expectedCapabilityTokenFingerprint ∧
            row.capabilityTokenFingerprint ≠ none) →
        row.capabilityTokenId = input.expectedCapabilityTokenId ∧
          row.capabilityTokenFingerprint = input.expectedCapabilityTokenFingerprint := by
      intro row hrow hidle hinitiator hresponder hresumes
      obtain hnone | ⟨hid, hfingerprint, -⟩ := hresumes
      · obtain hsome | ⟨hid, hfingerprint⟩ := hgiven row hrow hidle hinitiator hresponder
        · exact absurd hnone hsome
        · exact ⟨hid.trans hnone.symm, hfingerprint⟩
      · exact ⟨hid, hfingerprint⟩
    constructor
    case resumed =>
      intro value sessions' hresumed params clock' hsame hrefused
      obtain ⟨row, row', hrow, hidle, hinitiator, hresponder, hresumes, hrow', hid, hfingerprint⟩ :=
        resume_ok hresumed
      obtain ⟨claimed, hclaimed, -, -, hdiffers⟩ := claim_mismatch_iff.mp hrefused
      rw [hsame.sessionId] at hclaimed
      cases hrow'.symm.trans hclaimed
      rw [hsame.tokenId, hsame.fingerprint, hid, hfingerprint] at hdiffers
      exact hdiffers (hpass row hrow hidle hinitiator hresponder hresumes)
    case refused =>
      intro row hrow hidle hinitiator hresponder params clock' hsame hrefused
      obtain ⟨claimed, hclaimed, -, -, hdiffers⟩ := claim_mismatch_iff.mp hrefused
      rw [hsame.sessionId, OrderedMap.get?_set, if_pos rfl] at hclaimed
      cases hclaimed
      rw [hsame.tokenId, hsame.fingerprint] at hdiffers
      refine resume_mismatch_iff.mpr ⟨row, hrow, hidle, hinitiator, hresponder, ?_⟩
      exact fun hresumes => hdiffers (hpass row hrow hidle hinitiator hresponder hresumes)

/-! ## Superseding -/

/-- The old session is closed, the new one names it, and the others are as they were. -/
structure Superseded (params : SupersedeParams) (sessions sessions' : Sessions) : Prop where
  old : ∃ row, sessions'.get? params.oldSessionId = some row ∧ row.state = some .closed
  new : ∃ row, sessions'.get? params.newCreateInput.sessionId = some row ∧
    row.supersedesSessionId = some params.oldSessionId
  others : ∀ id, id ≠ params.oldSessionId → id ≠ params.newCreateInput.sessionId →
    sessions'.get? id = sessions.get? id

/-- `supersedeAndCreate` does all it is for when it returns, and nothing when it throws. -/
structure AllOrNothing (params : SupersedeParams) (clock : Int) (sessions : Sessions) :
    Prop where
  thrown : ∀ error sessions',
    supersedeAndCreate params clock sessions = (.error error, sessions') → sessions' = sessions
  returned : ∀ value sessions',
    supersedeAndCreate params clock sessions = (.ok value, sessions') →
      Superseded params sessions sessions'

/-- The old session is there, open, and can be closed. -/
def ClosesOld (params : SupersedeParams) (clock : Int) (sessions : Sessions) : Prop :=
  ∃ old, sessions.get? params.oldSessionId = some old ∧ old.state ≠ some .closed ∧
    (∃ now, nowText params.now clock = .ok now) ∧
    ∃ revision, bumpRevision old.revision = .ok revision

/-- The checks of `create`: the id is free, the clock has a text, and there is no key
fingerprint without encryption. -/
structure Creatable (input : SessionCreateInput) (clock : Int) (sessions : Sessions) : Prop where
  free : sessions.get? input.sessionId = none
  clock : ∃ now, Calendar.toISOString clock = some now
  encryption : input.encryptionState.getD .off = .off → input.sessionKeyFingerprint = none

theorem newSession_ok_iff {input : SessionCreateInput} {clock : Int} {sessions : Sessions} :
    (∃ session, newSession input clock sessions = .ok session) ↔
      Creatable input clock sessions := by
  have hhas : sessions.has input.sessionId = false ↔ sessions.get? input.sessionId = none := by
    simp [OrderedMap.has]
  have hdate : ∀ now, dateText (some clock) = .ok now ↔ Calendar.toISOString clock = some now := by
    intro now
    unfold dateText
    split <;> simp_all
  simp only [newSession, bind_eq_ok, exists_unit, require_eq_ok, pure_eq_ok, hhas, hdate]
  constructor
  · rintro ⟨session, hfree, now, hnow, hencryption, -⟩
    refine ⟨hfree, ⟨now, hnow⟩, fun hoff => ?_⟩
    by_contra hkey
    exact hencryption ⟨hoff, hkey⟩
  · rintro ⟨hfree, ⟨now, hnow⟩, hencryption⟩
    exact ⟨_, hfree, now, hnow, fun hboth => hboth.2 (hencryption hboth.1), rfl⟩

theorem newSession_supersedes {input : SessionCreateInput} {clock : Int} {sessions : Sessions}
    {session : Session} (hsession : newSession input clock sessions = .ok session) :
    session.supersedesSessionId = input.supersedesSessionId := by
  simp only [newSession, bind_eq_ok, exists_unit, require_eq_ok, pure_eq_ok] at hsession
  obtain ⟨-, _, -, -, rfl⟩ := hsession
  rfl

/-- The closing is the only write before the checks of the creation. -/
theorem supersedeAndCreate_cases (params : SupersedeParams) (clock : Int) (sessions : Sessions) :
    (∃ error, supersedeAndCreate params clock sessions = (.error error, sessions) ∧
        ¬ ClosesOld params clock sessions) ∨
      ∃ old row, sessions.get? params.oldSessionId = some old ∧ row.state = some .closed ∧
        (old.state = some .closed ∧ row = old ∨
          old.state ≠ some .closed ∧ ClosesOld params clock sessions) ∧
        supersedeAndCreate params clock sessions =
          create { params.newCreateInput with
            supersedesSessionId := some params.oldSessionId } clock
            (sessions.set params.oldSessionId row) := by
  unfold supersedeAndCreate
  split
  next hnone =>
    refine .inl ⟨_, rfl, ?_⟩
    rintro ⟨old, hold, -⟩
    cases hnone.symm.trans hold
  next old hold =>
    split
    next hopened =>
      split
      next error herror =>
        refine .inl ⟨error, rfl, ?_⟩
        rintro ⟨old', hold', -, ⟨now, hnow⟩, revision, hrevision⟩
        cases hold.symm.trans hold'
        simp only [hnow, Except.bind, closedSession, hrevision, bind] at herror
        cases herror
      next closed hclosed =>
        have hbind : (nowText params.now clock >>= fun now =>
            closedSession now params.fallbackCloseReason none old) = .ok closed := hclosed
        simp only [closedSession, bind_eq_ok, pure_eq_ok] at hbind
        obtain ⟨now, hnow, revision, hrevision, rfl⟩ := hbind
        exact .inr ⟨old, _, hold, rfl,
          .inr ⟨hopened, old, hold, hopened, ⟨now, hnow⟩, revision, hrevision⟩, rfl⟩
    next hclosed =>
      rw [not_not] at hclosed
      refine .inr ⟨old, old, hold, hclosed, .inl ⟨hclosed, rfl⟩, ?_⟩
      rw [OrderedMap.set_eq_self hold]

/-- What the creation makes of the store in which the old session is closed. -/
theorem create_superseding {params : SupersedeParams} {clock : Int} {sessions sessions' : Sessions}
    {row : Session} {value : SessionValue} (hclosed : row.state = some .closed)
    (hcreated : create
      { params.newCreateInput with supersedesSessionId := some params.oldSessionId } clock
        (sessions.set params.oldSessionId row) = (.ok value, sessions')) :
    Superseded params sessions sessions' := by
  unfold create store at hcreated
  split at hcreated
  next => cases hcreated
  next session hsession =>
    cases hcreated
    have hfree := (newSession_ok_iff.mp ⟨session, hsession⟩).free
    have hne : params.newCreateInput.sessionId ≠ params.oldSessionId := by
      intro heq
      rw [show (_ : String) = params.oldSessionId from heq, OrderedMap.get?_set, if_pos rfl]
        at hfree
      cases hfree
    constructor
    case old =>
      refine ⟨row, ?_, hclosed⟩
      rw [OrderedMap.get?_set, if_neg hne, OrderedMap.get?_set, if_pos rfl]
    case new =>
      refine ⟨session, ?_, newSession_supersedes hsession⟩
      rw [OrderedMap.get?_set, if_pos rfl]
    case others =>
      intro id hold hnew
      rw [OrderedMap.get?_set, if_neg hnew.symm, OrderedMap.get?_set, if_neg hold.symm]

theorem creatable_set_iff {input : SessionCreateInput} {clock : Int} {sessions : Sessions}
    {id : String} {old row : Session} (hold : sessions.get? id = some old) :
    Creatable input clock (sessions.set id row) ↔ Creatable input clock sessions := by
  have hfree : (sessions.set id row).get? input.sessionId = none ↔
      sessions.get? input.sessionId = none := by
    rw [OrderedMap.get?_set]
    split
    next heq => simp [← heq, hold]
    next => rfl
  constructor
  · rintro ⟨hnone, hclock, hencryption⟩
    exact ⟨hfree.mp hnone, hclock, hencryption⟩
  · rintro ⟨hnone, hclock, hencryption⟩
    exact ⟨hfree.mpr hnone, hclock, hencryption⟩

/-- Superseding a session is all or nothing exactly when a session that is closed for it is
followed by a creation whose checks pass. -/
theorem allOrNothing_iff (params : SupersedeParams) (clock : Int) (sessions : Sessions) :
    AllOrNothing params clock sessions ↔
      (ClosesOld params clock sessions → Creatable params.newCreateInput clock sessions) := by
  have hinput : ∀ sessions : Sessions,
      Creatable { params.newCreateInput with supersedesSessionId := some params.oldSessionId }
        clock sessions ↔ Creatable params.newCreateInput clock sessions :=
    fun sessions => ⟨fun ⟨hfree, hclock, henc⟩ => ⟨hfree, hclock, henc⟩,
      fun ⟨hfree, hclock, henc⟩ => ⟨hfree, hclock, henc⟩⟩
  obtain ⟨error, herror, hnot⟩ | ⟨old, row, hold, hclosed, hrow, heq⟩ :=
    supersedeAndCreate_cases params clock sessions
  · refine iff_of_true ⟨?_, ?_⟩ fun hcloses => absurd hcloses hnot
    · intro error' sessions' hthrown
      rw [herror] at hthrown
      cases hthrown
      rfl
    · intro value sessions' hreturned
      rw [herror] at hreturned
      cases hreturned
  · cases hsession : newSession
        { params.newCreateInput with supersedesSessionId := some params.oldSessionId } clock
        (sessions.set params.oldSessionId row) with
    | ok session =>
        have hcreatable : Creatable params.newCreateInput clock sessions :=
          (hinput sessions).mp ((creatable_set_iff hold).mp (newSession_ok_iff.mp ⟨_, hsession⟩))
        refine iff_of_true ⟨?_, ?_⟩ fun _ => hcreatable
        · intro error sessions' hthrown
          rw [heq, create, hsession] at hthrown
          cases hthrown
        · intro value sessions' hreturned
          rw [heq] at hreturned
          exact create_superseding hclosed hreturned
    | error error =>
        have hnot : ¬ Creatable params.newCreateInput clock sessions := by
          intro hcreatable
          have hafter : Creatable { params.newCreateInput with
              supersedesSessionId := some params.oldSessionId } clock
              (sessions.set params.oldSessionId row) :=
            (creatable_set_iff hold).mpr ((hinput sessions).mpr hcreatable)
          obtain ⟨session, hok⟩ := newSession_ok_iff.mpr hafter
          cases hsession.symm.trans hok
        have hthrown : supersedeAndCreate params clock sessions =
            (.error error, sessions.set params.oldSessionId row) := by
          rw [heq, create, hsession]
          rfl
        obtain ⟨holdClosed, rfl⟩ | ⟨hopened, hcloses⟩ := hrow
        · refine iff_of_true ⟨?_, ?_⟩ ?_
          · intro error' sessions' hthrown'
            rw [hthrown, OrderedMap.set_eq_self hold] at hthrown'
            cases hthrown'
            rfl
          · intro value sessions' hreturned
            rw [hthrown] at hreturned
            cases hreturned
          · rintro ⟨old', hold', hopened, -⟩
            cases hold.symm.trans hold'
            exact absurd holdClosed hopened
        · refine iff_of_false ?_ fun himplies => hnot (himplies hcloses)
          intro hall
          have hsame := congrArg (OrderedMap.get? · params.oldSessionId)
            (hall.thrown _ _ hthrown)
          simp only [OrderedMap.get?_set, if_true, hold, Option.some.injEq] at hsame
          exact hopened (hsame ▸ hclosed)

namespace Revocation

/-- A new session under the id of the old one. -/
def supersession : SupersedeParams := ⟨input.sessionId, .error, input, none⟩

/-- The session is closed by a call that throws. -/
theorem superseded_by_nothing : ¬ AllOrNothing supersession (noon + 9) sessions := by
  intro hall
  have hthrown : (supersedeAndCreate supersession (noon + 9) sessions).1.isOk = false := by
    decide +kernel
  have hclosed : ((supersedeAndCreate supersession (noon + 9) sessions).2.get?
      input.sessionId).map Session.state ≠ (sessions.get? input.sessionId).map Session.state := by
    decide +kernel
  cases houtcome : (supersedeAndCreate supersession (noon + 9) sessions).1 with
  | ok value =>
      rw [houtcome] at hthrown
      cases hthrown
  | error error =>
      have hsame : (supersedeAndCreate supersession (noon + 9) sessions).2 = sessions :=
        hall.thrown error _ (Prod.ext houtcome rfl)
      exact hclosed (congrArg (fun s => (s.get? input.sessionId).map Session.state) hsame)

/-- The session of the two agents, gone idle. -/
def restedRow : Except SessionError Session := do
  let row ← lookup sessions input.sessionId
  idleSession "2026-06-20T12:10:00.000Z" row

def rested : Sessions :=
  match restedRow with
  | .ok row => sessions.set input.sessionId row
  | .error _ => sessions

/-- The caller expects no token. -/
def resumption : SessionResumeInput where
  sessionId := input.sessionId
  expectedInitiatorDid := initiator
  expectedResponderDid := responder
  expectedCapabilityTokenId := none
  expectedCapabilityTokenFingerprint := none
  idleHardMs := 3600000
  negotiatedCapabilities := []
  now := none

/-- A session with a token is resumed without it, and cannot be claimed without it. -/
theorem resumed_without_token :
    ¬ ResumesAsDispatched ports resumption (noon + 700000) rested := by
  let params : ClaimParams := { claim with
    expectedCapabilityTokenId := none
    expectedCapabilityTokenFingerprint := none }
  have hresumed : ((SessionOperation.resume resumption (noon + 700000)).perform ports
      rested).1.isOk = true := by
    decide +kernel
  obtain ⟨value, hvalue⟩ := exists_of_isOk hresumed
  intro hbinds
  refine hbinds.resumed value _ (Prod.ext hvalue rfl) params (noon + 700001) ⟨rfl, rfl, rfl⟩ ?_
  have hrow : ((((SessionOperation.resume resumption (noon + 700000)).perform ports
      rested).2.get? input.sessionId).any fun row => decide (row.state = some .active ∧
        row.initiatorDid = initiator ∧ row.responderDid = responder ∧
          row.capabilityTokenId ≠ none)) = true := by
    decide +kernel
  obtain ⟨row, hrow, hfields⟩ := (Option.any_eq_true _ _).mp hrow
  obtain ⟨hactive, hinitiator, hresponder, hbound⟩ := of_decide_eq_true hfields
  exact claim_mismatch_iff.mpr ⟨row, hrow, hactive, .inl ⟨hinitiator, hresponder⟩,
    fun hsame => hbound hsame.1⟩

end Revocation

end Coivitas.Communication
