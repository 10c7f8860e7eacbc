import Mathlib.Algebra.Order.Field.Rat
import Coivitas.Foundation.CalendarText
import Coivitas.Foundation.JsText
import Coivitas.Foundation.OrderedMap
import Coivitas.Foundation.Outcome

/-! # The session store in memory

Sessions by their identifier, and the operations that read and change them. An operation
either returns or throws; a session that has run into its hard timeout is closed by the
`resume` that throws. The loops over all sessions throw in the middle if a revision is no
number, and leave what they have written.
-/

namespace Coivitas.Communication

open Foundation

/-! ## Data -/

inductive SessionState where
  | created | active | idle | closed
  deriving DecidableEq, Repr

def SessionState.text : SessionState → String
  | created => "CREATED"
  | active => "ACTIVE"
  | idle => "IDLE"
  | closed => "CLOSED"

/-- A state in a template literal. -/
def stateText (state : Option SessionState) : String := state.elim "undefined" SessionState.text

inductive CloseReason where
  | idleTimeout | explicitClose | handshakeRejected | error | revokedToken
  deriving DecidableEq, Repr

inductive EncryptionState where
  | off | required
  deriving DecidableEq, Repr

/-- A field that `update` may set to `undefined` has no value then, or for want of one is `null`. -/
structure Session where
  sessionId : String
  initiatorDid : String
  responderDid : String
  principalDid : String
  capabilityTokenId : Option String
  capabilityTokenFingerprint : Option String
  state : Option SessionState
  negotiatedCapabilities : Option (List String)
  encryptionState : EncryptionState
  sessionKeyFingerprint : Option String
  rekeyCount : ℚ
  establishedAt : Option String
  lastSeenAt : Option String
  lastAuthorizedAt : Option String
  idleSince : Option String
  closedAt : Option String
  closeReason : Option CloseReason
  supersedesSessionId : Option String
  didPairKey : String
  createdAt : String
  updatedAt : String
  revision : String
  deriving DecidableEq

structure SessionCreateInput where
  sessionId : String
  initiatorDid : String
  responderDid : String
  principalDid : String
  capabilityTokenId : Option String
  capabilityTokenFingerprint : Option String
  negotiatedCapabilities : Option (List String)
  encryptionState : Option EncryptionState
  sessionKeyFingerprint : Option String
  initialState : Option SessionState
  supersedesSessionId : Option String

/-- The fields of a patch that are present, each with a value, or as `undefined` or `null`,
where the inner option is empty. A `rekeyCount` of `undefined` counts as absent. -/
structure SessionUpdatePatch where
  state : Option (Option SessionState)
  negotiatedCapabilities : Option (Option (List String))
  establishedAt : Option (Option String)
  lastSeenAt : Option (Option String)
  lastAuthorizedAt : Option (Option String)
  idleSince : Option (Option String)
  closedAt : Option (Option String)
  closeReason : Option (Option CloseReason)
  sessionKeyFingerprint : Option (Option String)
  rekeyCount : Option ℚ

structure SessionResumeInput where
  sessionId : String
  expectedInitiatorDid : String
  expectedResponderDid : String
  expectedCapabilityTokenId : Option String
  expectedCapabilityTokenFingerprint : Option String
  idleHardMs : ℚ
  negotiatedCapabilities : List String
  now : Option String

structure SupersedeParams where
  oldSessionId : String
  fallbackCloseReason : CloseReason
  newCreateInput : SessionCreateInput
  now : Option String

structure ClaimParams where
  sessionId : String
  senderDid : String
  selfDid : String
  expectedCapabilityTokenId : Option String
  expectedCapabilityTokenFingerprint : Option String
  now : Option String

structure AuthorizeParams where
  sessionId : String
  expectedRevision : String
  now : Option String

structure CleanParams where
  createdTimeoutMs : ℚ
  idleSoftMs : ℚ
  idleHardMs : ℚ
  now : Option String

structure SessionListActiveFilter where
  initiatorDid : Option String
  responderDid : Option String
  states : Option (List SessionState)
  limit : Option Int

structure SessionCleanResult where
  markedStale : Nat
  markedIdle : Nat
  markedClosed : Nat

inductive SessionErrorCode where
  | notFound | closed | stateInvalid | didMismatch | tokenMismatch | idleExpired
  deriving DecidableEq, Repr

/-- A `ProtocolError`, the `RangeError` of a date without text, or the `TypeError` of a
comparison with a session that was last seen at no time. -/
inductive SessionError where
  | protocol (code : SessionErrorCode) (message : String)
  | rangeError
  | typeError
  deriving DecidableEq, Repr

/-- What the runtime brings: `new Date(text).getTime()`, where `none` is `NaN`, and
`a.localeCompare(b)`. Which comparisons a sort makes is the runtime's too; it matters where
`lastSeenAt` is missing, and a comparison throws (`none`). -/
structure SessionPorts where
  getTime : String → Option Int
  localeCompare : String → String → Int
  sortUndated : List Session → Option (List Session)
  mem_of_sortUndated : ∀ sessions sorted, sortUndated sessions = some sorted →
    ∀ s ∈ sorted, s ∈ sessions

/-! ## Revisions -/

/-- The number that the leading digits spell. -/
def leadingNumber (text : List Char) : Option Int :=
  match text.takeWhile Char.isDigit with
  | [] => none
  | digits => some (Nat.ofDigitChars 10 digits 0)

/-- `parseInt(text, 10)`; `none` is `NaN`. -/
def parseInt (text : String) : Option Int :=
  match text.toList.dropWhile isJsSpace with
  | '-' :: rest => (leadingNumber rest).map (- ·)
  | '+' :: rest => leadingNumber rest
  | rest => leadingNumber rest

/-- The next revision. Sums are exact here, as they are for every revision below `2 ^ 53`. -/
def bumpRevision (rev : String) : Except SessionError String :=
  match parseInt rev with
  | none => .error (.protocol .stateInvalid ("Invalid revision: " ++ rev))
  | some n => .ok (toString (n + 1))

/-! ## Operations -/

/-- `Map<string, Session>`. -/
abbrev Sessions := OrderedMap String Session

/-- `new Date(ms).toISOString()`. -/
def dateText (ms : Option Int) : Except SessionError String :=
  match ms.bind Calendar.toISOString with
  | none => .error .rangeError
  | some text => .ok text

/-- `now ?? new Date().toISOString()`. -/
def nowText (now : Option String) (clock : Int) : Except SessionError String :=
  match now with
  | some text => .ok text
  | none => dateText (some clock)

/-- `now ? new Date(now).getTime() : Date.now()`. -/
def nowMs (P : SessionPorts) (now : Option String) (clock : Int) : Option Int :=
  match now with
  | some text => if text = "" then some clock else P.getTime text
  | none => some clock

def notFound (sessionId : String) : SessionError :=
  .protocol .notFound ("Session " ++ sessionId ++ " does not exist")

def lookup (sessions : Sessions) (sessionId : String) : Except SessionError Session :=
  match sessions.get? sessionId with
  | none => .error (notFound sessionId)
  | some row => .ok row

def didPairKey (initiatorDid responderDid : String) : String :=
  if TextLe initiatorDid responderDid then initiatorDid ++ "\x00" ++ responderDid
  else responderDid ++ "\x00" ++ initiatorDid

/-- The session that `create` stores. -/
def newSession (input : SessionCreateInput) (clock : Int) (sessions : Sessions) :
    Except SessionError Session := do
  require (sessions.has input.sessionId = false)
    (.protocol .stateInvalid ("Session " ++ input.sessionId ++ " already exists"))
  let now ← dateText (some clock)
  let encryptionState := input.encryptionState.getD .off
  require (¬ (encryptionState = .off ∧ input.sessionKeyFingerprint ≠ none))
    (.protocol .stateInvalid
      "sessionKeyFingerprint is not allowed to be passed when encryptionState=OFF")
  let isActive := decide (input.initialState = some .active)
  return {
    sessionId := input.sessionId
    initiatorDid := input.initiatorDid
    responderDid := input.responderDid
    principalDid := input.principalDid
    capabilityTokenId := input.capabilityTokenId
    capabilityTokenFingerprint := input.capabilityTokenFingerprint
    state := if isActive then some .active else some .created
    negotiatedCapabilities := some (input.negotiatedCapabilities.getD [])
    encryptionState
    sessionKeyFingerprint :=
      if encryptionState = .required then input.sessionKeyFingerprint else none
    rekeyCount := 0
    establishedAt := if isActive then some now else none
    lastSeenAt := some now
    lastAuthorizedAt := some now
    idleSince := none
    closedAt := none
    closeReason := none
    supersedesSessionId := input.supersedesSessionId
    didPairKey := didPairKey input.initiatorDid input.responderDid
    createdAt := now
    updatedAt := now
    revision := "1" }

def patched (patch : SessionUpdatePatch) (now revision : String) (row : Session) : Session :=
  { row with
    state := patch.state.getD row.state
    negotiatedCapabilities := patch.negotiatedCapabilities.getD row.negotiatedCapabilities
    establishedAt := patch.establishedAt.getD row.establishedAt
    lastSeenAt := patch.lastSeenAt.getD row.lastSeenAt
    lastAuthorizedAt := patch.lastAuthorizedAt.getD row.lastAuthorizedAt
    idleSince := patch.idleSince.getD row.idleSince
    closedAt := patch.closedAt.getD row.closedAt
    closeReason := patch.closeReason.getD row.closeReason
    sessionKeyFingerprint := patch.sessionKeyFingerprint.getD row.sessionKeyFingerprint
    rekeyCount := patch.rekeyCount.getD row.rekeyCount
    updatedAt := now
    revision := revision }

/-- The session that `update` stores. -/
def updatedSession (sessionId : String) (patch : SessionUpdatePatch) (clock : Int)
    (sessions : Sessions) : Except SessionError Session := do
  let row ← lookup sessions sessionId
  require (row.state ≠ some .closed)
    (.protocol .closed ("Session " ++ sessionId ++ " is already closed"))
  let now ← dateText (some clock)
  let revision ← bumpRevision row.revision
  return patched patch now revision row

/-- A closed session; `idleSince` is left out by one of the callers. -/
def closedSession (now : String) (reason : CloseReason) (idleSince : Option String)
    (row : Session) : Except SessionError Session := do
  let revision ← bumpRevision row.revision
  return { row with
    state := some .closed
    closedAt := some now
    closeReason := some reason
    idleSince := idleSince
    updatedAt := now
    revision := revision }

/-- The checks of `resume` before the timeout. -/
def resumable (input : SessionResumeInput) (sessions : Sessions) : Except SessionError Session := do
  let row ← lookup sessions input.sessionId
  require (row.state ≠ some .closed) (.protocol .closed "Session is already closed")
  require (row.state = some .idle) (.protocol .stateInvalid
    ("resume is only allowed on IDLE sessions, current state: " ++ stateText row.state))
  require (row.initiatorDid = input.expectedInitiatorDid ∧
    row.responderDid = input.expectedResponderDid) (.protocol .didMismatch "DID tuple mismatch")
  require (input.expectedCapabilityTokenId = none ∨
      row.capabilityTokenId = input.expectedCapabilityTokenId ∧
        row.capabilityTokenFingerprint = input.expectedCapabilityTokenFingerprint ∧
        row.capabilityTokenFingerprint ≠ none)
    (.protocol .tokenMismatch "Token binding mismatch")
  return row

/-- `now - then > limit`, which is false when either is `NaN`. -/
def Elapsed (P : SessionPorts) (now : Option Int) (since : String) (limit : ℚ) : Prop :=
  ∃ n ∈ now, ∃ t ∈ P.getTime since, limit < ((n - t : Int) : ℚ)

instance (P : SessionPorts) (now : Option Int) (since : String) (limit : ℚ) :
    Decidable (Elapsed P now since limit) := by
  unfold Elapsed
  infer_instance

/-- `if (row.idleSince)` with the hard timeout. -/
def IdleExpired (P : SessionPorts) (now : Option Int) (limit : ℚ) (row : Session) : Prop :=
  ∃ since ∈ row.idleSince, since ≠ "" ∧ Elapsed P now since limit

instance (P : SessionPorts) (now : Option Int) (limit : ℚ) (row : Session) :
    Decidable (IdleExpired P now limit row) := by
  unfold IdleExpired
  infer_instance

/-- The session after `resume`, and the error that is thrown with it. -/
def resumedSession (P : SessionPorts) (input : SessionResumeInput) (clock : Int)
    (sessions : Sessions) : Except SessionError (Session × Option SessionError) := do
  let row ← resumable input sessions
  let ms := nowMs P input.now clock
  if IdleExpired P ms input.idleHardMs row then
    let now ← dateText ms
    let closed ← closedSession now .idleTimeout none row
    return (closed, some (.protocol .idleExpired "IDLE session has exceeded the hard timeout"))
  else
    let now ← dateText ms
    let revision ← bumpRevision row.revision
    return ({ row with
      state := some .active
      negotiatedCapabilities := some input.negotiatedCapabilities
      lastSeenAt := some now
      lastAuthorizedAt := some now
      idleSince := none
      establishedAt := row.establishedAt.or (some now)
      updatedAt := now
      revision := revision }, none)

/-- The session that `claimForDispatch` stores. -/
def claimedSession (params : ClaimParams) (clock : Int) (sessions : Sessions) :
    Except SessionError Session := do
  let row ← lookup sessions params.sessionId
  require (row.state ≠ some .closed) (.protocol .closed "Session is already closed")
  require (row.state = some .active) (.protocol .stateInvalid "Session is not in ACTIVE state")
  require (row.initiatorDid = params.senderDid ∧ row.responderDid = params.selfDid ∨
    row.responderDid = params.senderDid ∧ row.initiatorDid = params.selfDid)
    (.protocol .didMismatch "DID tuple mismatch")
  require (row.capabilityTokenId = params.expectedCapabilityTokenId ∧
    row.capabilityTokenFingerprint = params.expectedCapabilityTokenFingerprint)
    (.protocol .tokenMismatch "Token binding mismatch")
  let now ← nowText params.now clock
  let revision ← bumpRevision row.revision
  return { row with lastSeenAt := some now, updatedAt := now, revision := revision }

/-- The session that `markAuthorized` stores. -/
def authorizedSession (params : AuthorizeParams) (clock : Int) (sessions : Sessions) :
    Except SessionError Session := do
  let row ← lookup sessions params.sessionId
  require (row.state ≠ some .closed) (.protocol .closed "Session is already closed")
  require (row.state = some .active) (.protocol .stateInvalid "Session is not in ACTIVE state")
  require (row.revision = params.expectedRevision) (.protocol .stateInvalid
    ("CAS failed: expected revision " ++ params.expectedRevision ++ ", actual " ++ row.revision))
  let now ← nowText params.now clock
  let revision ← bumpRevision row.revision
  return { row with lastAuthorizedAt := some now, updatedAt := now, revision := revision }

/-! ## The store -/

/-- What an operation returns. -/
inductive SessionValue where
  | session (session : Session)
  | found (session : Option Session)
  | ids (ids : List String)
  | listed (sessions : List Session)
  | cleaned (result : SessionCleanResult)

/-- The sessions that a caller has got hold of. -/
def SessionValue.snapshots : SessionValue → List Session
  | session s => [s]
  | found s => s.toList
  | ids _ => []
  | listed sessions => sessions
  | cleaned _ => []

abbrev SessionOutcome := Except SessionError SessionValue

inductive SessionOperation where
  | create (input : SessionCreateInput) (clock : Int)
  | get (sessionId : String)
  | update (sessionId : String) (patch : SessionUpdatePatch) (clock : Int)
  | resume (input : SessionResumeInput) (clock : Int)
  | supersedeAndCreate (params : SupersedeParams) (clock : Int)
  | claimForDispatch (params : ClaimParams) (clock : Int)
  | markAuthorized (params : AuthorizeParams) (clock : Int)
  | closeByToken (tokenId : String) (reason : Option CloseReason) (now : Option String)
      (clock : Int)
  | closeByPrincipal (principalDid : String) (reason : Option CloseReason) (now : Option String)
      (clock : Int)
  | listActive (filter : SessionListActiveFilter)
  | cleanExpired (params : CleanParams) (clock : Int)

/-- Store what was computed under the identifier, and return it. -/
def store (sessionId : String) (computed : Except SessionError Session) (sessions : Sessions) :
    SessionOutcome × Sessions :=
  match computed with
  | .error error => (.error error, sessions)
  | .ok session => (.ok (.session session), sessions.set sessionId session)

def create (input : SessionCreateInput) (clock : Int) (sessions : Sessions) :
    SessionOutcome × Sessions :=
  store input.sessionId (newSession input clock sessions) sessions

def resume (P : SessionPorts) (input : SessionResumeInput) (clock : Int) (sessions : Sessions) :
    SessionOutcome × Sessions :=
  match resumedSession P input clock sessions with
  | .error error => (.error error, sessions)
  | .ok (session, none) => (.ok (.session session), sessions.set input.sessionId session)
  | .ok (session, some error) => (.error error, sessions.set input.sessionId session)

/-- The old session is closed first and stays closed when the new one cannot be created. -/
def supersedeAndCreate (params : SupersedeParams) (clock : Int) (sessions : Sessions) :
    SessionOutcome × Sessions :=
  let input := { params.newCreateInput with supersedesSessionId := some params.oldSessionId }
  match sessions.get? params.oldSessionId with
  | none => (.error (.protocol .notFound
      ("Old session " ++ params.oldSessionId ++ " does not exist")), sessions)
  | some old =>
      if old.state ≠ some .closed then
        match (nowText params.now clock).bind fun now =>
            closedSession now params.fallbackCloseReason none old with
        | .error error => (.error error, sessions)
        | .ok closed => create input clock (sessions.set params.oldSessionId closed)
      else create input clock sessions

/-- A loop over the sessions that rewrites those of a kind, and the identifiers of these. -/
def sweep (p : Session → Prop) [DecidablePred p] (rewrite : Session → Except SessionError Session) :
    List (String × Session) → Sessions → Except SessionError (List String) × Sessions
  | [], sessions => (.ok [], sessions)
  | (id, row) :: rest, sessions =>
      if p row then
        match rewrite row with
        | .error error => (.error error, sessions)
        | .ok row' =>
            let (swept, sessions') := sweep p rewrite rest (sessions.set id row')
            (swept.map (id :: ·), sessions')
      else sweep p rewrite rest sessions

/-- `LIVE_STATES.has(row.state)`. -/
def Session.Live (row : Session) : Prop := ∃ state ∈ row.state, state ≠ .closed

instance (row : Session) : Decidable row.Live :=
  inferInstanceAs (Decidable (∃ state ∈ row.state, state ≠ .closed))

/-- A loop that closes the live sessions of a kind. -/
def closeAll (p : Session → Prop) [DecidablePred p] (reason : Option CloseReason)
    (now : Option String) (clock : Int) (sessions : Sessions) : SessionOutcome × Sessions :=
  match nowText now clock with
  | .error error => (.error error, sessions)
  | .ok text =>
      let (swept, sessions') := sweep (fun row => p row ∧ row.Live)
        (closedSession text (reason.getD .revokedToken) none) sessions.entries sessions
      (swept.map .ids, sessions')

def closeByToken (tokenId : String) (reason : Option CloseReason) (now : Option String)
    (clock : Int) (sessions : Sessions) : SessionOutcome × Sessions :=
  closeAll (fun row => row.capabilityTokenId = some tokenId) reason now clock sessions

def closeByPrincipal (principalDid : String) (reason : Option CloseReason) (now : Option String)
    (clock : Int) (sessions : Sessions) : SessionOutcome × Sessions :=
  closeAll (fun row => row.principalDid = principalDid) reason now clock sessions

/-- A filter by a DID that is absent or empty keeps everything. -/
def keepDid (wanted : Option String) (did : Session → String) (sessions : List Session) :
    List Session :=
  match wanted with
  | none => sessions
  | some text => if text = "" then sessions else sessions.filter fun s => did s = text

/-- `results.slice(0, limit)`, when there is a limit and it is not zero. -/
def keepLimit (limit : Option Int) (sessions : List Session) : List Session :=
  match limit with
  | none => sessions
  | some n =>
      if n = 0 then sessions
      else if 0 < n then sessions.take n.toNat
      else sessions.take (sessions.length - n.natAbs)

/-- `b.lastSeenAt.localeCompare(a.lastSeenAt) <= 0`. -/
def seenFirst (P : SessionPorts) (a b : Session) : Bool :=
  match a.lastSeenAt, b.lastSeenAt with
  | some seenA, some seenB => decide (P.localeCompare seenB seenA ≤ 0)
  | _, _ => false

/-- `results.sort(...)`. One session is compared with no other. -/
def sortSessions (P : SessionPorts) (results : List Session) : Except SessionError (List Session) :=
  if results.length ≤ 1 ∨ ∀ s ∈ results, s.lastSeenAt ≠ none then
    .ok (results.mergeSort (seenFirst P))
  else
    match P.sortUndated results with
    | none => .error .typeError
    | some sorted => .ok sorted

def listActive (P : SessionPorts) (filter : SessionListActiveFilter) (sessions : Sessions) :
    Except SessionError (List Session) :=
  let states := filter.states.getD [.active]
  let results := (sessions.entries.map Prod.snd).filter fun s => ∃ state ∈ s.state, state ∈ states
  let results := keepDid filter.initiatorDid Session.initiatorDid results
  let results := keepDid filter.responderDid Session.responderDid results
  (sortSessions P results).map (keepLimit filter.limit)

/-- The session that has gone idle. -/
def idleSession (now : String) (row : Session) : Except SessionError Session := do
  let revision ← bumpRevision row.revision
  return { row with
    state := some .idle, idleSince := some now, updatedAt := now, revision := revision }

/-- The soft timeout; a session that was authorized at no time has none. -/
def Unauthorized (P : SessionPorts) (now : Option Int) (limit : ℚ) (row : Session) : Prop :=
  ∃ since ∈ row.lastAuthorizedAt, Elapsed P now since limit

instance (P : SessionPorts) (now : Option Int) (limit : ℚ) (row : Session) :
    Decidable (Unauthorized P now limit row) :=
  inferInstanceAs (Decidable (∃ since ∈ row.lastAuthorizedAt, Elapsed P now since limit))

/-- One pass of `cleanExpired`: how many sessions it has rewritten. -/
def pass (p : Session → Prop) [DecidablePred p] (rewrite : Session → Except SessionError Session)
    (sessions : Sessions) : Except SessionError Nat × Sessions :=
  let (swept, sessions') := sweep p rewrite sessions.entries sessions
  (swept.map List.length, sessions')

def cleanExpired (P : SessionPorts) (params : CleanParams) (clock : Int) (sessions : Sessions) :
    SessionOutcome × Sessions :=
  let ms := nowMs P params.now clock
  match dateText ms with
  | .error error => (.error error, sessions)
  | .ok now =>
      match pass (fun row => row.state = some .created ∧
          Elapsed P ms row.createdAt params.createdTimeoutMs)
        (fun row => closedSession now .handshakeRejected row.idleSince row) sessions with
      | (.error error, s₁) => (.error error, s₁)
      | (.ok markedStale, s₁) =>
          match pass (fun row => row.state = some .active ∧
              Unauthorized P ms params.idleSoftMs row) (idleSession now) s₁ with
          | (.error error, s₂) => (.error error, s₂)
          | (.ok markedIdle, s₂) =>
              match pass (fun row =>
                  row.state = some .idle ∧ IdleExpired P ms params.idleHardMs row)
                (closedSession now .idleTimeout none) s₂ with
              | (.error error, s₃) => (.error error, s₃)
              | (.ok markedClosed, s₃) =>
                  (.ok (.cleaned ⟨markedStale, markedIdle, markedClosed⟩), s₃)

def SessionOperation.perform (P : SessionPorts) (operation : SessionOperation)
    (sessions : Sessions) : SessionOutcome × Sessions :=
  match operation with
  | create input clock => Communication.create input clock sessions
  | get sessionId => (.ok (.found (sessions.get? sessionId)), sessions)
  | update sessionId patch clock =>
      store sessionId (updatedSession sessionId patch clock sessions) sessions
  | resume input clock => Communication.resume P input clock sessions
  | supersedeAndCreate params clock => Communication.supersedeAndCreate params clock sessions
  | claimForDispatch params clock =>
      store params.sessionId (claimedSession params clock sessions) sessions
  | markAuthorized params clock =>
      store params.sessionId (authorizedSession params clock sessions) sessions
  | closeByToken tokenId reason now clock =>
      Communication.closeByToken tokenId reason now clock sessions
  | closeByPrincipal principalDid reason now clock =>
      Communication.closeByPrincipal principalDid reason now clock sessions
  | listActive filter => ((Communication.listActive P filter sessions).map .listed, sessions)
  | cleanExpired params clock => Communication.cleanExpired P params clock sessions

end Coivitas.Communication
