import Coivitas.Foundation.CalendarText
import Coivitas.Foundation.OrderedMap
import Coivitas.Foundation.Outcome
import Coivitas.Crypto.HashChain

/-! # Trust boundaries

The lifecycle of a trust boundary: five states, the list of legal transitions
and `transitionState` with its guards. A call awaits the storage and, where a
transition needs a proof, the verifier; its body is given in the pieces that
run between two awaits.
-/

namespace Coivitas.Communication

open Foundation Crypto

/-! ## Data -/

inductive TrustBoundaryState where
  | pending | active | suspended | revoked | expired
  deriving DecidableEq, Repr

namespace TrustBoundaryState

def text : TrustBoundaryState → String
  | pending => "pending"
  | active => "active"
  | suspended => "suspended"
  | revoked => "revoked"
  | expired => "expired"

/-- The states that no transition leaves. -/
def Terminal (state : TrustBoundaryState) : Prop := state = revoked ∨ state = expired

instance (state : TrustBoundaryState) : Decidable state.Terminal := by
  unfold Terminal
  infer_instance

end TrustBoundaryState

/-- The states a transition may name: `emergency_suspended` is none of the five. -/
inductive TargetState where
  | lifecycle (state : TrustBoundaryState)
  | emergencySuspended
  deriving DecidableEq, Repr

inductive LifecycleEvent where
  | onTrustEstablished | onLeaseExtended | onSuspended | onResumed | onRevoked | onExpired
  | onEmergencySuspended
  deriving DecidableEq, Repr

def LifecycleEvent.text : LifecycleEvent → String
  | onTrustEstablished => "onTrustEstablished"
  | onLeaseExtended => "onLeaseExtended"
  | onSuspended => "onSuspended"
  | onResumed => "onResumed"
  | onRevoked => "onRevoked"
  | onExpired => "onExpired"
  | onEmergencySuspended => "onEmergencySuspended"

inductive TransitionSource where
  | client | system | sweeper
  deriving DecidableEq, Repr

def TransitionSource.text : TransitionSource → String
  | client => "client"
  | system => "system"
  | sweeper => "sweeper"

structure LifecycleWindow where
  notBefore : String
  notAfter : String
  deriving DecidableEq, Repr

structure TrustBoundary where
  tbVersion : String
  id : String
  principalSide : String
  boundedSide : String
  boundaryScope : List String
  lifecycleWindow : LifecycleWindow
  state : TrustBoundaryState
  stateEnteredAt : String
  bindingProofId : Option String
  boundedTokenId : Option String
  delegationChainHead : Option String
  emergencyAuthorizationId : Option String
  deriving DecidableEq, Repr

/-- What both kinds of proof carry: a binding proof and a lease extension proof. -/
structure BoundaryProof where
  cspVersion : String
  token : String
  disclosedClaims : List String
  challenge : String
  audience : String
  notAfter : String
  proofValue : String
  boundaryId : String
  deriving DecidableEq, Repr

structure TrustBoundaryAuditEvent where
  type : LifecycleEvent
  boundaryId : String
  transitionBefore : TrustBoundaryState
  transitionAfter : TrustBoundaryState
  transitionSource : TransitionSource
  actorDID : String
  timestamp : String
  bindingProofId : Option String
  deriving DecidableEq, Repr

inductive TbErrorCode where
  | versionUnsupported | idInvalid | partySelfReferential | invalidTransition | lifecycleInvalid
  | boundaryExpired | bindingProofMissing | bindingProofUnexpected | payloadCoverageInsufficient
  | expiryClientControlled | principalPopMissing | emergencyNotImplemented
  | auditTransitionSourceInvalid | boundaryNotFound | boundaryProofVerifyFailed
  deriving DecidableEq, Repr

/-- How a call fails: by `TbProtocolError` with its code, message and invariant, by an identifier
that is no UUID, by a date out of range, or by the verifier's own failure. -/
inductive TbFailure where
  | protocol (code : TbErrorCode) (message : String) (invariant : Option String)
  | invalidUuid
  | rangeError
  | verifierThrew
  deriving DecidableEq, Repr

/-! ## The allowlist -/

inductive TransitionId where
  | t1 | t2 | t3 | t4 | t5 | t6 | t7 | t8
  deriving DecidableEq, Repr

structure LegalTransition where
  id : TransitionId
  fromState : TrustBoundaryState
  event : LifecycleEvent
  toState : TargetState
  deriving DecidableEq, Repr

def legalTransitions : List LegalTransition :=
  [⟨.t1, .pending, .onTrustEstablished, .lifecycle .active⟩,
    ⟨.t2, .active, .onLeaseExtended, .lifecycle .active⟩,
    ⟨.t3, .active, .onSuspended, .lifecycle .suspended⟩,
    ⟨.t4, .suspended, .onResumed, .lifecycle .active⟩,
    ⟨.t5, .active, .onRevoked, .lifecycle .revoked⟩,
    ⟨.t5, .suspended, .onRevoked, .lifecycle .revoked⟩,
    ⟨.t6, .active, .onExpired, .lifecycle .expired⟩,
    ⟨.t6, .suspended, .onExpired, .lifecycle .expired⟩,
    ⟨.t7, .active, .onExpired, .lifecycle .expired⟩,
    ⟨.t7, .suspended, .onExpired, .lifecycle .expired⟩,
    ⟨.t8, .active, .onEmergencySuspended, .emergencySuspended⟩]

/-- Among several candidates the sweeper takes `T7` and everyone else the other one. -/
def findLegalTransition (fromState : TrustBoundaryState) (event : LifecycleEvent)
    (toState : TargetState) (transitionSource : TransitionSource) : Option LegalTransition :=
  let candidates := legalTransitions.filter fun t =>
    t.fromState = fromState ∧ t.event = event ∧ t.toState = toState
  match candidates with
  | [] => none
  | [candidate] => some candidate
  | first :: _ =>
      if transitionSource = .sweeper then
        some ((candidates.find? fun t => t.id = .t7).getD first)
      else some ((candidates.find? fun t => t.id ≠ .t7).getD first)

/-! ## Checks -/

/-- The manager's bounds, with `Date.parse`: `none` is a value that is not finite. -/
structure LifecycleManager where
  dateParse : String → Option Int
  maxLifecycleWindowMs : Int
  minWindowMs : Int

def tbDefaultMinWindowMs : Int := 1000

def tbDefaultMaxLifecycleWindowMs : Int := 6 * 30 * 24 * 60 * 60 * 1000

variable (M : LifecycleManager)

def isoToMs (ts : String) : Except TbFailure Int :=
  match M.dateParse ts with
  | none => .error (.protocol .lifecycleInvalid ("timestamp invalid: " ++ ts) (some "I5"))
  | some ms => .ok ms

/-- The text of an instant, or `RangeError`. -/
def isoText (ms : Int) : Except TbFailure String :=
  match Calendar.toISOString ms with
  | none => .error .rangeError
  | some text => .ok text

def toUuidV4String (s : String) : Except TbFailure String :=
  if isUuidV4 s = true then .ok s else .error .invalidUuid

/-- `assertInvariant`; that the state is one of the five holds by its type. -/
def assertInvariant (boundary : TrustBoundary) : Except TbFailure Unit := do
  require (boundary.tbVersion = "1.0.0") (.protocol .versionUnsupported
    ("tbVersion " ++ boundary.tbVersion ++ " not supported (v0.1 only '1.0.0')") (some "I_tb_ver"))
  require (boundary.id ≠ "") (.protocol .idInvalid "boundary id missing or empty" (some "I1"))
  require (boundary.principalSide ≠ boundary.boundedSide) (.protocol .partySelfReferential
    ("principalSide === boundedSide (" ++ boundary.principalSide ++
      ") — no self-referential trust") (some "I2"))
  let notBeforeMs ← isoToMs M boundary.lifecycleWindow.notBefore
  let notAfterMs ← isoToMs M boundary.lifecycleWindow.notAfter
  require (notBeforeMs < notAfterMs) (.protocol .lifecycleInvalid
    ("notBefore (" ++ boundary.lifecycleWindow.notBefore ++ ") >= notAfter (" ++
      boundary.lifecycleWindow.notAfter ++ ")") (some "I5"))
  require (¬ (boundary.state = .pending ∧ boundary.bindingProofId ≠ none))
    (.protocol .bindingProofUnexpected
      "pending state does not allow bindingProofId (should be undefined)" (some "I6"))
  require (¬ (boundary.state ≠ .pending ∧
      (boundary.bindingProofId = none ∨ boundary.bindingProofId = some "")))
    (.protocol .bindingProofMissing
      ("state " ++ boundary.state.text ++ " requires bindingProofId") (some "I6"))

/-! ## `transitionState` -/

structure VerifyContext where
  expectedAudience : String
  expectedChallenge : String
  deriving DecidableEq, Repr

structure TransitionRequest where
  id : String
  event : LifecycleEvent
  actorDID : String
  transitionSource : TransitionSource
  bindingProof : Option BoundaryProof
  leaseExtensionProof : Option BoundaryProof
  requestedNotAfter : Option String
  verifyContext : Option VerifyContext
  deriving DecidableEq, Repr

def targetState : LifecycleEvent → Except TbFailure TrustBoundaryState
  | .onEmergencySuspended => .error (.protocol .emergencyNotImplemented
      "onEmergencySuspended is a fail-closed placeholder in v0.1; not yet implemented"
      (some "I10"))
  | .onTrustEstablished => .ok .active
  | .onLeaseExtended => .ok .active
  | .onSuspended => .ok .suspended
  | .onResumed => .ok .active
  | .onRevoked => .ok .revoked
  | .onExpired => .ok .expired

/-- A value that must be present. -/
def required {α : Type} (value : Option α) (failure : TbFailure) : Except TbFailure α :=
  match value with
  | none => .error failure
  | some a => .ok a

@[simp] theorem required_eq_ok {α : Type} {value : Option α} {failure : TbFailure} {found : α} :
    required value failure = .ok found ↔ value = some found := by
  cases value <;> simp [required]

/-- The guards of `T1`, before the verifier. -/
def checkBindingProof (request : TransitionRequest) (boundary : TrustBoundary) :
    Except TbFailure Unit := do
  let proof ← required request.bindingProof (.protocol .principalPopMissing
    "T1 onTrustEstablished requires bindingProof" (some "I9"))
  let _ ← required request.verifyContext (.protocol .payloadCoverageInsufficient
    "T1 onTrustEstablished requires verifyContext (expectedAudience + expectedChallenge)"
    (some "I7"))
  require (proof.boundaryId = boundary.id) (.protocol .payloadCoverageInsufficient
    ("bindingProof.boundaryId (" ++ proof.boundaryId ++ ") !== boundary.id (" ++
      boundary.id ++ ")") (some "I7"))
  require (proof.notAfter = boundary.lifecycleWindow.notAfter) (.protocol .expiryClientControlled
    ("bindingProof.notAfter (" ++ proof.notAfter ++ ") !== server-enforced notAfter (" ++
      boundary.lifecycleWindow.notAfter ++ ")") (some "I8"))

/-- The guards of `T2`, before the verifier, and the new end of the lease. -/
def checkLeaseExtension (request : TransitionRequest) (nowMs : Int) (boundary : TrustBoundary) :
    Except TbFailure String := do
  let proof ← required request.leaseExtensionProof (.protocol .payloadCoverageInsufficient
    "T2 onLeaseExtended requires leaseExtensionProof" (some "I7"))
  let _ ← required request.verifyContext (.protocol .payloadCoverageInsufficient
    "T2 onLeaseExtended requires verifyContext" (some "I7"))
  let requestedNotAfter ← required (request.requestedNotAfter.filter (· ≠ ""))
    (.protocol .lifecycleInvalid "T2 onLeaseExtended requires requestedNotAfter" (some "I5"))
  let requestedMs ← isoToMs M requestedNotAfter
  let serverEnforcedMs := min requestedMs (nowMs + M.maxLifecycleWindowMs)
  require (nowMs + M.minWindowMs < serverEnforcedMs) (.protocol .lifecycleInvalid
    ("serverEnforced notAfter <= now + minWindow (" ++ toString M.minWindowMs ++ "ms)")
    (some "I5"))
  let newNotAfter ← isoText serverEnforcedMs
  require (proof.notAfter = newNotAfter) (.protocol .expiryClientControlled
    ("leaseExtensionProof.notAfter (" ++ proof.notAfter ++ ") !== server-enforced (" ++
      newNotAfter ++ ")") (some "I8"))
  require (proof.boundaryId = boundary.id) (.protocol .payloadCoverageInsufficient
    "leaseExtensionProof.boundaryId !== boundary.id" (some "I7"))
  return newNotAfter

/-- The guard of `T4`: the lease has not ended. -/
def checkResumption (nowMs : Int) (boundary : TrustBoundary) : Except TbFailure Unit := do
  let notAfterMs ← isoToMs M boundary.lifecycleWindow.notAfter
  require (nowMs + M.minWindowMs < notAfterMs) (.protocol .boundaryExpired
    ("suspended boundary has expired (use the T6 expired path); notAfter = " ++
      boundary.lifecycleWindow.notAfter) (some "I5"))

/-- The guard of `T7`: the lease has ended. -/
def checkSweep (nowMs : Int) (boundary : TrustBoundary) : Except TbFailure Unit := do
  let notAfterMs ← isoToMs M boundary.lifecycleWindow.notAfter
  require (notAfterMs ≤ nowMs) (.protocol .lifecycleInvalid
    ("T7 auto-sweep is not allowed to trigger too early; notAfter (" ++
      boundary.lifecycleWindow.notAfter ++ ") > now") (some "I5"))

/-- What a call has settled when its guards have passed. -/
structure Transition where
  id : TransitionId
  toState : TrustBoundaryState
  lifecycleWindow : LifecycleWindow
  deriving DecidableEq, Repr

/-- The guards of one kind of transition, and the window it leaves. -/
def dispatch (id : TransitionId) (request : TransitionRequest) (nowMs : Int)
    (boundary : TrustBoundary) : Except TbFailure LifecycleWindow := do
  match id with
  | .t1 =>
      checkBindingProof request boundary
      return boundary.lifecycleWindow
  | .t2 =>
      let newNotAfter ← checkLeaseExtension M request nowMs boundary
      return ⟨boundary.lifecycleWindow.notBefore, newNotAfter⟩
  | .t3 => return boundary.lifecycleWindow
  | .t4 =>
      checkResumption M nowMs boundary
      return boundary.lifecycleWindow
  | .t5 => return boundary.lifecycleWindow
  | .t6 => return boundary.lifecycleWindow
  | .t7 =>
      checkSweep M nowMs boundary
      return boundary.lifecycleWindow
  | .t8 => throw (.protocol .invalidTransition
      "transition id T8 not covered within LEGAL_TRANSITIONS (code bug)" (some "I4"))

/-- The number of a transition in messages: `legal.id.slice(1)`. -/
def TransitionId.number : TransitionId → String
  | t1 => "1"
  | t2 => "2"
  | t3 => "3"
  | t4 => "4"
  | t5 => "5"
  | t6 => "6"
  | t7 => "7"
  | t8 => "8"

/-- From the loaded boundary to the verifier, or to the construction of the next state. -/
def checkTransition (request : TransitionRequest) (nowMs : Int) (boundary : TrustBoundary) :
    Except TbFailure Transition := do
  let toState ← targetState request.event
  let legal ← required
    (findLegalTransition boundary.state request.event (.lifecycle toState)
      request.transitionSource)
    (.protocol .invalidTransition ("illegal transition: " ++ boundary.state.text ++ " --" ++
      request.event.text ++ "--> " ++ toState.text) (some "I4"))
  require (¬ (legal.id = .t7 ∧ request.transitionSource ≠ .sweeper))
    (.protocol .auditTransitionSourceInvalid
      ("T7 auto-sweep requires transitionSource = 'sweeper'; got = " ++
        request.transitionSource.text) (some "I_tb_audit_src"))
  require (¬ (legal.id ≠ .t7 ∧ request.transitionSource = .sweeper))
    (.protocol .auditTransitionSourceInvalid
      ("non-T7 transitions do not allow transitionSource = 'sweeper'; T" ++ legal.id.number ++
        " should be 'client' or 'system'") (some "I_tb_audit_src"))
  let lifecycleWindow ← dispatch M legal.id request nowMs boundary
  return ⟨legal.id, toState, lifecycleWindow⟩

/-- The transitions that await the verifier. -/
def TransitionId.NeedsProof (id : TransitionId) : Prop := id = t1 ∨ id = t2

instance (id : TransitionId) : Decidable id.NeedsProof := by
  unfold TransitionId.NeedsProof
  infer_instance

/-- An expiry signs nothing and keeps the proof; every other transition names a new one. -/
def nextBindingProofId (id : TransitionId) (uuid : String) (boundary : TrustBoundary) :
    Except TbFailure (Option String) :=
  if id = .t6 ∨ id = .t7 then .ok boundary.bindingProofId
  else (toUuidV4String uuid).map some

/-- The boundary that the call goes on to save. -/
def nextBoundary (transition : Transition) (enteredMs : Int) (uuid : String)
    (boundary : TrustBoundary) : Except TbFailure TrustBoundary := do
  let bindingProofId ← nextBindingProofId transition.id uuid boundary
  let stateEnteredAt ← isoText enteredMs
  let next := { boundary with
    state := transition.toState
    stateEnteredAt := stateEnteredAt
    lifecycleWindow := transition.lifecycleWindow
    bindingProofId := bindingProofId }
  assertInvariant M next
  return next

/-! ## The storage in memory -/

/-- A boundary is stored under its own identifier. -/
structure InMemoryTrustBoundaryStorage where
  boundaries : OrderedMap String TrustBoundary
  auditEvents : List TrustBoundaryAuditEvent
  keyed : ∀ id boundary, boundaries.get? id = some boundary → boundary.id = id

namespace InMemoryTrustBoundaryStorage

def empty : InMemoryTrustBoundaryStorage := ⟨OrderedMap.empty, [], by simp⟩

def load (storage : InMemoryTrustBoundaryStorage) (id : String) : Option TrustBoundary :=
  storage.boundaries.get? id

def save (storage : InMemoryTrustBoundaryStorage) (boundary : TrustBoundary) :
    InMemoryTrustBoundaryStorage where
  boundaries := storage.boundaries.set boundary.id boundary
  auditEvents := storage.auditEvents
  keyed := by
    intro id stored hstored
    rw [OrderedMap.get?_set] at hstored
    split at hstored
    next hid =>
      cases hstored
      exact hid
    next => exact storage.keyed id stored hstored

def appendAuditEvent (storage : InMemoryTrustBoundaryStorage) (event : TrustBoundaryAuditEvent) :
    InMemoryTrustBoundaryStorage :=
  { storage with auditEvents := storage.auditEvents ++ [event] }

theorem load_save (storage : InMemoryTrustBoundaryStorage) (boundary : TrustBoundary)
    (id : String) :
    (storage.save boundary).load id = if boundary.id = id then some boundary else storage.load id :=
  OrderedMap.get?_set storage.boundaries boundary.id id boundary

@[simp] theorem load_appendAuditEvent (storage : InMemoryTrustBoundaryStorage)
    (event : TrustBoundaryAuditEvent) (id : String) :
    (storage.appendAuditEvent event).load id = storage.load id := rfl

end InMemoryTrustBoundaryStorage

end Coivitas.Communication
