import Coivitas.Communication.TerminalStates

/-! # Runs of a trust boundary manager

`createBoundary` and `transitionState` one after the other on the storage in memory.
Creation saves under its identifier whatever is stored there; a transition saves
first and reads the clock for its audit event afterwards. Apart from these two places,
the stored boundaries keep their invariant, their leases are bounded by the clock of
their last grant, and the audit log is the path that each of them has taken.
-/

namespace Coivitas.Communication

open Foundation Crypto

/-! ## Calls -/

structure CreateRequest where
  id : String
  principalSide : String
  boundedSide : String
  boundaryScope : List String
  requestedNotAfter : String
  deriving DecidableEq, Repr

/-- What the clock, the verifier and `randomUUID` give to a transition. A date that is not
valid behaves at a guard as an instant out of range on one side of it does. -/
structure TransitionAnswers where
  nowMs : Int
  verdict : Verdict
  uuid : String
  enteredMs : Int
  auditMs : Int
  deriving DecidableEq, Repr

section Calls

variable (M : LifecycleManager)

/-- The boundary that `createBoundary` goes on to save. -/
def newBoundary (request : CreateRequest) (nowMs notBeforeMs : Int) :
    Except TbFailure TrustBoundary := do
  require (isUuidV4 request.id = true) .invalidUuid
  require (request.principalSide ≠ request.boundedSide) (.protocol .partySelfReferential
    ("principalSide === boundedSide (" ++ request.principalSide ++
      ") — no self-referential trust") (some "I2"))
  let requestedMs ← isoToMs M request.requestedNotAfter
  let serverEnforcedMs := min requestedMs (nowMs + M.maxLifecycleWindowMs)
  require (nowMs + M.minWindowMs < serverEnforcedMs) (.protocol .lifecycleInvalid
    ("serverEnforced notAfter <= now + minWindow (" ++ toString M.minWindowMs ++ "ms)")
    (some "I5"))
  let notBefore ← isoText notBeforeMs
  let notAfter ← isoText serverEnforcedMs
  let boundary : TrustBoundary :=
    { tbVersion := "1.0.0"
      id := request.id
      principalSide := request.principalSide
      boundedSide := request.boundedSide
      boundaryScope := request.boundaryScope
      lifecycleWindow := ⟨notBefore, notAfter⟩
      state := .pending
      stateEnteredAt := notBefore
      bindingProofId := none
      boundedTokenId := none
      delegationChainHead := none
      emergencyAuthorizationId := none }
  assertInvariant M boundary
  return boundary

def createBoundary (storage : InMemoryTrustBoundaryStorage) (request : CreateRequest)
    (nowMs notBeforeMs : Int) : Except TbFailure TrustBoundary × InMemoryTrustBoundaryStorage :=
  match newBoundary M request nowMs notBeforeMs with
  | .error failure => (.error failure, storage)
  | .ok boundary => (.ok boundary, storage.save boundary)

/-- The answer of the verifier, where the transition asks for one. -/
def checkVerdict (transition : Transition) (verdict : Verdict) : Except TbFailure Unit :=
  if transition.id.NeedsProof then
    match verdict with
    | .accepted => .ok ()
    | .rejected code message => .error (.protocol code message
        (some (if transition.id = .t1 then "I7 / I9" else "I7 / I8")))
    | .threw => .error .verifierThrew
  else .ok ()

/-- The transition of a loaded boundary, and the boundary it makes. -/
def makeTransition (request : TransitionRequest) (answers : TransitionAnswers)
    (boundary : TrustBoundary) : Except TbFailure (Transition × TrustBoundary) := do
  let transition ← checkTransition M request answers.nowMs boundary
  checkVerdict transition answers.verdict
  let next ← nextBoundary M transition answers.enteredMs answers.uuid boundary
  return (transition, next)

def auditEvent (request : TransitionRequest) (boundary next : TrustBoundary)
    (timestamp : String) : TrustBoundaryAuditEvent where
  type := request.event
  boundaryId := boundary.id
  transitionBefore := boundary.state
  transitionAfter := next.state
  transitionSource := request.transitionSource
  actorDID := request.actorDID
  timestamp := timestamp
  bindingProofId := next.bindingProofId

/-- The clock is read for the audit event when the boundary is saved already. -/
def transitionState (storage : InMemoryTrustBoundaryStorage) (request : TransitionRequest)
    (answers : TransitionAnswers) :
    Except TbFailure TrustBoundary × InMemoryTrustBoundaryStorage :=
  match storage.load request.id with
  | none => (.error (.protocol .boundaryNotFound
      ("boundary " ++ request.id ++ " does not exist") none), storage)
  | some boundary =>
      match makeTransition M request answers boundary with
      | .error failure => (.error failure, storage)
      | .ok (_, next) =>
          match isoText answers.auditMs with
          | .error failure => (.error failure, storage.save next)
          | .ok timestamp => (.ok next, (storage.save next).appendAuditEvent
              (auditEvent request boundary next timestamp))

end Calls

/-! ## Runs -/

/-- The storage, and the clock at the last creation or lease extension of each identifier. -/
structure BoundaryHistory where
  storage : InMemoryTrustBoundaryStorage
  grantedAt : String → Int

def BoundaryHistory.initial : BoundaryHistory := ⟨InMemoryTrustBoundaryStorage.empty, fun _ => 0⟩

inductive BoundaryCall where
  | create (request : CreateRequest) (nowMs notBeforeMs : Int)
  | transition (request : TransitionRequest) (answers : TransitionAnswers)

section Runs

variable (M : LifecycleManager)

def BoundaryCall.perform (storage : InMemoryTrustBoundaryStorage) :
    BoundaryCall → Except TbFailure TrustBoundary × InMemoryTrustBoundaryStorage
  | create request nowMs notBeforeMs => createBoundary M storage request nowMs notBeforeMs
  | transition request answers => transitionState M storage request answers

/-- The boundary that a call saves, if it gets that far. -/
def BoundaryCall.saved (storage : InMemoryTrustBoundaryStorage) :
    BoundaryCall → Option TrustBoundary
  | create request nowMs notBeforeMs => (newBoundary M request nowMs notBeforeMs).toOption
  | transition request answers => do
      let boundary ← storage.load request.id
      let made ← (makeTransition M request answers boundary).toOption
      return made.2

/-- The clock of a grant. -/
def BoundaryCall.grant : BoundaryCall → Option (String × Int)
  | create request nowMs _ => some (request.id, nowMs)
  | transition request answers =>
      if request.event = .onLeaseExtended then some (request.id, answers.nowMs) else none

/-- The clocks of the last grants after a call. -/
def BoundaryCall.regrant (call : BoundaryCall) (saved : Option TrustBoundary)
    (grantedAt : String → Int) (id : String) : Int :=
  match call.grant, saved with
  | some (granted, clock), some _ => if granted = id then clock else grantedAt id
  | _, _ => grantedAt id

def BoundaryHistory.step (s : BoundaryHistory) (call : BoundaryCall) : Option BoundaryHistory :=
  some ⟨(call.perform M s.storage).2, call.regrant (call.saved M s.storage) s.grantedAt⟩

end Runs

section Spec

variable {M : LifecycleManager}

theorem isoText_eq_ok {ms : Int} {text : String} (h : isoText ms = .ok text) :
    Calendar.toISOString ms = some text := by
  unfold isoText at h
  split at h
  next => cases h
  next found hfound => exact hfound.trans (congrArg some (Except.ok.inj h))

theorem newBoundary_eq_ok {request : CreateRequest} {nowMs notBeforeMs : Int}
    {boundary : TrustBoundary} (h : newBoundary M request nowMs notBeforeMs = .ok boundary) :
    boundary.id = request.id ∧ boundary.principalSide = request.principalSide ∧
      boundary.boundedSide = request.boundedSide ∧
      boundary.boundaryScope = request.boundaryScope ∧ boundary.state = .pending ∧
      assertInvariant M boundary = .ok () ∧
      ∃ ms, Calendar.toISOString ms = some boundary.lifecycleWindow.notAfter ∧
        ms ≤ nowMs + M.maxLifecycleWindowMs := by
  simp only [newBoundary, bind_eq_ok, exists_unit, require_eq_ok, pure_eq_ok] at h
  obtain ⟨-, -, requestedMs, -, -, notBefore, -, notAfter, hnotAfter, hinvariant, rfl⟩ := h
  exact ⟨rfl, rfl, rfl, rfl, rfl, hinvariant, _, isoText_eq_ok hnotAfter,
    min_le_right requestedMs _⟩

theorem checkLeaseExtension_eq_ok {request : TransitionRequest} {nowMs : Int}
    {boundary : TrustBoundary} {newNotAfter : String}
    (h : checkLeaseExtension M request nowMs boundary = .ok newNotAfter) :
    ∃ ms, Calendar.toISOString ms = some newNotAfter ∧ ms ≤ nowMs + M.maxLifecycleWindowMs := by
  simp only [checkLeaseExtension, bind_eq_ok, exists_unit, require_eq_ok, pure_eq_ok] at h
  obtain ⟨_, -, _, -, _, -, requestedMs, -, -, text, htext, -, -, rfl⟩ := h
  exact ⟨_, isoText_eq_ok htext, min_le_right requestedMs _⟩

theorem legalTransitions_lease : ∀ legal ∈ legalTransitions,
    legal.id = .t2 ↔ legal.event = .onLeaseExtended := by
  decide

/-- Only a lease extension moves the window. -/
theorem dispatch_eq_ok {id : TransitionId} {request : TransitionRequest} {nowMs : Int}
    {boundary : TrustBoundary} {window : LifecycleWindow}
    (h : dispatch M id request nowMs boundary = .ok window) :
    id = .t2 ∧ (∃ ms, Calendar.toISOString ms = some window.notAfter ∧
      ms ≤ nowMs + M.maxLifecycleWindowMs) ∨ id ≠ .t2 ∧ window = boundary.lifecycleWindow := by
  cases id with
  | t2 =>
      simp only [dispatch, bind_eq_ok, pure_eq_ok] at h
      obtain ⟨newNotAfter, hlease, rfl⟩ := h
      exact Or.inl ⟨rfl, checkLeaseExtension_eq_ok hlease⟩
  | t8 => simp [dispatch] at h
  | _ =>
      simp only [dispatch, bind_eq_ok, exists_unit, pure_eq_ok] at h
      first
        | exact Or.inr ⟨by decide, h.2.symm⟩
        | exact Or.inr ⟨by decide, h.symm⟩

/-- An event of the allowlist. -/
def LegalMove (fromState : TrustBoundaryState) (event : LifecycleEvent)
    (toState : TrustBoundaryState) : Prop :=
  ∃ legal ∈ legalTransitions, legal.fromState = fromState ∧ legal.event = event ∧
    legal.toState = .lifecycle toState

theorem LegalMove.live {fromState toState : TrustBoundaryState} {event : LifecycleEvent}
    (h : LegalMove fromState event toState) : ¬ fromState.Terminal := by
  obtain ⟨legal, hmem, rfl, -, -⟩ := h
  exact (legalTransitions_live legal hmem).1

/-- What a transition makes of the boundary it loaded. -/
structure Makes (M : LifecycleManager) (request : TransitionRequest) (nowMs : Int)
    (boundary next : TrustBoundary) : Prop where
  move : LegalMove boundary.state request.event next.state
  id : next.id = boundary.id
  principalSide : next.principalSide = boundary.principalSide
  boundedSide : next.boundedSide = boundary.boundedSide
  boundaryScope : next.boundaryScope = boundary.boundaryScope
  invariant : assertInvariant M next = .ok ()
  window : request.event = .onLeaseExtended ∧
      (∃ ms, Calendar.toISOString ms = some next.lifecycleWindow.notAfter ∧
        ms ≤ nowMs + M.maxLifecycleWindowMs) ∨
    request.event ≠ .onLeaseExtended ∧ next.lifecycleWindow = boundary.lifecycleWindow

theorem makeTransition_eq_ok {request : TransitionRequest} {answers : TransitionAnswers}
    {boundary next : TrustBoundary} {transition : Transition}
    (h : makeTransition M request answers boundary = .ok (transition, next)) :
    Makes M request answers.nowMs boundary next := by
  simp only [makeTransition, bind_eq_ok, exists_unit, pure_eq_ok, Prod.mk.injEq] at h
  obtain ⟨_, hcheck, -, _, hnext, rfl, rfl⟩ := h
  simp only [checkTransition, bind_eq_ok, exists_unit, require_eq_ok, required_eq_ok,
    pure_eq_ok] at hcheck
  obtain ⟨toState, -, legal, hfound, -, -, window, hdispatch, rfl⟩ := hcheck
  simp only [nextBoundary, bind_eq_ok, exists_unit, pure_eq_ok] at hnext
  obtain ⟨_, -, _, -, hinvariant, rfl⟩ := hnext
  obtain ⟨hmem, hfrom, hevent, hto⟩ := findLegalTransition_mem hfound
  have hlease := legalTransitions_lease legal hmem
  rw [hevent] at hlease
  refine ⟨⟨legal, hmem, hfrom, hevent, hto⟩, rfl, rfl, rfl, rfl, hinvariant, ?_⟩
  obtain ⟨hid, hwindow⟩ | ⟨hid, hwindow⟩ := dispatch_eq_ok hdispatch
  · exact Or.inl ⟨hlease.mp hid, hwindow⟩
  · exact Or.inr ⟨fun hextended => hid (hlease.mpr hextended), hwindow⟩

/-- How a call ends: it fails before its save, it creates, it moves a boundary, or it fails
after its save. -/
inductive CallOutcome (M : LifecycleManager) (storage : InMemoryTrustBoundaryStorage) :
    BoundaryCall → Option TrustBoundary →
      Except TbFailure TrustBoundary × InMemoryTrustBoundaryStorage → Prop
  | failed {call : BoundaryCall} {failure : TbFailure} :
      CallOutcome M storage call none (.error failure, storage)
  | created {request : CreateRequest} {nowMs notBeforeMs : Int} {boundary : TrustBoundary}
      (hnew : newBoundary M request nowMs notBeforeMs = .ok boundary) :
      CallOutcome M storage (.create request nowMs notBeforeMs) (some boundary)
        (.ok boundary, storage.save boundary)
  | moved {request : TransitionRequest} {answers : TransitionAnswers}
      {boundary next : TrustBoundary} {timestamp : String}
      (hload : storage.load request.id = some boundary)
      (hmakes : Makes M request answers.nowMs boundary next) :
      CallOutcome M storage (.transition request answers) (some next)
        (.ok next, (storage.save next).appendAuditEvent
          (auditEvent request boundary next timestamp))
  | torn {request : TransitionRequest} {answers : TransitionAnswers}
      {boundary next : TrustBoundary} {failure : TbFailure}
      (hload : storage.load request.id = some boundary)
      (hmakes : Makes M request answers.nowMs boundary next)
      (haudit : Calendar.toISOString answers.auditMs = none) :
      CallOutcome M storage (.transition request answers) (some next)
        (.error failure, storage.save next)

theorem callOutcome (storage : InMemoryTrustBoundaryStorage) (call : BoundaryCall) :
    CallOutcome M storage call (call.saved M storage) (call.perform M storage) := by
  cases call with
  | create request nowMs notBeforeMs =>
      simp only [BoundaryCall.saved, BoundaryCall.perform, createBoundary]
      split
      next failure hnew =>
        rw [hnew]
        exact .failed
      next boundary hnew =>
        rw [hnew]
        exact .created hnew
  | transition request answers =>
      simp only [BoundaryCall.saved, BoundaryCall.perform, transitionState]
      split
      next hload =>
        rw [hload]
        exact .failed
      next boundary hload =>
        rw [hload]
        split
        next failure hmake =>
          rw [Option.bind_eq_bind, Option.bind_some, hmake]
          exact .failed
        next transition next hmake =>
          rw [Option.bind_eq_bind, Option.bind_some, hmake]
          have hmakes := makeTransition_eq_ok hmake
          split
          next failure haudit =>
            unfold isoText at haudit
            split at haudit
            next hnone => exact .torn hload hmakes hnone
            next => cases haudit
          next timestamp haudit => exact .moved hload hmakes

end Spec

/-! ## An identifier is used once -/

/-- A boundary keeps its sides and its scope, and a terminal state for good. -/
structure Keeps (earlier later : TrustBoundary) : Prop where
  principalSide : later.principalSide = earlier.principalSide
  boundedSide : later.boundedSide = earlier.boundedSide
  boundaryScope : later.boundaryScope = earlier.boundaryScope
  terminal : earlier.state.Terminal → later.state = earlier.state

def Preserves (s s' : BoundaryHistory) : Prop :=
  ∀ id earlier, s.storage.load id = some earlier →
    ∃ later, s'.storage.load id = some later ∧ Keeps earlier later

/-- A creation that gets to its save finds nothing under its identifier, or a live boundary
with the same sides and the same scope. -/
def Harmless (M : LifecycleManager) (s : BoundaryHistory) : BoundaryCall → Prop
  | .create request nowMs notBeforeMs =>
      (newBoundary M request nowMs notBeforeMs).toOption.isSome = true →
        ∀ boundary ∈ s.storage.load request.id,
          request.principalSide = boundary.principalSide ∧
          request.boundedSide = boundary.boundedSide ∧
          request.boundaryScope = boundary.boundaryScope ∧ ¬ boundary.state.Terminal
  | .transition _ _ => True

instance (M : LifecycleManager) (s : BoundaryHistory) (call : BoundaryCall) :
    Decidable (Harmless M s call) := by
  cases call <;> (unfold Harmless; infer_instance)

section Once

variable {M : LifecycleManager}

theorem Preserves.refl (s : BoundaryHistory) : Preserves s s :=
  fun _ earlier hload => ⟨earlier, hload, rfl, rfl, rfl, fun _ => rfl⟩

theorem Preserves.trans {s t u : BoundaryHistory} (hst : Preserves s t) (htu : Preserves t u) :
    Preserves s u := by
  intro id earlier hload
  obtain ⟨middle, hmiddle, hkeeps⟩ := hst id earlier hload
  obtain ⟨later, hlater, hkeeps'⟩ := htu id middle hmiddle
  refine ⟨later, hlater, hkeeps'.principalSide.trans hkeeps.principalSide,
    hkeeps'.boundedSide.trans hkeeps.boundedSide,
    hkeeps'.boundaryScope.trans hkeeps.boundaryScope, ?_⟩
  intro hterminal
  have hstate := hkeeps.terminal hterminal
  exact (hkeeps'.terminal (hstate ▸ hterminal)).trans hstate

/-- A save preserves the storage when it keeps what is stored under its identifier. -/
theorem preserves_of_save {s s' : BoundaryHistory} {next : TrustBoundary}
    (hload : ∀ id, s'.storage.load id = (s.storage.save next).load id)
    (hkeeps : ∀ boundary ∈ s.storage.load next.id, Keeps boundary next) : Preserves s s' := by
  intro id earlier hearlier
  rw [hload, InMemoryTrustBoundaryStorage.load_save]
  split
  next hid => exact ⟨next, rfl, hkeeps earlier (hid ▸ hearlier)⟩
  next => exact ⟨earlier, hearlier, rfl, rfl, rfl, fun _ => rfl⟩

theorem Makes.keeps {request : TransitionRequest} {nowMs : Int} {boundary next : TrustBoundary}
    (h : Makes M request nowMs boundary next) : Keeps boundary next :=
  ⟨h.principalSide, h.boundedSide, h.boundaryScope,
    fun hterminal => absurd hterminal h.move.live⟩

/-- A transition saves what it made of the stored boundary. -/
theorem Makes.keeps_stored {storage : InMemoryTrustBoundaryStorage} {request : TransitionRequest}
    {nowMs : Int} {boundary next : TrustBoundary} (h : Makes M request nowMs boundary next)
    (hload : storage.load request.id = some boundary) :
    ∀ stored ∈ storage.load next.id, Keeps stored next := by
  intro stored hstored
  rw [h.id, storage.keyed request.id boundary hload, hload] at hstored
  cases hstored
  exact h.keeps

/-- A creation that is saved preserves the storage exactly when it changes nothing there. -/
theorem preserves_create_iff {s s' : BoundaryHistory} {request : CreateRequest}
    {nowMs notBeforeMs : Int} {boundary : TrustBoundary}
    (hnew : newBoundary M request nowMs notBeforeMs = .ok boundary)
    (hstorage : s'.storage = s.storage.save boundary) :
    Preserves s s' ↔ Harmless M s (.create request nowMs notBeforeMs) := by
  obtain ⟨hid, hprincipal, hbounded, hscope, hpending, -, -⟩ := newBoundary_eq_ok hnew
  constructor
  · intro hpreserves _ stored hstored
    obtain ⟨later, hlater, hkeeps⟩ := hpreserves request.id stored hstored
    rw [hstorage, InMemoryTrustBoundaryStorage.load_save, if_pos hid] at hlater
    cases hlater
    refine ⟨hprincipal.symm.trans hkeeps.principalSide, hbounded.symm.trans hkeeps.boundedSide,
      hscope.symm.trans hkeeps.boundaryScope, ?_⟩
    intro hterminal
    have hstate := hkeeps.terminal hterminal
    rw [hpending] at hstate
    rw [← hstate] at hterminal
    exact absurd hterminal (by decide)
  · intro hharmless
    refine preserves_of_save (fun id => by rw [hstorage]) ?_
    intro stored hstored
    rw [hid] at hstored
    obtain ⟨hsame, hsame', hsame'', hlive⟩ := hharmless (by rw [hnew]; rfl) stored hstored
    exact ⟨hprincipal.trans hsame, hbounded.trans hsame', hscope.trans hsame'',
      fun hterminal => absurd hterminal hlive⟩

theorem step_preserves_iff {s s' : BoundaryHistory} {call : BoundaryCall}
    (hstep : s.step M call = some s') : Preserves s s' ↔ Harmless M s call := by
  have hstorage : s'.storage = (call.perform M s.storage).2 := by
    cases hstep
    rfl
  have houtcome := callOutcome (M := M) s.storage call
  generalize hsaved : call.saved M s.storage = saved at houtcome
  generalize call.perform M s.storage = outcome at houtcome hstorage
  cases houtcome with
  | failed =>
      have hsame : Preserves s s' := by
        intro id earlier hearlier
        exact ⟨earlier, hstorage ▸ hearlier, rfl, rfl, rfl, fun _ => rfl⟩
      refine iff_of_true hsame ?_
      cases call with
      | create request nowMs notBeforeMs =>
          intro hsome
          rw [BoundaryCall.saved] at hsaved
          simp [hsaved] at hsome
      | transition request answers => trivial
  | created hnew => exact preserves_create_iff hnew hstorage
  | moved hload hmakes =>
      refine iff_of_true (preserves_of_save ?_ (hmakes.keeps_stored hload)) trivial
      intro id
      rw [hstorage]
      rfl
  | torn hload hmakes _ =>
      refine iff_of_true (preserves_of_save ?_ (hmakes.keeps_stored hload)) trivial
      intro id
      rw [hstorage]

/-- In every run, an identifier keeps its sides, its scope and its terminal state exactly
when every creation is harmless. -/
theorem related_preserves_iff (M : LifecycleManager) (calls : List BoundaryCall) :
    Related (BoundaryHistory.step M) Preserves .initial calls ↔
      Along (BoundaryHistory.step M) (Harmless M) .initial calls := by
  rw [related_iff_along Preserves.refl Preserves.trans]
  constructor
  · intro hsteps
    refine hsteps.mono ?_
    intro s call hpreserves
    exact (step_preserves_iff rfl).mp (hpreserves _ rfl)
  · intro hharmless
    refine hharmless.mono ?_
    intro s call hgood s' hstep
    exact (step_preserves_iff hstep).mpr hgood

end Once

/-! ## A revoked identifier created again -/

namespace Reissue

def revokedId : String := "0f8fad5b-d9cb-469f-a165-70867728950e"

def creation (boundedSide : String) : CreateRequest where
  id := revokedId
  principalSide := Lease.principal
  boundedSide := boundedSide
  boundaryScope := ["read"]
  requestedNotAfter := "2026-08-01T00:00:00.000Z"

def establishment : TransitionRequest where
  id := revokedId
  event := .onTrustEstablished
  actorDID := Lease.principal
  transitionSource := .client
  bindingProof := some ⟨"1.0.0", "binding", [], "n-17", Lease.audience,
    "2026-08-01T00:00:00.000Z", "c2ln", revokedId⟩
  leaseExtensionProof := none
  requestedNotAfter := none
  verifyContext := some ⟨Lease.audience, "n-17"⟩

def answers (nowMs : Int) (uuid : String) : TransitionAnswers :=
  ⟨nowMs, .accepted, uuid, nowMs, nowMs⟩

/-- A boundary is created, established and revoked, and its identifier is created again for
another agent. -/
def calls : List BoundaryCall :=
  [.create (creation "did:agent:bcb87e6537efe28620ec0d8ef6e8e7e50e39bfad") Lease.noon Lease.noon,
    .transition establishment (answers Lease.noon Lease.extensionProofId),
    .transition Lease.revocation (answers (Lease.noon + 50) Lease.revocationProofId),
    .create (creation "did:agent:6ff43316a17136e4bf6eb1773b13b1db74c3a601") (Lease.noon + 90)
      (Lease.noon + 90)]

/-- The second creation replaces the revoked boundary by a pending one with another side. -/
theorem revoked_reissued :
    ¬ Related (BoundaryHistory.step Lease.manager) Preserves .initial calls := by
  intro hrelated
  have hstates : (run (BoundaryHistory.step Lease.manager) .initial (calls.take 3)).any (fun s =>
      (s.storage.load revokedId).any (fun b => b.state = .revoked) &&
        (run (BoundaryHistory.step Lease.manager) s (calls.drop 3)).any fun t =>
          (t.storage.load revokedId).any fun b => b.state = .pending) = true := by
    decide +kernel
  simp only [Option.any_eq_true, Bool.and_eq_true, decide_eq_true_eq] at hstates
  obtain ⟨s, hs, ⟨earlier, hearlier, hrevoked⟩, t, ht, later, hlater, hpending⟩ := hstates
  obtain ⟨kept, hkept, hkeeps⟩ :=
    hrelated (calls.take 3) (calls.drop 3) [] s t rfl hs ht revokedId earlier hearlier
  rw [hlater] at hkept
  cases hkept
  have hstate := hkeeps.terminal (Or.inl hrevoked)
  rw [hrevoked, hpending] at hstate
  cases hstate

end Reissue

/-! ## The stored boundaries and their audit log -/

/-- The events lead from one state to another along the allowlist. -/
def AuditPath : TrustBoundaryState → List TrustBoundaryAuditEvent → TrustBoundaryState → Prop
  | start, [], current => start = current
  | start, event :: events, current =>
      event.transitionBefore = start ∧
        LegalMove event.transitionBefore event.type event.transitionAfter ∧
        AuditPath event.transitionAfter events current

theorem AuditPath.append {start current : TrustBoundaryState}
    {events : List TrustBoundaryAuditEvent} {event : TrustBoundaryAuditEvent}
    (h : AuditPath start events current) (hbefore : event.transitionBefore = current)
    (hmove : LegalMove event.transitionBefore event.type event.transitionAfter) :
    AuditPath start (events ++ [event]) event.transitionAfter := by
  induction events generalizing start with
  | nil => exact ⟨hbefore.trans h.symm, hmove, rfl⟩
  | cons first events ih => exact ⟨h.1, h.2.1, ih h.2.2⟩

def InMemoryTrustBoundaryStorage.eventsOf (storage : InMemoryTrustBoundaryStorage)
    (id : String) : List TrustBoundaryAuditEvent :=
  storage.auditEvents.filter fun event => event.boundaryId = id

/-- What holds of a boundary stored under an identifier. -/
structure StoredInv (M : LifecycleManager) (s : BoundaryHistory) (id : String)
    (boundary : TrustBoundary) : Prop where
  invariant : assertInvariant M boundary = .ok ()
  lease : ∃ ms, Calendar.toISOString ms = some boundary.lifecycleWindow.notAfter ∧
    ms ≤ s.grantedAt id + M.maxLifecycleWindowMs
  path : AuditPath .pending (s.storage.eventsOf id) boundary.state

structure StoreInv (M : LifecycleManager) (s : BoundaryHistory) : Prop where
  stored : ∀ id boundary, s.storage.load id = some boundary → StoredInv M s id boundary
  unknown : ∀ id, s.storage.load id = none → s.storage.eventsOf id = []

/-- Creations have fresh identifiers. -/
def FreshCreation (s : BoundaryHistory) : BoundaryCall → Prop
  | .create request _ _ => s.storage.load request.id = none
  | .transition _ _ => True

instance (s : BoundaryHistory) (call : BoundaryCall) : Decidable (FreshCreation s call) := by
  cases call <;> (unfold FreshCreation; infer_instance)

/-- The clock gives a valid date for the audit event. -/
def AuditDated : BoundaryCall → Prop
  | .create _ _ _ => True
  | .transition _ answers => (Calendar.toISOString answers.auditMs).isSome = true

instance (call : BoundaryCall) : Decidable (AuditDated call) := by
  cases call <;> (unfold AuditDated; infer_instance)

section Store

variable {M : LifecycleManager}

/-- A boundary that a call does not touch is as it was. -/
theorem StoredInv.frame {s s' : BoundaryHistory} {id : String} {boundary : TrustBoundary}
    (h : StoredInv M s id boundary) (hgranted : s'.grantedAt id = s.grantedAt id)
    (hevents : s'.storage.eventsOf id = s.storage.eventsOf id) : StoredInv M s' id boundary :=
  ⟨h.invariant, hgranted ▸ h.lease, hevents ▸ h.path⟩

theorem eventsOf_appendAuditEvent (storage : InMemoryTrustBoundaryStorage)
    (event : TrustBoundaryAuditEvent) (id : String) :
    (storage.appendAuditEvent event).eventsOf id =
      if event.boundaryId = id then storage.eventsOf id ++ [event] else storage.eventsOf id := by
  simp only [InMemoryTrustBoundaryStorage.eventsOf, InMemoryTrustBoundaryStorage.appendAuditEvent,
    List.filter_append, List.filter_cons, List.filter_nil, decide_eq_true_eq]
  split
  next => rfl
  next => exact List.append_nil _

theorem regrant_create (request : CreateRequest) (nowMs notBeforeMs : Int)
    (saved : TrustBoundary) (grantedAt : String → Int) (id : String) :
    (BoundaryCall.create request nowMs notBeforeMs).regrant (some saved) grantedAt id =
      if request.id = id then nowMs else grantedAt id := rfl

theorem regrant_transition (request : TransitionRequest) (answers : TransitionAnswers)
    (saved : TrustBoundary) (grantedAt : String → Int) (id : String) :
    (BoundaryCall.transition request answers).regrant (some saved) grantedAt id =
      if request.event = .onLeaseExtended ∧ request.id = id then answers.nowMs
      else grantedAt id := by
  simp only [BoundaryCall.regrant, BoundaryCall.grant]
  by_cases hlease : request.event = .onLeaseExtended <;> simp [hlease]

theorem regrant_none (call : BoundaryCall) (grantedAt : String → Int) :
    call.regrant none grantedAt = grantedAt := by
  funext id
  unfold BoundaryCall.regrant
  cases call.grant <;> rfl

/-- The boundary that a creation saves is the first of its identifier. -/
theorem StoreInv.create {s : BoundaryHistory} (hinv : StoreInv M s) {request : CreateRequest}
    {nowMs notBeforeMs : Int} {boundary : TrustBoundary}
    (hnew : newBoundary M request nowMs notBeforeMs = .ok boundary)
    (hfresh : s.storage.load request.id = none) :
    StoreInv M ⟨s.storage.save boundary,
      (BoundaryCall.create request nowMs notBeforeMs).regrant (some boundary) s.grantedAt⟩ := by
  obtain ⟨hid, -, -, -, hpending, hinvariant, hlease⟩ := newBoundary_eq_ok hnew
  refine ⟨?_, ?_⟩
  · intro id stored hstored
    rw [InMemoryTrustBoundaryStorage.load_save, hid] at hstored
    split at hstored
    next hsame =>
      cases hstored
      refine ⟨hinvariant, ?_, ?_⟩
      · dsimp only
        rw [regrant_create, if_pos hsame]
        exact hlease
      · have hevents : s.storage.eventsOf id = [] := hinv.unknown id (hsame ▸ hfresh)
        change AuditPath .pending (s.storage.eventsOf id) boundary.state
        rw [hevents, hpending]
        rfl
    next hother =>
      refine (hinv.stored id stored hstored).frame ?_ rfl
      dsimp only
      rw [regrant_create, if_neg hother]
  · intro id hload
    rw [InMemoryTrustBoundaryStorage.load_save] at hload
    split at hload
    next => cases hload
    next => exact hinv.unknown id hload

/-- A transition that is saved and recorded extends the path of its boundary. -/
theorem StoreInv.move {s : BoundaryHistory} (hinv : StoreInv M s) {request : TransitionRequest}
    {answers : TransitionAnswers} {boundary next : TrustBoundary} {timestamp : String}
    (hload : s.storage.load request.id = some boundary)
    (hmakes : Makes M request answers.nowMs boundary next) :
    StoreInv M ⟨(s.storage.save next).appendAuditEvent
        (auditEvent request boundary next timestamp),
      (BoundaryCall.transition request answers).regrant (some next) s.grantedAt⟩ := by
  have hboundary : boundary.id = request.id := s.storage.keyed request.id boundary hload
  have hbefore := hinv.stored request.id boundary hload
  have hevents : ∀ id, ((s.storage.save next).appendAuditEvent
      (auditEvent request boundary next timestamp)).eventsOf id =
        if request.id = id then
          s.storage.eventsOf id ++ [auditEvent request boundary next timestamp]
        else s.storage.eventsOf id := by
    intro id
    rw [← hboundary]
    exact eventsOf_appendAuditEvent _ _ id
  refine ⟨?_, ?_⟩
  · intro id stored hstored
    rw [InMemoryTrustBoundaryStorage.load_appendAuditEvent,
      InMemoryTrustBoundaryStorage.load_save, hmakes.id, hboundary] at hstored
    split at hstored
    next hsame =>
      cases hstored
      subst hsame
      refine ⟨hmakes.invariant, ?_, ?_⟩
      · dsimp only
        rw [regrant_transition]
        obtain ⟨hlease, hwindow⟩ | ⟨hlease, hwindow⟩ := hmakes.window
        · rw [if_pos ⟨hlease, rfl⟩]
          exact hwindow
        · rw [if_neg (fun h => hlease h.1), hwindow]
          exact hbefore.lease
      · rw [hevents, if_pos rfl]
        exact hbefore.path.append rfl hmakes.move
    next hother =>
      refine (hinv.stored id stored hstored).frame ?_ ?_
      · dsimp only
        rw [regrant_transition, if_neg (fun h => hother h.2)]
      · rw [hevents, if_neg hother]
  · intro id hnone
    rw [InMemoryTrustBoundaryStorage.load_appendAuditEvent,
      InMemoryTrustBoundaryStorage.load_save, hmakes.id, hboundary] at hnone
    split at hnone
    next => cases hnone
    next hother =>
      rw [hevents, if_neg hother]
      exact hinv.unknown id hnone

theorem step_storeInv {s s' : BoundaryHistory} {call : BoundaryCall} (hinv : StoreInv M s)
    (hfresh : FreshCreation s call) (hdated : AuditDated call)
    (hstep : s.step M call = some s') : StoreInv M s' := by
  cases hstep
  have houtcome := callOutcome (M := M) s.storage call
  generalize call.saved M s.storage = saved at houtcome
  generalize call.perform M s.storage = outcome at houtcome
  cases houtcome with
  | failed =>
      rw [regrant_none]
      exact hinv
  | created hnew => exact hinv.create hnew hfresh
  | moved hload hmakes => exact hinv.move hload hmakes
  | torn hload hmakes haudit => simp [AuditDated, haudit] at hdated

theorem failed_unchanged {s : BoundaryHistory} {call : BoundaryCall} {failure : TbFailure}
    (hdated : AuditDated call) (hfailed : (call.perform M s.storage).1 = .error failure) :
    (call.perform M s.storage).2 = s.storage := by
  have houtcome := callOutcome (M := M) s.storage call
  generalize call.saved M s.storage = saved at houtcome
  generalize call.perform M s.storage = outcome at houtcome hfailed
  cases houtcome with
  | failed => rfl
  | created _ => cases hfailed
  | moved _ _ => cases hfailed
  | torn _ _ haudit => simp [AuditDated, haudit] at hdated

/-- In every run with fresh identifiers and dated audit events, the stored boundaries keep
their invariant, their leases and the path of their audit log, and a call that fails
changes nothing. -/
theorem store_keeps_invariant {s : BoundaryHistory} {calls : List BoundaryCall}
    (hfresh : Along (BoundaryHistory.step M) FreshCreation .initial calls)
    (hdated : Along (BoundaryHistory.step M) (fun _ => AuditDated) .initial calls)
    (hrun : run (BoundaryHistory.step M) .initial calls = some s) :
    StoreInv M s ∧ ∀ call failure, AuditDated call →
      (call.perform M s.storage).1 = .error failure →
        (call.perform M s.storage).2 = s.storage := by
  have hinitial : StoreInv M .initial := by
    refine ⟨?_, fun id _ => rfl⟩
    intro id boundary hload
    cases hload
  refine ⟨?_, fun call failure => failed_unchanged⟩
  exact run_invariant (StoreInv M) (fun _ _ _ hinv hgood hstep =>
    step_storeInv hinv hgood.1 hgood.2 hstep) hinitial (hfresh.and hdated) hrun

end Store

namespace Reissue

/-- A boundary that is created, established and revoked has a path of two events. -/
theorem revoked_path : ∃ s, run (BoundaryHistory.step Lease.manager) .initial (calls.take 3) =
    some s ∧ (s.storage.eventsOf revokedId).length = 2 ∧ StoreInv Lease.manager s := by
  have hfresh : Along (BoundaryHistory.step Lease.manager) FreshCreation .initial
      (calls.take 3) := by
    decide +kernel
  have hdated : Along (BoundaryHistory.step Lease.manager) (fun _ => AuditDated) .initial
      (calls.take 3) := by
    decide +kernel
  have hrun : (run (BoundaryHistory.step Lease.manager) .initial (calls.take 3)).any (fun s =>
      (s.storage.eventsOf revokedId).length = 2) = true := by
    decide +kernel
  obtain ⟨s, hs, hevents⟩ := (Option.any_eq_true _ _).mp hrun
  exact ⟨s, hs, of_decide_eq_true hevents, (store_keeps_invariant hfresh hdated hs).1⟩

/-- The clock is not valid any more when the audit event of the establishment is dated. -/
def undated : TransitionAnswers :=
  ⟨Lease.noon, .accepted, Lease.extensionProofId, Lease.noon, 8640000000000001⟩

def undatedCalls : List BoundaryCall := calls.take 1 ++ [.transition establishment undated]

/-- The call throws when the boundary is active already, and no event leads there. -/
theorem established_unrecorded :
    Along (BoundaryHistory.step Lease.manager) FreshCreation .initial undatedCalls ∧
      ∃ s s', run (BoundaryHistory.step Lease.manager) .initial (calls.take 1) = some s ∧
        run (BoundaryHistory.step Lease.manager) .initial undatedCalls = some s' ∧
        (BoundaryCall.transition establishment undated).perform Lease.manager s.storage =
          (.error .rangeError, s'.storage) ∧
        s'.storage.load revokedId ≠ s.storage.load revokedId ∧ ¬ StoreInv Lease.manager s' := by
  refine ⟨by decide +kernel, ?_⟩
  have hstates : (run (BoundaryHistory.step Lease.manager) .initial (calls.take 1)).any (fun s =>
      let outcome := (BoundaryCall.transition establishment undated).perform Lease.manager
        s.storage
      outcome.1 = .error .rangeError ∧ outcome.2.auditEvents = [] ∧
        (s.storage.load revokedId).map TrustBoundary.state = some .pending ∧
        (outcome.2.load revokedId).map TrustBoundary.state = some .active) = true := by
    decide +kernel
  simp only [Option.any_eq_true, decide_eq_true_eq] at hstates
  obtain ⟨s, hs, hthrown, hevents, hbefore, hafter⟩ := hstates
  refine ⟨s, _, hs, run_append.mpr ⟨s, hs, rfl⟩, Prod.ext hthrown rfl, ?_, ?_⟩
  · intro hsame
    exact absurd (hbefore.symm.trans ((congrArg _ hsame).symm.trans hafter)) (by decide)
  · intro hinv
    obtain ⟨boundary, hload, hactive⟩ := Option.map_eq_some_iff.mp hafter
    have hpath := (hinv.stored revokedId boundary hload).path
    simp only [InMemoryTrustBoundaryStorage.eventsOf, hevents, List.filter_nil, hactive] at hpath
    cases hpath

end Reissue

end Coivitas.Communication
