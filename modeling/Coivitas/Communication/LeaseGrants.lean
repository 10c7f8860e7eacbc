import Coivitas.Communication.BoundaryLifecycle

/-! # Leases at the moment of a grant

Three transitions lead to `active`. Resumption compares the end of the lease
with the clock; establishment and lease extension do not, so a boundary whose
window has ended can still be established, and an ended lease extended.
-/

namespace Coivitas.Communication

open Foundation Crypto

variable (M : LifecycleManager)

/-- The text is read as an instant after the clock. -/
def EndsAfter (clock : Int) (notAfter : String) : Prop :=
  ∃ ms ∈ M.dateParse notAfter, clock < ms

instance (clock : Int) (notAfter : String) : Decidable (EndsAfter M clock notAfter) :=
  inferInstanceAs (Decidable (∃ ms ∈ M.dateParse notAfter, clock < ms))

/-- The clock value of a call: the one its guard reads, or for an establishment, which has no
such guard, the one it writes as the time of entry. -/
def clockValue (request : TransitionRequest) (answers : TransitionAnswers) : Int :=
  if request.event = .onTrustEstablished then answers.enteredMs else answers.nowMs

/-- A call that returns an active boundary found an unended window and leaves one. -/
def GrantsLive (s : BoundaryHistory) : BoundaryCall → Prop
  | .create _ _ _ => True
  | .transition request answers => ∀ boundary next, s.storage.load request.id = some boundary →
      (transitionState M s.storage request answers).1 = .ok next → next.state = .active →
        EndsAfter M (clockValue request answers) boundary.lifecycleWindow.notAfter ∧
          EndsAfter M (clockValue request answers) next.lifecycleWindow.notAfter

/-- The establishment of a pending boundary and the extension of an active one are made before
the stored window ends, where the verifier accepts them. Under a negative minimum window, which
disarms the guards, resumptions are too, and a new end is asked for after the clock. -/
@[mk_iff beforeEnd_iff]
structure BeforeEnd (request : TransitionRequest) (answers : TransitionAnswers)
    (boundary : TrustBoundary) : Prop where
  established : request.event = .onTrustEstablished → boundary.state = .pending →
    answers.verdict = .accepted → EndsAfter M answers.enteredMs boundary.lifecycleWindow.notAfter
  extended : request.event = .onLeaseExtended → boundary.state = .active →
    answers.verdict = .accepted → EndsAfter M answers.nowMs boundary.lifecycleWindow.notAfter
  resumed : M.minWindowMs < 0 → request.event = .onResumed →
    EndsAfter M answers.nowMs boundary.lifecycleWindow.notAfter
  requested : M.minWindowMs < 0 → request.event = .onLeaseExtended →
    ∀ requested ∈ request.requestedNotAfter, ∀ ms ∈ M.dateParse requested,
      answers.nowMs < min ms (answers.nowMs + M.maxLifecycleWindowMs)

instance (request : TransitionRequest) (answers : TransitionAnswers) (boundary : TrustBoundary) :
    Decidable (BeforeEnd M request answers boundary) :=
  decidable_of_iff _ (beforeEnd_iff M request answers boundary).symm

def MadeInTime (s : BoundaryHistory) : BoundaryCall → Prop
  | .create _ _ _ => True
  | .transition request answers => ∀ boundary ∈ s.storage.load request.id,
      BeforeEnd M request answers boundary

instance (s : BoundaryHistory) : DecidablePred (MadeInTime M s)
  | .create _ _ _ => instDecidableTrue
  | .transition request answers => inferInstanceAs (Decidable
      (∀ boundary ∈ s.storage.load request.id, BeforeEnd M request answers boundary))

section Grants

variable {M} {s : BoundaryHistory} {request : TransitionRequest} {answers : TransitionAnswers}
  {boundary next : TrustBoundary}

theorem transitionState_eq_ok (hload : s.storage.load request.id = some boundary)
    (hok : (transitionState M s.storage request answers).1 = .ok next) :
    ∃ transition, makeTransition M request answers boundary = .ok (transition, next) := by
  unfold transitionState at hok
  rw [hload] at hok
  split at hok
  next hnone => cases hnone
  next found hfound =>
    obtain rfl := Option.some.inj hfound
    split at hok
    next => cases hok
    next transition made hmake =>
      split at hok
      next => cases hok
      next =>
        obtain rfl := Except.ok.inj hok
        exact ⟨transition, hmake⟩

theorem isoToMs_eq_ok {text : String} {ms : Int} (h : isoToMs M text = .ok ms) :
    M.dateParse text = some ms := by
  unfold isoToMs at h
  split at h
  next => cases h
  next parsed hparsed => exact hparsed.trans (congrArg some (Except.ok.inj h))

/-- The transition that leads to `active`, by its event. -/
theorem legalTransitions_active : ∀ legal ∈ legalTransitions,
    legal.toState = .lifecycle .active →
      legal.event = .onTrustEstablished ∧ legal.id = .t1 ∧ legal.fromState = .pending ∨
      legal.event = .onLeaseExtended ∧ legal.id = .t2 ∧ legal.fromState = .active ∨
      legal.event = .onResumed ∧ legal.id = .t4 := by
  decide

/-- The row of the allowlist that a transition follows, its guards and its verdict. -/
theorem makeTransition_legal {transition : Transition}
    (hmake : makeTransition M request answers boundary = .ok (transition, next)) :
    ∃ legal ∈ legalTransitions, legal.fromState = boundary.state ∧
      legal.event = request.event ∧ legal.toState = .lifecycle next.state ∧
      dispatch M legal.id request answers.nowMs boundary = .ok next.lifecycleWindow ∧
      (legal.id.NeedsProof → answers.verdict = .accepted) := by
  simp only [makeTransition, checkTransition, bind_eq_ok, exists_unit, require_eq_ok, pure_eq_ok,
    Prod.mk.injEq] at hmake
  obtain ⟨_, ⟨toState, -, legal, hrequired, -, -, window, hdispatch, rfl⟩, hverdict, _, hnext, -,
    rfl⟩ := hmake
  simp only [nextBoundary, bind_eq_ok, exists_unit, pure_eq_ok] at hnext
  obtain ⟨_, -, _, -, -, rfl⟩ := hnext
  obtain ⟨hmem, hfrom, hevent, hto⟩ := findLegalTransition_mem (required_eq_ok.mp hrequired)
  refine ⟨legal, hmem, hfrom, hevent, hto, hdispatch, fun hproof => ?_⟩
  unfold checkVerdict at hverdict
  rw [if_pos hproof] at hverdict
  split at hverdict
  next haccepted => exact haccepted
  next => cases hverdict
  next => cases hverdict

variable (M request answers boundary next) in
/-- What a call that returns an active boundary has found and made. -/
inductive Grant : Prop
  | established (hevent : request.event = .onTrustEstablished) (hstate : boundary.state = .pending)
      (hverdict : answers.verdict = .accepted)
      (hwindow : next.lifecycleWindow = boundary.lifecycleWindow)
  | extended {requested : String} {ms : Int} (hevent : request.event = .onLeaseExtended)
      (hstate : boundary.state = .active) (hverdict : answers.verdict = .accepted)
      (hrequested : request.requestedNotAfter = some requested)
      (hms : M.dateParse requested = some ms)
      (hguard : answers.nowMs + M.minWindowMs < min ms (answers.nowMs + M.maxLifecycleWindowMs))
      (hend : Calendar.toISOString (min ms (answers.nowMs + M.maxLifecycleWindowMs)) =
        some next.lifecycleWindow.notAfter)
  | resumed {ms : Int} (hevent : request.event = .onResumed)
      (hms : M.dateParse boundary.lifecycleWindow.notAfter = some ms)
      (hguard : answers.nowMs + M.minWindowMs < ms)
      (hwindow : next.lifecycleWindow = boundary.lifecycleWindow)

/-- The guards of `T1`, `T2` and `T4` and the windows that they leave. -/
theorem grant_of_ok {transition : Transition}
    (hmake : makeTransition M request answers boundary = .ok (transition, next))
    (hactive : next.state = .active) : Grant M request answers boundary next := by
  obtain ⟨legal, hmem, hfrom, hevent, hto, hdispatch, hverdict⟩ := makeTransition_legal hmake
  rw [hactive] at hto
  obtain ⟨hactivates, hid, hpending⟩ | ⟨hactivates, hid, hstate⟩ | ⟨hactivates, hid⟩ :=
    legalTransitions_active legal hmem hto <;> rw [hid] at hdispatch hverdict
  · simp only [dispatch, bind_eq_ok, exists_unit, pure_eq_ok] at hdispatch
    exact .established (hevent.symm.trans hactivates) (hfrom.symm.trans hpending)
      (hverdict (.inl rfl)) hdispatch.2.symm
  · simp only [dispatch, checkLeaseExtension, bind_eq_ok, exists_unit, require_eq_ok,
      required_eq_ok, pure_eq_ok] at hdispatch
    obtain ⟨_, ⟨_, -, _, -, requested, hrequested, ms, hms, hguard, newNotAfter, hnew, -, -, rfl⟩,
      hwindow⟩ := hdispatch
    refine .extended (hevent.symm.trans hactivates) (hfrom.symm.trans hstate)
      (hverdict (.inr rfl)) (Option.filter_eq_some_iff.mp hrequested).1 (isoToMs_eq_ok hms) hguard
      ?_
    rw [← hwindow]
    exact isoText_eq_ok hnew
  · simp only [dispatch, checkResumption, bind_eq_ok, exists_unit, require_eq_ok,
      pure_eq_ok] at hdispatch
    obtain ⟨⟨ms, hms, hguard⟩, hwindow⟩ := hdispatch
    exact .resumed (hevent.symm.trans hactivates) (isoToMs_eq_ok hms) hguard hwindow.symm

theorem grant_spec (hload : s.storage.load request.id = some boundary)
    (hok : (transitionState M s.storage request answers).1 = .ok next)
    (hactive : next.state = .active) :
    Grant M request answers boundary next ∧
      ∃ ms, M.dateParse next.lifecycleWindow.notAfter = some ms := by
  obtain ⟨transition, hmake⟩ := transitionState_eq_ok hload hok
  have hinvariant := (makeTransition_eq_ok hmake).invariant
  simp only [assertInvariant, bind_eq_ok, exists_unit, require_eq_ok] at hinvariant
  obtain ⟨-, -, -, _, -, ms, hms, -⟩ := hinvariant
  exact ⟨grant_of_ok hmake hactive, ms, isoToMs_eq_ok hms⟩

theorem clockValue_of_ne (hevent : request.event ≠ .onTrustEstablished) :
    clockValue request answers = answers.nowMs := if_neg hevent

/-- A call made in time grants a live lease, if it grants one: resumptions and new ends by the
guards of the code. -/
theorem MadeInTime.grantsLive {call : BoundaryCall}
    (hparse : ∀ ms text ms', Calendar.toISOString ms = some text → M.dateParse text = some ms' →
      ms' = ms)
    (htime : MadeInTime M s call) : GrantsLive M s call := by
  cases call with
  | create request nowMs notBeforeMs => trivial
  | transition request answers =>
      intro boundary next hload hok hactive
      obtain ⟨hgrant, ms', hms'⟩ := grant_spec hload hok hactive
      have hbefore := htime boundary hload
      cases hgrant with
      | established hevent hstate hverdict hwindow =>
          rw [hwindow, clockValue, if_pos hevent]
          exact ⟨hbefore.established hevent hstate hverdict,
            hbefore.established hevent hstate hverdict⟩
      | @extended requested ms hevent hstate hverdict hrequested hms hguard hend =>
          rw [clockValue_of_ne (by simp [hevent])]
          obtain rfl := hparse _ _ _ hend hms'
          refine ⟨hbefore.extended hevent hstate hverdict, _, hms', ?_⟩
          by_cases hmin : M.minWindowMs < 0
          · exact hbefore.requested hmin hevent requested hrequested ms hms
          · omega
      | @resumed ms hevent hms hguard hwindow =>
          rw [hwindow, clockValue_of_ne (by simp [hevent])]
          suffices hlive : EndsAfter M answers.nowMs boundary.lifecycleWindow.notAfter from
            ⟨hlive, hlive⟩
          by_cases hmin : M.minWindowMs < 0
          · exact hbefore.resumed hmin hevent
          · exact ⟨ms, hms, by omega⟩

/-- A call that grants a live lease was made in time. -/
theorem GrantsLive.madeInTime
    (hparse : ∀ ms text ms', Calendar.toISOString ms = some text → M.dateParse text = some ms' →
      ms' = ms)
    (hload : s.storage.load request.id = some boundary)
    (hok : (transitionState M s.storage request answers).1 = .ok next)
    (hactive : next.state = .active) (hlive : GrantsLive M s (.transition request answers)) :
    MadeInTime M s (.transition request answers) := by
  obtain ⟨hstored, ms', hms', hlater⟩ := hlive boundary next hload hok hactive
  obtain ⟨hgrant, -⟩ := grant_spec hload hok hactive
  intro found hfound
  obtain rfl := Option.some.inj (hload.symm.trans hfound)
  cases hgrant with
  | established hevent _ _ _ =>
      rw [clockValue, if_pos hevent] at hstored
      exact ⟨fun _ _ _ => hstored, by simp [hevent], by simp [hevent], by simp [hevent]⟩
  | @extended requested ms hevent _ _ hrequested hms _ hend =>
      rw [clockValue_of_ne (by simp [hevent])] at hstored hlater
      obtain rfl := hparse _ _ _ hend hms'
      refine ⟨by simp [hevent], fun _ _ _ => hstored, by simp [hevent], ?_⟩
      intro _ _ requested' hrequested' ms₂ hms₂
      obtain rfl := Option.some.inj (hrequested.symm.trans hrequested')
      obtain rfl := Option.some.inj (hms.symm.trans hms₂)
      exact hlater
  | resumed hevent _ _ _ =>
      rw [clockValue_of_ne (by simp [hevent])] at hstored
      exact ⟨by simp [hevent], by simp [hevent], fun _ _ => hstored, by simp [hevent]⟩

end Grants

namespace Reissue

/-- The window that is asked for at the creation ends. -/
def windowEnd : Int := 1785542400000

/-- The boundary is created, and established an hour after its window has ended. -/
def lateCalls : List BoundaryCall :=
  calls.take 1 ++
    [.transition establishment (answers (windowEnd + 3600000) Lease.extensionProofId)]

/-- `Date.parse` on the texts that `toISOString` writes. -/
def readBack : LifecycleManager :=
  { Lease.manager with
    dateParse := fun text =>
      (Calendar.getTime text).filter fun ms => Calendar.toISOString ms = some text }

theorem readBack_parse (ms : Int) (text : String) (ms' : Int)
    (hwrite : Calendar.toISOString ms = some text)
    (hread : readBack.dateParse text = some ms') : ms' = ms := by
  obtain ⟨-, hwrite'⟩ := Option.filter_eq_some_iff.mp hread
  exact Calendar.toISOString_injective (of_decide_eq_true hwrite') hwrite

def suspension : TransitionRequest :=
  { Lease.revocation with
    id := revokedId
    event := .onSuspended }

def resumption : TransitionRequest := { suspension with event := .onResumed }

/-- A boundary that is established before its window ends, suspended, and not resumed an hour
after the end. -/
def promptCalls : List BoundaryCall :=
  calls.take 2 ++
    [.transition suspension (answers (Lease.noon + 1000) Lease.revocationProofId),
      .transition resumption (answers (windowEnd + 3600000) Lease.extensionProofId)]

end Reissue

end Coivitas.Communication
