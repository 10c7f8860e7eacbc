import Coivitas.Foundation.Run
import Coivitas.Communication.TrustBoundary

/-! # Terminal states under concurrency

Any number of `transitionState` calls over one storage, interleaved at their
awaits. A call saves what it made of the boundary it loaded and does not look
at the storage again, so a call that overlaps with a revocation can undo it.
Where no call holds the boundary while another saves it as revoked or expired,
these states are final.
-/

namespace Coivitas.Communication

open Foundation

/-! ## Calls -/

/-- Where a call stands: it awaits the boundary it asked for, the verifier, or the
save it has made; or it has returned or thrown. -/
inductive TransitionCall where
  | loading (request : TransitionRequest) (boundary : Option TrustBoundary)
  | verifying (request : TransitionRequest) (boundary : TrustBoundary) (transition : Transition)
  | saving (request : TransitionRequest) (boundary next : TrustBoundary)
  | settled (result : Except TbFailure TrustBoundary)

/-- The boundary that a call has loaded and not saved yet. -/
def TransitionCall.held : TransitionCall → Option TrustBoundary
  | loading _ boundary => boundary
  | verifying _ boundary _ => some boundary
  | saving _ _ _ => none
  | settled _ => none

inductive Verdict where
  | accepted
  | rejected (code : TbErrorCode) (message : String)
  | threw
  deriving DecidableEq, Repr

/-- The storage, the calls, and every boundary that was saved, in order. -/
structure LifecycleSystem where
  storage : InMemoryTrustBoundaryStorage
  calls : OrderedMap Nat TransitionCall
  saves : List TrustBoundary

/-- A call begins, or goes on after an await. The clock and the fresh identifier are read
when the code reads them. -/
inductive LifecycleStep where
  | transitionState (call : Nat) (request : TransitionRequest)
  | loaded (call : Nat) (nowMs enteredMs : Int) (uuid : String)
  | verified (call : Nat) (verdict : Verdict) (enteredMs : Int) (uuid : String)
  | saved (call : Nat) (auditMs : Int)

namespace LifecycleSystem

def start (storage : InMemoryTrustBoundaryStorage) : LifecycleSystem :=
  ⟨storage, OrderedMap.empty, []⟩

def setCall (s : LifecycleSystem) (i : Nat) (call : TransitionCall) : LifecycleSystem :=
  { s with calls := s.calls.set i call }

def save (s : LifecycleSystem) (next : TrustBoundary) : LifecycleSystem :=
  { s with storage := s.storage.save next, saves := s.saves ++ [next] }

variable (M : LifecycleManager)

/-- From the transition to the call of `save`. -/
def saveNext (s : LifecycleSystem) (i : Nat) (request : TransitionRequest)
    (boundary : TrustBoundary) (transition : Transition) (enteredMs : Int) (uuid : String) :
    LifecycleSystem :=
  match nextBoundary M transition enteredMs uuid boundary with
  | .error failure => s.setCall i (.settled (.error failure))
  | .ok next => (s.save next).setCall i (.saving request boundary next)

/-- After the boundary was loaded. -/
def afterLoad (s : LifecycleSystem) (i : Nat) (request : TransitionRequest)
    (found : Option TrustBoundary) (nowMs enteredMs : Int) (uuid : String) : LifecycleSystem :=
  match found with
  | none => s.setCall i (.settled (.error (.protocol .boundaryNotFound
      ("boundary " ++ request.id ++ " does not exist") none)))
  | some boundary =>
      match checkTransition M request nowMs boundary with
      | .error failure => s.setCall i (.settled (.error failure))
      | .ok transition =>
          if transition.id.NeedsProof then s.setCall i (.verifying request boundary transition)
          else s.saveNext M i request boundary transition enteredMs uuid

/-- After the verifier has answered. -/
def afterVerdict (s : LifecycleSystem) (i : Nat) (request : TransitionRequest)
    (boundary : TrustBoundary) (transition : Transition) (verdict : Verdict) (enteredMs : Int)
    (uuid : String) : LifecycleSystem :=
  match verdict with
  | .threw => s.setCall i (.settled (.error .verifierThrew))
  | .rejected code message => s.setCall i (.settled (.error (.protocol code message
      (some (if transition.id = .t1 then "I7 / I9" else "I7 / I8")))))
  | .accepted => s.saveNext M i request boundary transition enteredMs uuid

/-- After the boundary was saved: the audit event, and the call returns. -/
def afterSave (s : LifecycleSystem) (i : Nat) (request : TransitionRequest)
    (boundary next : TrustBoundary) (auditMs : Int) : LifecycleSystem :=
  match isoText auditMs with
  | .error failure => s.setCall i (.settled (.error failure))
  | .ok timestamp =>
      { s.setCall i (.settled (.ok next)) with
        storage := s.storage.appendAuditEvent ⟨request.event, boundary.id, boundary.state,
          next.state, request.transitionSource, request.actorDID, timestamp,
          next.bindingProofId⟩ }

def step (s : LifecycleSystem) : LifecycleStep → Option LifecycleSystem
  | .transitionState i request =>
      match s.calls.get? i with
      | none => some (s.setCall i (.loading request (s.storage.load request.id)))
      | some _ => none
  | .loaded i nowMs enteredMs uuid =>
      match s.calls.get? i with
      | some (.loading request found) =>
          some (s.afterLoad M i request found nowMs enteredMs uuid)
      | _ => none
  | .verified i verdict enteredMs uuid =>
      match s.calls.get? i with
      | some (.verifying request boundary transition) =>
          some (s.afterVerdict M i request boundary transition verdict enteredMs uuid)
      | _ => none
  | .saved i auditMs =>
      match s.calls.get? i with
      | some (.saving request boundary next) =>
          some (s.afterSave i request boundary next auditMs)
      | _ => none

end LifecycleSystem

/-! ## The property and its condition -/

/-- A boundary saved as revoked or expired is not saved in another state afterwards. -/
def Absorbing (saves : List TrustBoundary) : Prop :=
  saves.Pairwise fun earlier later =>
    earlier.state.Terminal → later.id = earlier.id → later.state = earlier.state

instance (saves : List TrustBoundary) : Decidable (Absorbing saves) := by
  unfold Absorbing
  infer_instance

/-- The events that end a lifecycle. -/
def LifecycleEvent.Ends (event : LifecycleEvent) : Prop := event = onRevoked ∨ event = onExpired

instance (event : LifecycleEvent) : Decidable event.Ends := by
  unfold LifecycleEvent.Ends
  infer_instance

/-- When a call goes on to revoke or expire its boundary, no other call is between its load
and its save of that boundary. -/
def Alone (s : LifecycleSystem) : LifecycleStep → Prop
  | .loaded i _ _ _ =>
      match s.calls.get? i with
      | some (.loading request _) => request.event.Ends →
          ∀ entry ∈ s.calls.entries, entry.1 ≠ i → ∀ boundary ∈ entry.2.held,
            boundary.id ≠ request.id
      | _ => True
  | _ => True

instance (s : LifecycleSystem) (event : LifecycleStep) : Decidable (Alone s event) := by
  cases event <;> unfold Alone <;> dsimp only <;> (try split) <;> infer_instance

/-! ## What a call saves -/

theorem findLegalTransition_mem {fromState : TrustBoundaryState} {event : LifecycleEvent}
    {toState : TargetState} {source : TransitionSource} {legal : LegalTransition}
    (hlegal : findLegalTransition fromState event toState source = some legal) :
    legal ∈ legalTransitions ∧ legal.fromState = fromState ∧ legal.event = event ∧
      legal.toState = toState := by
  have hcandidate : legal ∈ legalTransitions.filter fun t =>
      t.fromState = fromState ∧ t.event = event ∧ t.toState = toState := by
    unfold findLegalTransition at hlegal
    dsimp only at hlegal
    split at hlegal
    next => cases hlegal
    next candidate heq =>
      cases hlegal
      rw [heq]
      exact List.mem_singleton_self _
    next first rest _ heq =>
      have hgetD : ∀ p : LegalTransition → Bool,
          ((first :: rest).find? p).getD first ∈ first :: rest := by
        intro p
        cases hfind : (first :: rest).find? p with
        | none => exact List.mem_cons_self
        | some found => exact List.mem_of_find?_eq_some hfind
      rw [heq] at hlegal ⊢
      split at hlegal <;> (cases hlegal; exact hgetD _)
  simp only [List.mem_filter, decide_eq_true_eq] at hcandidate
  exact hcandidate

theorem legalTransitions_live : ∀ legal ∈ legalTransitions, ¬ legal.fromState.Terminal ∧
    (legal.id.NeedsProof → legal.toState = .lifecycle .active) := by
  decide

/-- No guard lets a call leave a terminal state, and what needs a proof ends in `active`. -/
theorem checkTransition_spec {M : LifecycleManager} {request : TransitionRequest} {nowMs : Int}
    {boundary : TrustBoundary} {transition : Transition}
    (hcheck : checkTransition M request nowMs boundary = .ok transition) :
    ¬ boundary.state.Terminal ∧ targetState request.event = .ok transition.toState ∧
      (transition.id.NeedsProof → transition.toState = .active) := by
  simp only [checkTransition, bind_eq_ok, exists_unit, require_eq_ok, required_eq_ok,
    pure_eq_ok] at hcheck
  obtain ⟨toState, htarget, legal, hfound, -, -, lifecycleWindow, -, rfl⟩ := hcheck
  obtain ⟨hmem, hfrom, -, hto⟩ := findLegalTransition_mem hfound
  obtain ⟨hlive, hproof⟩ := legalTransitions_live legal hmem
  refine ⟨hfrom ▸ hlive, htarget, fun hneeds => ?_⟩
  have hactive := hto.symm.trans (hproof hneeds)
  injection hactive

theorem targetState_terminal {event : LifecycleEvent} {state : TrustBoundaryState}
    (htarget : targetState event = .ok state) (hstate : state.Terminal) : event.Ends := by
  cases event <;> simp_all [targetState, TrustBoundaryState.Terminal, LifecycleEvent.Ends] <;>
    (subst htarget; simp at hstate)

theorem nextBoundary_spec {M : LifecycleManager} {transition : Transition} {enteredMs : Int}
    {uuid : String} {boundary next : TrustBoundary}
    (hnext : nextBoundary M transition enteredMs uuid boundary = .ok next) :
    next.id = boundary.id ∧ next.state = transition.toState := by
  simp only [nextBoundary, bind_eq_ok, exists_unit, pure_eq_ok] at hnext
  obtain ⟨_, _, _, _, _, rfl⟩ := hnext
  exact ⟨rfl, rfl⟩

/-! ## Runs -/

/-- What a call relies on: the boundary it holds is the one it asked for, and is live when it
asks the verifier. -/
def TransitionCall.WellFormed : TransitionCall → Prop
  | loading request found => ∀ boundary ∈ found, boundary.id = request.id
  | verifying _ boundary transition =>
      ¬ boundary.state.Terminal ∧ transition.toState = .active
  | saving _ _ _ => True
  | settled _ => True

/-- A boundary in the hands of a call, or in the storage, is in the terminal state that it was
saved in. -/
def FollowsSaves (saves : List TrustBoundary) (found : Option TrustBoundary) : Prop :=
  ∀ boundary ∈ found, ∀ saved ∈ saves, saved.id = boundary.id → saved.state.Terminal →
    boundary.state = saved.state

theorem followsSaves_none (saves : List TrustBoundary) : FollowsSaves saves none := by
  simp [FollowsSaves]

structure TerminalInv (s : LifecycleSystem) : Prop where
  absorbing : Absorbing s.saves
  stored : ∀ id, FollowsSaves s.saves (s.storage.load id)
  held : ∀ i, ∀ call ∈ s.calls.get? i, FollowsSaves s.saves call.held
  wellFormed : ∀ i, ∀ call ∈ s.calls.get? i, call.WellFormed

namespace TerminalInv

variable {s : LifecycleSystem} {i : Nat} {call : TransitionCall}

theorem setCall (hinv : TerminalInv s) (hheld : FollowsSaves s.saves call.held)
    (hcall : call.WellFormed) : TerminalInv (s.setCall i call) := by
  refine ⟨hinv.absorbing, hinv.stored, ?_, ?_⟩
  · intro j other hother
    simp only [LifecycleSystem.setCall, OrderedMap.get?_set, Option.mem_def] at hother
    split at hother
    next =>
      cases hother
      exact hheld
    next => exact hinv.held j other hother
  · intro j other hother
    simp only [LifecycleSystem.setCall, OrderedMap.get?_set, Option.mem_def] at hother
    split at hother
    next =>
      cases hother
      exact hcall
    next => exact hinv.wellFormed j other hother

/-- A boundary that a call holds in a live state was never saved in a terminal one. -/
theorem not_saved_terminal (hinv : TerminalInv s) {boundary : TrustBoundary}
    (hcall : s.calls.get? i = some call) (hheld : call.held = some boundary)
    (hlive : ¬ boundary.state.Terminal) :
    ∀ saved ∈ s.saves, saved.id = boundary.id → ¬ saved.state.Terminal := by
  intro saved hsaved hid hterminal
  have hstate := hinv.held i call hcall boundary hheld saved hsaved hid hterminal
  exact hlive (hstate ▸ hterminal)

/-- The save of a boundary that was never saved in a terminal state, and that no other call
holds if it ends now. -/
theorem save (hinv : TerminalInv s) {next : TrustBoundary}
    (hheld : call.held = none) (hcall : call.WellFormed)
    (hlive : ∀ saved ∈ s.saves, saved.id = next.id → ¬ saved.state.Terminal)
    (halone : next.state.Terminal → ∀ j other, j ≠ i → s.calls.get? j = some other →
      ∀ boundary ∈ other.held, boundary.id ≠ next.id) :
    TerminalInv ((s.save next).setCall i call) := by
  refine ⟨?_, ?_, ?_, (hinv.setCall (hheld ▸ followsSaves_none _) hcall).wellFormed⟩
  · refine List.pairwise_append.mpr ⟨hinv.absorbing, List.pairwise_singleton _ _, ?_⟩
    intro earlier hearlier later hlater hterminal hid
    cases List.mem_singleton.mp hlater
    exact absurd hterminal (hlive earlier hearlier hid.symm)
  · intro id boundary hload saved hsaved hid hterminal
    simp only [LifecycleSystem.setCall, LifecycleSystem.save,
      InMemoryTrustBoundaryStorage.load_save, Option.mem_def] at hload
    split at hload
    next hnext =>
      cases hload
      obtain hsaved | hsaved := List.mem_append.mp hsaved
      · exact absurd hterminal (hlive saved hsaved hid)
      · rw [List.mem_singleton.mp hsaved]
    next hnext =>
      obtain hsaved | hsaved := List.mem_append.mp hsaved
      · exact hinv.stored id boundary hload saved hsaved hid hterminal
      · rw [List.mem_singleton.mp hsaved] at hid
        exact absurd (hid.trans (s.storage.keyed id boundary hload)) hnext
  · intro j other hother boundary hboundary saved hsaved hid hterminal
    simp only [LifecycleSystem.setCall, LifecycleSystem.save, OrderedMap.get?_set,
      Option.mem_def] at hother
    split at hother
    next =>
      cases hother
      rw [hheld] at hboundary
      cases hboundary
    next hj =>
      obtain hsaved | hsaved := List.mem_append.mp hsaved
      · exact hinv.held j other hother boundary hboundary saved hsaved hid hterminal
      · rw [List.mem_singleton.mp hsaved] at hid hterminal
        exact absurd hid.symm (halone hterminal j other (Ne.symm hj) hother boundary hboundary)

theorem saveNext (hinv : TerminalInv s) {M : LifecycleManager} {request : TransitionRequest}
    {boundary : TrustBoundary} {transition : Transition} {enteredMs : Int} {uuid : String}
    (hcall : s.calls.get? i = some call) (hheld : call.held = some boundary)
    (hlive : ¬ boundary.state.Terminal)
    (halone : transition.toState.Terminal → ∀ j other, j ≠ i → s.calls.get? j = some other →
      ∀ found ∈ other.held, found.id ≠ boundary.id) :
    TerminalInv (s.saveNext M i request boundary transition enteredMs uuid) := by
  unfold LifecycleSystem.saveNext
  split
  next => exact hinv.setCall (followsSaves_none _) trivial
  next next hnext =>
    obtain ⟨hid, hstate⟩ := nextBoundary_spec hnext
    refine hinv.save rfl trivial ?_ ?_
    · rw [hid]
      exact hinv.not_saved_terminal hcall hheld hlive
    · rw [hid, hstate]
      exact halone

end TerminalInv

theorem step_terminalInv {M : LifecycleManager} {s s' : LifecycleSystem} {event : LifecycleStep}
    (hinv : TerminalInv s) (halone : Alone s event) (hstep : s.step M event = some s') :
    TerminalInv s' := by
  have hsettled : ∀ i result, TerminalInv (s.setCall i (.settled result)) :=
    fun i result => hinv.setCall (followsSaves_none _) trivial
  cases event with
  | transitionState i request =>
      simp only [LifecycleSystem.step] at hstep
      split at hstep
      next =>
        cases hstep
        exact hinv.setCall (hinv.stored request.id) (s.storage.keyed request.id)
      next => cases hstep
  | loaded i nowMs enteredMs uuid =>
      simp only [LifecycleSystem.step] at hstep
      split at hstep
      next request found hcall =>
        cases hstep
        simp only [Alone, hcall] at halone
        unfold LifecycleSystem.afterLoad
        split
        next => exact hsettled i _
        next boundary =>
          split
          next => exact hsettled i _
          next transition hcheck =>
            obtain ⟨hlive, htarget, hactive⟩ := checkTransition_spec hcheck
            split
            next hneeds =>
              have hheld : FollowsSaves s.saves (some boundary) := hinv.held i _ hcall
              exact hinv.setCall hheld ⟨hlive, hactive hneeds⟩
            next =>
              -- The condition speaks of the request's identifier, which is the boundary's.
              refine hinv.saveNext hcall rfl hlive ?_
              intro hterminal j other hj hother
              rw [hinv.wellFormed i _ hcall boundary rfl]
              exact halone (targetState_terminal htarget hterminal) (j, other)
                ((OrderedMap.mem_entries_iff _ _ _).mpr hother) hj
      next => cases hstep
  | verified i verdict enteredMs uuid =>
      simp only [LifecycleSystem.step] at hstep
      split at hstep
      next request boundary transition hcall =>
        cases hstep
        obtain ⟨hlive, hactive⟩ := hinv.wellFormed i _ hcall
        cases verdict with
        | threw => exact hsettled i _
        | rejected code message => exact hsettled i _
        | accepted =>
            refine hinv.saveNext hcall rfl hlive ?_
            intro hterminal
            rw [hactive] at hterminal
            exact absurd hterminal (by decide)
      next => cases hstep
  | saved i auditMs =>
      simp only [LifecycleSystem.step] at hstep
      split at hstep
      next request boundary next hcall =>
        cases hstep
        unfold LifecycleSystem.afterSave
        split
        next => exact hsettled i _
        next timestamp =>
          have hdone := hsettled i (.ok next)
          exact ⟨hdone.absorbing, hdone.stored, hdone.held, hdone.wellFormed⟩
      next => cases hstep

theorem start_terminalInv (storage : InMemoryTrustBoundaryStorage) :
    TerminalInv (LifecycleSystem.start storage) := by
  refine ⟨List.Pairwise.nil, ?_, ?_, ?_⟩ <;> simp [LifecycleSystem.start, FollowsSaves]

/-- Revoked and expired are final in every interleaving in which no call holds a boundary
while another one ends it. -/
theorem saves_absorbing_of_alone (M : LifecycleManager) (storage : InMemoryTrustBoundaryStorage)
    (events : List LifecycleStep) (s : LifecycleSystem)
    (halone : Along (LifecycleSystem.step M) Alone (LifecycleSystem.start storage) events)
    (hrun : run (LifecycleSystem.step M) (LifecycleSystem.start storage) events = some s) :
    Absorbing s.saves :=
  (run_invariant TerminalInv (fun _ _ _ hinv hgood hstep => step_terminalInv hinv hgood hstep)
    (start_terminalInv storage) halone hrun).absorbing

/-! ## A lease under revocation -/

namespace Lease

def manager : LifecycleManager :=
  ⟨Calendar.getTime, tbDefaultMaxLifecycleWindowMs, tbDefaultMinWindowMs⟩

def boundaryId : String := "0f8fad5b-d9cb-469f-a165-70867728950e"

def principal : String := "did:key:z6MkuFTkJCZWP6hzDRkwrBHV62CCSLvzPqaj5a66KsBjGA6Y"

def boundary : TrustBoundary where
  tbVersion := "1.0.0"
  id := boundaryId
  principalSide := principal
  boundedSide := "did:agent:bcb87e6537efe28620ec0d8ef6e8e7e50e39bfad"
  boundaryScope := ["read"]
  lifecycleWindow := ⟨"2026-06-01T00:00:00.000Z", "2026-07-01T00:00:00.000Z"⟩
  state := .active
  stateEnteredAt := "2026-06-01T00:00:00.000Z"
  bindingProofId := some "7c9e6679-7425-40de-944b-e07fc1f90ae7"
  boundedTokenId := none
  delegationChainHead := none
  emergencyAuthorizationId := none

def storage : InMemoryTrustBoundaryStorage := InMemoryTrustBoundaryStorage.empty.save boundary

def audience : String := "https://registry.example/trust-boundaries"

def extension : TransitionRequest where
  id := boundaryId
  event := .onLeaseExtended
  actorDID := principal
  transitionSource := .client
  bindingProof := none
  leaseExtensionProof := some ⟨"1.0.0", "lease", [], "n-41", audience, "2026-08-01T00:00:00.000Z",
    "c2ln", boundaryId⟩
  requestedNotAfter := some "2026-08-01T00:00:00.000Z"
  verifyContext := some ⟨audience, "n-41"⟩

def revocation : TransitionRequest where
  id := boundaryId
  event := .onRevoked
  actorDID := principal
  transitionSource := .client
  bindingProof := none
  leaseExtensionProof := none
  requestedNotAfter := none
  verifyContext := none

def noon : Int := 1781956800000

def extensionProofId : String := "9b2f3c1e-6a54-4d0b-8e7f-1c2d3e4f5a6b"

def revocationProofId : String := "5e0c6f3a-1b7d-4c29-9a84-0f2e6d8b7c51"

/-- The boundary is revoked while the lease extension awaits its verifier. -/
def overlapping : List LifecycleStep :=
  [.transitionState 0 extension, .loaded 0 noon noon extensionProofId,
    .transitionState 1 revocation, .loaded 1 noon noon revocationProofId, .saved 1 noon,
    .verified 0 .accepted (noon + 40) extensionProofId, .saved 0 (noon + 40)]

/-- A revocation is undone: the extension saves the boundary as active again. -/
theorem revocation_undone : ∃ s, run (LifecycleSystem.step manager)
    (LifecycleSystem.start storage) overlapping = some s ∧ ¬ Absorbing s.saves := by
  have hrun : (run (LifecycleSystem.step manager) (LifecycleSystem.start storage)
      overlapping).any (fun s => decide (¬ Absorbing s.saves)) = true := by
    decide +kernel
  obtain ⟨s, hs, habsorbing⟩ := (Option.any_eq_true _ _).mp hrun
  exact ⟨s, hs, of_decide_eq_true habsorbing⟩

/-- The same calls one after the other, and a third one that is refused. -/
def serial : List LifecycleStep :=
  [.transitionState 0 extension, .loaded 0 noon noon extensionProofId,
    .verified 0 .accepted (noon + 40) extensionProofId, .saved 0 (noon + 40),
    .transitionState 1 revocation, .loaded 1 noon (noon + 50) revocationProofId,
    .transitionState 2 extension, .saved 1 (noon + 50), .loaded 2 noon noon extensionProofId]

theorem revocation_final : ∃ s, run (LifecycleSystem.step manager)
    (LifecycleSystem.start storage) serial = some s ∧
      s.saves.map TrustBoundary.state = [.active, .revoked] ∧ Absorbing s.saves := by
  have halone : Along (LifecycleSystem.step manager) Alone (LifecycleSystem.start storage)
      serial := by
    decide +kernel
  have hrun : (run (LifecycleSystem.step manager) (LifecycleSystem.start storage)
      serial).any (fun s => s.saves.map TrustBoundary.state = [.active, .revoked]) = true := by
    decide +kernel
  obtain ⟨s, hs, hsaves⟩ := (Option.any_eq_true _ _).mp hrun
  exact ⟨s, hs, of_decide_eq_true hsaves,
    saves_absorbing_of_alone manager storage serial s halone hs⟩

end Lease

end Coivitas.Communication
