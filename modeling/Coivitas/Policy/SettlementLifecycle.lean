import Coivitas.Policy.NoDoubleSettlement

/-! # The life of one settlement key

A caller retries with the operation that it got back last, and the record of
the key moves from state to state. The count of attempts and the state travel
in the operation, so both laws depend on what the caller passes.
-/

namespace Coivitas.Policy.Settlement

open Foundation

deriving instance DecidableEq for SignedPayload, SettlementOperation

section Laws

variable {P : SettlementPorts} {expectedSettlerDid : String} {env : PortOutcomes}
  {operation : SettlementOperation} {s s' : SettlementStore}

/-! ## Attempts -/

/-- The caller of one key: the store, and the operation that its next call passes. -/
structure Client where
  store : SettlementStore
  operation : SettlementOperation

inductive ClientEvent where
  | retry (expectedSettlerDid : String) (env : PortOutcomes)
  /-- A call for another key. -/
  | other (call : Call)

/-- A call that returns replaces the operation; after one that throws it is passed again. -/
def clientStep (P : SettlementPorts) (client : Client) : ClientEvent → Option Client
  | .retry expectedSettlerDid env =>
      match executeSettlementRetry P expectedSettlerDid env client.operation client.store with
      | (.ok operation, s) => some ⟨s, operation⟩
      | (.error _, s) => some ⟨s, client.operation⟩
  | .other call =>
      if call.operation.idempotencyKey = client.operation.idempotencyKey then none
      else
        some { client with
          store := (executeSettlementRetry P call.expectedSettlerDid call.env call.operation
            client.store).2 }

def SettlementStore.submissionsOf (key : String) (s : SettlementStore) : ℕ :=
  s.submissions.countP fun submission => submission.key = key

def ProviderOutcome.Final (outcome : ProviderOutcome) : Prop :=
  match outcome with
  | .answered _ finalState _ _ => finalState = "SUCCEEDED" ∨ finalState = "FAILED"
  | _ => False

instance : (outcome : ProviderOutcome) → Decidable outcome.Final
  | .answered _ finalState _ _ =>
      inferInstanceAs (Decidable (finalState = "SUCCEEDED" ∨ finalState = "FAILED"))
  | .threwSr _ _ => inferInstanceAs (Decidable False)
  | .threw _ => inferInstanceAs (Decidable False)

/-- The provider answers with a final state, and all that follows is written. -/
structure Answered (P : SettlementPorts) (env : PortOutcomes) (operation : SettlementOperation)
    (s : SettlementStore) : Prop where
  final : env.submitSettlement.Final
  event : ∃ auditEventId ∈ env.recordEvent, validateRetryAttempt P (retryAttempt env operation
    (attemptResult P operation env.submitSettlement) auditEventId) = true
  attempt : env.insertAttempt = .done
  fresh : ∀ attempt ∈ s.attempts, attempt.id ≠ env.retryAttemptId
  state : env.finalState = .done

/-- A valid request with attempts left is answered and recorded. -/
def Completes (P : SettlementPorts) (client : Client) : ClientEvent → Prop
  | .retry expectedSettlerDid env =>
      validateRequest P expectedSettlerDid env client.operation = .ok () →
        client.operation.attemptCount < maxRetryAttempts →
          Answered P env client.operation client.store
  | .other _ => True

theorem attemptResult_thrown (P : SettlementPorts) (operation : SettlementOperation)
    {outcome : ProviderOutcome} (hfinal : outcome.Final) :
    (attemptResult P operation outcome).thrown = none := by
  unfold ProviderOutcome.Final at hfinal
  split at hfinal
  next =>
    obtain rfl | rfl := hfinal
    · simp [attemptResult]
    · simp [attemptResult]
  next => exact hfinal.elim

/-- An answered attempt returns the operation with one attempt more. -/
theorem submitAttempt_returns (hanswered : Answered P env operation s) :
    ∃ state, (submitAttempt P env operation s).1 = .ok (updatedOperation env operation state) := by
  obtain ⟨auditEventId, hevent, hvalid⟩ := hanswered.event
  obtain ⟨s', hok⟩ := recordAttempt_ok (s := submit env operation s) hevent hvalid
    hanswered.attempt hanswered.fresh
  simp only [submitAttempt, hok, commitState, updateState, perform, hanswered.state,
    attemptResult_thrown P operation hanswered.final]
  exact ⟨_, rfl⟩

theorem attemptResult_unanswered (P : SettlementPorts) (operation : SettlementOperation)
    {outcome : ProviderOutcome} (hfinal : ¬ outcome.Final) :
    (attemptResult P operation outcome).thrown ≠ none := by
  cases outcome with
  | answered providerTxId finalState responseCode responseMessage =>
      have hstate : ¬ (finalState = "SUCCEEDED" ∨ finalState = "FAILED") := hfinal
      rw [not_or] at hstate
      simp [attemptResult, hstate, failedAttempt]
  | threwSr code message => simp [attemptResult, failedAttempt]
  | threw message => simp [attemptResult, failedAttempt]

theorem submitAttempt_unanswered {operation' : SettlementOperation}
    (hfinal : ¬ env.submitSettlement.Final) :
    (submitAttempt P env operation s).1 ≠ .ok operation' := by
  have hthrown := attemptResult_unanswered P operation hfinal
  simp only [submitAttempt]
  split
  next => simp
  next =>
    simp only [commitState]
    split
    next => simp
    next =>
      split
      next => simp
      next hnone => exact absurd hnone hthrown

/-- Without a final answer the next call passes the same operation again, whatever has
been submitted. -/
theorem clientStep_unanswered (hfinal : ¬ env.submitSettlement.Final) :
    clientStep P ⟨s, operation⟩ (.retry expectedSettlerDid env) =
      some ⟨(executeSettlementRetry P expectedSettlerDid env operation s).2, operation⟩ := by
  have hreturned : ∀ operation', (executeSettlementRetry P expectedSettlerDid env operation s).1 =
      .ok operation' → operation' = operation := by
    intro operation' hok
    obtain ⟨-, hreturned, -⟩ | ⟨s₃, -, -, -, -, -, heq⟩ :=
      execute_cases P expectedSettlerDid env operation s
    · exact hreturned operation' hok
    · rw [heq] at hok
      exact absurd hok (submitAttempt_unanswered hfinal)
  simp only [clientStep]
  split
  next heq =>
    rw [heq] at hreturned ⊢
    rw [hreturned _ rfl]
  next heq => rw [heq]

theorem submissionsOf_submitAttempt (P : SettlementPorts) (env : PortOutcomes)
    (operation : SettlementOperation) (s : SettlementStore) :
    (submitAttempt P env operation s).2.submissionsOf operation.idempotencyKey =
      s.submissionsOf operation.idempotencyKey + 1 := by
  simp [SettlementStore.submissionsOf, (submitAttempt_spec P env operation s).1]

/-- A call for another key submits nothing for this one. -/
theorem submissionsOf_other (P : SettlementPorts) (call : Call) (s : SettlementStore)
    {key : String} (hkey : call.operation.idempotencyKey ≠ key) :
    (executeSettlementRetry P call.expectedSettlerDid call.env call.operation s).2.submissionsOf
      key = s.submissionsOf key := by
  obtain ⟨hframe, -⟩ | ⟨s₃, hframe, -, -, -, -, heq⟩ :=
    execute_cases P call.expectedSettlerDid call.env call.operation s
  · rw [SettlementStore.submissionsOf, hframe.submissions]
    rfl
  · rw [heq, SettlementStore.submissionsOf, (submitAttempt_spec P call.env call.operation s₃).1,
      hframe.submissions]
    simp [SettlementStore.submissionsOf, hkey]

/-- The submissions of the key are covered by the attempts that the operation counts. -/
structure AttemptInv (key : String) (client : Client) : Prop where
  sameKey : client.operation.idempotencyKey = key
  counted : client.store.submissionsOf key = 0 ∨
    (client.store.submissionsOf key : ℚ) ≤ client.operation.attemptCount
  bounded : (client.store.submissionsOf key : ℚ) ≤ maxRetryAttempts

theorem validateRequest_attemptCount
    (hvalid : validateRequest P expectedSettlerDid env operation = .ok ()) :
    0 ≤ operation.attemptCount := by
  simp only [validateRequest, bind_eq_ok, exists_unit, require_eq_ok] at hvalid
  obtain ⟨-, -, -, hschema, -⟩ := hvalid
  simp only [validateSettlementOperation, isIntegerIn, Bool.and_eq_true, decide_eq_true_eq]
    at hschema
  exact hschema.2.1.2

/-- A submission costs one of the attempts that the operation has left. -/
theorem attemptInv_submit {key : String} {client client' : Client}
    (hinv : AttemptInv key client) (hcount : 0 ≤ client.operation.attemptCount)
    (hleft : client.operation.attemptCount < maxRetryAttempts)
    (hkey : client'.operation.idempotencyKey = client.operation.idempotencyKey)
    (hattempts : client'.operation.attemptCount = client.operation.attemptCount + 1)
    (hsubmissions : client'.store.submissionsOf key = client.store.submissionsOf key + 1) :
    AttemptInv key client' := by
  have hcounted : (client.store.submissionsOf key : ℚ) ≤ client.operation.attemptCount := by
    obtain hzero | hle := hinv.counted
    · rw [hzero]
      exact_mod_cast hcount
    · exact hle
  have hbelow : client.store.submissionsOf key < 3 := by
    have hlt : (client.store.submissionsOf key : ℚ) < 3 := hcounted.trans_lt hleft
    exact_mod_cast hlt
  refine ⟨hkey.trans hinv.sameKey, .inr ?_, ?_⟩
  · rw [hsubmissions, hattempts]
    push_cast
    linarith
  · rw [hsubmissions, maxRetryAttempts]
    exact_mod_cast hbelow

theorem clientStep_inv {key : String} {client client' : Client} {event : ClientEvent}
    (hinv : AttemptInv key client) (hcompletes : Completes P client event)
    (hstep : clientStep P client event = some client') : AttemptInv key client' := by
  obtain ⟨s, operation⟩ := client
  have hkey : operation.idempotencyKey = key := hinv.sameKey
  cases event with
  | other call =>
      simp only [clientStep] at hstep
      split at hstep
      next => cases hstep
      next hother =>
        cases hstep
        have hsame := submissionsOf_other P call s fun h => hother (h.trans hkey.symm)
        refine ⟨hkey, ?_, ?_⟩
        · simpa only [hsame] using hinv.counted
        · simpa only [hsame] using hinv.bounded
  | retry expectedSettlerDid env =>
      obtain ⟨hframe, hreturned, -⟩ | ⟨s₃, hframe, -, -, hvalid, hleft, heq⟩ :=
        execute_cases P expectedSettlerDid env operation s
      · have hsame : (executeSettlementRetry P expectedSettlerDid env operation s).2.submissionsOf
            key = s.submissionsOf key := by
          rw [SettlementStore.submissionsOf, hframe.submissions]
          rfl
        have hclient : client' =
            ⟨(executeSettlementRetry P expectedSettlerDid env operation s).2, operation⟩ := by
          simp only [clientStep] at hstep
          split at hstep
          next heq =>
            rw [heq] at hreturned ⊢
            cases hstep
            rw [hreturned _ rfl]
          next heq =>
            rw [heq]
            cases hstep
            rfl
        rw [hclient]
        refine ⟨hkey, ?_, ?_⟩
        · simpa only [hsame] using hinv.counted
        · simpa only [hsame] using hinv.bounded
      · obtain ⟨hfinal, hevent, hattempt, hfresh, hstate⟩ := hcompletes hvalid hleft
        have hanswered : Answered P env operation s₃ :=
          ⟨hfinal, hevent, hattempt, hframe.attempts ▸ hfresh, hstate⟩
        obtain ⟨state, hok⟩ := submitAttempt_returns hanswered
        have hsubmissions := submissionsOf_submitAttempt P env operation s₃
        have hexecute : executeSettlementRetry P expectedSettlerDid env operation s =
            (.ok (updatedOperation env operation state), (submitAttempt P env operation s₃).2) := by
          rw [heq, ← hok]
        simp only [clientStep, hexecute, Option.some.injEq] at hstep
        rw [← hstep]
        refine attemptInv_submit hinv (validateRequest_attemptCount hvalid) hleft rfl rfl ?_
        rw [← hkey, hsubmissions, SettlementStore.submissionsOf, hframe.submissions]
        rfl

/-- A key is submitted at most `MAX_RETRY_ATTEMPTS` times, in every sequence of calls of
one caller in which each valid request with attempts left is answered and recorded. -/
theorem attempts_bounded (P : SettlementPorts) (events : List ClientEvent)
    (client₀ client : Client)
    (hstart : client₀.store.submissionsOf client₀.operation.idempotencyKey = 0)
    (hcompletes : Along (clientStep P) (Completes P) client₀ events)
    (hrun : run (clientStep P) client₀ events = some client) :
    (client.store.submissionsOf client₀.operation.idempotencyKey : ℚ) ≤ maxRetryAttempts := by
  have hinv₀ : AttemptInv client₀.operation.idempotencyKey client₀ :=
    ⟨rfl, .inl hstart, by rw [hstart]; norm_num [maxRetryAttempts]⟩
  exact (run_invariant (AttemptInv client₀.operation.idempotencyKey)
    (fun _ _ _ hinv hgood hstep => clientStep_inv hinv hgood hstep) hinv₀ hcompletes hrun).bounded

/-! ## The stored state -/

/-- The stores that one call goes through, one for each stage that it enters. -/
def stages (P : SettlementPorts) (call : Call) (s : SettlementStore) : List SettlementStore :=
  match checkKey P call.operation with
  | .error _ => []
  | .ok () =>
      match claimKey P call.env call.operation s with
      | (.error _, s₁) => [s₁]
      | (.ok false, s₁) => [s₁]
      | (.ok true, s₁) =>
          match validateRequest P call.expectedSettlerDid call.env call.operation with
          | .error _ => [s₁]
          | .ok () =>
              match startAttempt call.env call.operation s₁ with
              | (.error _, s₂) => [s₁, s₂]
              | (.ok (), s₂) =>
                  match scheduleAttempt call.env call.operation s₂ with
                  | (.error _, s₃) => [s₁, s₂, s₃]
                  | (.ok (), s₃) => [s₁, s₂, s₃, (submitAttempt P call.env call.operation s₃).2]

/-- How far a call gets: the stores of its stages, and what it ends with. -/
inductive Course (P : SettlementPorts) (call : Call) (s : SettlementStore) :
    List SettlementStore → Except SettlementError SettlementOperation × SettlementStore → Prop
  | mismatched (error : SettlementError) : Course P call s [] (.error error, s)
  | refused {error : SettlementError} {s₁ : SettlementStore}
      (hclaim : claimKey P call.env call.operation s = (.error error, s₁)) :
      Course P call s [s₁] (.error error, s₁)
  | ended {s₁ : SettlementStore}
      (hclaim : claimKey P call.env call.operation s = (.ok false, s₁)) :
      Course P call s [s₁] (.ok call.operation, s₁)
  | invalid (error : SettlementError) {s₁ : SettlementStore}
      (hclaim : claimKey P call.env call.operation s = (.ok true, s₁)) :
      Course P call s [s₁] (.error error, s₁)
  | unstarted {error : SettlementError} {s₁ s₂ : SettlementStore}
      (hclaim : claimKey P call.env call.operation s = (.ok true, s₁))
      (hstart : startAttempt call.env call.operation s₁ = (.error error, s₂)) :
      Course P call s [s₁, s₂] (.error error, s₂)
  | unscheduled {error : SettlementError} {s₁ s₂ s₃ : SettlementStore}
      (hclaim : claimKey P call.env call.operation s = (.ok true, s₁))
      (hstart : startAttempt call.env call.operation s₁ = (.ok (), s₂))
      (hschedule : scheduleAttempt call.env call.operation s₂ = (.error error, s₃)) :
      Course P call s [s₁, s₂, s₃] (.error error, s₃)
  | submitted {s₁ s₂ s₃ : SettlementStore}
      (hclaim : claimKey P call.env call.operation s = (.ok true, s₁))
      (hstart : startAttempt call.env call.operation s₁ = (.ok (), s₂))
      (hschedule : scheduleAttempt call.env call.operation s₂ = (.ok (), s₃)) :
      Course P call s [s₁, s₂, s₃, (submitAttempt P call.env call.operation s₃).2]
        (submitAttempt P call.env call.operation s₃)

theorem course (P : SettlementPorts) (call : Call) (s : SettlementStore) :
    Course P call s (stages P call s)
      (executeSettlementRetry P call.expectedSettlerDid call.env call.operation s) := by
  unfold executeSettlementRetry stages
  cases checkKey P call.operation with
  | error error => exact .mismatched error
  | ok u =>
      unfold retryUnderKey
      rcases hclaim : claimKey P call.env call.operation s with ⟨_ | _ | _, s₁⟩
      · exact .refused hclaim
      · exact .ended hclaim
      · cases validateRequest P call.expectedSettlerDid call.env call.operation with
        | error error => exact .invalid error hclaim
        | ok u =>
            rcases hstart : startAttempt call.env call.operation s₁ with ⟨_ | _, s₂⟩
            · simp only [hstart]
              exact .unstarted hclaim hstart
            · rcases hschedule : scheduleAttempt call.env call.operation s₂ with ⟨_ | _, s₃⟩
              · simp only [hstart, hschedule]
                exact .unscheduled hclaim hstart hschedule
              · simp only [hstart, hschedule]
                exact .submitted hclaim hstart hschedule

/-- The last stage leaves the store that the call leaves. -/
theorem getLastD_stages (P : SettlementPorts) (call : Call) (s : SettlementStore) :
    (stages P call s).getLastD s =
      (executeSettlementRetry P call.expectedSettlerDid call.env call.operation s).2 := by
  have hcourse := course P call s
  generalize stages P call s = stores at hcourse ⊢
  generalize executeSettlementRetry P _ _ _ s = result at hcourse ⊢
  cases hcourse <;> rfl

/-- A record stays, and its state stays or makes one of the allowed transitions. -/
def Moves (s s' : SettlementStore) : Prop :=
  ∀ key record, s.records.find? key = some record → ∃ record',
    s'.records.find? key = some record' ∧ (record'.currentState = record.currentState ∨
      (record.currentState, record'.currentState) ∈ settlementRetryStateTransitions)

/-- A record that has succeeded has an answer of the provider behind it. -/
def Justified (s : SettlementStore) : Prop :=
  ∀ key record, s.records.find? key = some record → record.currentState = .succeeded →
    ∃ submission ∈ s.submissions, submission.key = key ∧ submission.outcome.Succeeded

/-- What the state machine asks of a call: every stage makes allowed moves only, none
leaves a success without an answer, and what the call returns is what is stored. -/
structure Follows (P : SettlementPorts) (s : SettlementStore) (call : Call) : Prop where
  moves : (s :: stages P call s).IsChain Moves
  justified : ∀ s' ∈ stages P call s, Justified s'
  returned : ∀ operation', (executeSettlementRetry P call.expectedSettlerDid call.env
    call.operation s).1 = .ok operation' → ∃ record, (executeSettlementRetry P
      call.expectedSettlerDid call.env call.operation s).2.records.find?
        operation'.idempotencyKey = some record ∧ record.currentState = operation'.currentState

/-- The operation's state agrees with the record before the call: a first call does not
bring a success with it, a terminal record is met by its own state, and a call that would
go on `IN_PROGRESS` finds the record there, or finds it `FAILED` and does not succeed. -/
structure Agrees (s : SettlementStore) (call : Call) : Prop where
  first : s.findByKey call.operation.tenantId call.operation.idempotencyKey = none →
    call.operation.currentState ≠ .succeeded
  terminal : ∀ record ∈ s.findByKey call.operation.tenantId call.operation.idempotencyKey,
    record.currentState.isTerminal → call.operation.currentState = record.currentState
  waiting : ∀ record ∈ s.findByKey call.operation.tenantId call.operation.idempotencyKey,
    record.currentState = .pending → call.operation.currentState ≠ .inProgress
  failed : ∀ record ∈ s.findByKey call.operation.tenantId call.operation.idempotencyKey,
    record.currentState = .failed → call.operation.currentState = .inProgress →
      ¬ call.env.submitSettlement.Succeeded

/-! ### What each stage writes -/

theorem Moves.refl (s : SettlementStore) : Moves s s :=
  fun _ record hfind => ⟨record, hfind, .inl rfl⟩

theorem moveTo_currentState (tenantId : String) (newState : SettlementRetryState)
    (finalizedAt : Option String) (record : IdempotencyRecord) :
    (record.moveTo tenantId newState finalizedAt).currentState =
      if record.tenantId = tenantId then newState else record.currentState := by
  unfold IdempotencyRecord.moveTo
  split <;> rfl

theorem updateState_moves (outcome : WriteOutcome) {newState : SettlementRetryState}
    (finalizedAt : Option String)
    (hallowed : ∀ record, s.records.find? operation.idempotencyKey = some record →
      newState = record.currentState ∨
        (record.currentState, newState) ∈ settlementRetryStateTransitions) :
    Moves s (updateState operation outcome newState finalizedAt s).2 := by
  obtain hsame | hwrite := updateState_snd operation outcome newState finalizedAt s
  · rw [hsame]
    exact Moves.refl s
  · rw [hwrite]
    intro key record hfind
    refine ⟨_, by rw [find?_updateState, hfind]; rfl, ?_⟩
    split
    next hkey =>
      rw [hkey] at hfind
      rw [moveTo_currentState]
      split
      next => exact hallowed record hfind
      next => exact .inl rfl
    next => exact .inl rfl

theorem updateState_justified (outcome : WriteOutcome) {newState : SettlementRetryState}
    (finalizedAt : Option String) (hjustified : Justified s)
    (hanswered : newState = .succeeded → ∃ submission ∈ s.submissions,
      submission.key = operation.idempotencyKey ∧ submission.outcome.Succeeded) :
    Justified (updateState operation outcome newState finalizedAt s).2 := by
  obtain hsame | hwrite := updateState_snd operation outcome newState finalizedAt s
  · rwa [hsame]
  · rw [hwrite]
    intro key record hfind hsucceeded
    rw [find?_updateState] at hfind
    obtain ⟨old, hold, rfl⟩ := Option.map_eq_some_iff.mp hfind
    split at hsucceeded
    next hkey =>
      rw [moveTo_currentState] at hsucceeded
      split at hsucceeded
      next =>
        rw [hkey]
        exact hanswered hsucceeded
      next => exact hjustified key old hold hsucceeded
    next => exact hjustified key old hold hsucceeded

/-- The claim of a key ends without a write, or it inserts the first record. -/
theorem claimKey_cases {result : Except SettlementError Bool}
    (hclaim : claimKey P env operation s = (result, s')) :
    (∃ error, result = .error error ∧ s' = s) ∨
      (∃ record, s.findByKey operation.tenantId operation.idempotencyKey = some record ∧ s' = s ∧
        (record.currentState.isTerminal ∧ result = .ok false ∨
          ¬ record.currentState.isTerminal ∧ result = .ok true)) ∨
      (s.findByKey operation.tenantId operation.idempotencyKey = none ∧ result ≠ .ok false ∧
        s.insertRecord (newRecord env operation) = some s') := by
  unfold claimKey at hclaim
  split at hclaim
  next =>
    cases hclaim
    exact .inl ⟨_, rfl, rfl⟩
  next =>
    split at hclaim
    next record hfind =>
      split at hclaim
      next hterminal =>
        cases hclaim
        exact .inr (.inl ⟨record, hfind, rfl, .inl ⟨hterminal, rfl⟩⟩)
      next hopen =>
        split at hclaim
        next =>
          cases hclaim
          exact .inl ⟨_, rfl, rfl⟩
        next =>
          cases hclaim
          exact .inr (.inl ⟨record, hfind, rfl, .inr ⟨hopen, rfl⟩⟩)
    next hfind =>
      split at hclaim
      next =>
        cases hclaim
        exact .inl ⟨_, rfl, rfl⟩
      next =>
        have hwrite := perform_snd env.insertRecord
          (SettlementStore.insertRecord (newRecord env operation)) s
        split at hclaim
        next heq =>
          cases hclaim
          rw [heq] at hwrite
          obtain hsame | hwrite := hwrite
          · exact .inl ⟨_, rfl, hsame⟩
          · exact .inr (.inr ⟨hfind, nofun, hwrite⟩)
        next heq =>
          cases hclaim
          exact .inr (.inr ⟨hfind, nofun, perform_ok heq⟩)

theorem insertRecord_find? (hinsert : s.insertRecord (newRecord env operation) = some s')
    (key : String) :
    s'.records.find? key =
      if operation.idempotencyKey = key then some (newRecord env operation)
      else s.records.find? key := by
  obtain ⟨records, hrecords, rfl⟩ := Option.map_eq_some_iff.mp hinsert
  exact Table.find?_insert? hrecords key

theorem insertRecord_moves (hinsert : s.insertRecord (newRecord env operation) = some s') :
    Moves s s' := by
  intro key record hfind
  have hkey : operation.idempotencyKey ≠ key := by
    rintro rfl
    obtain ⟨records, hrecords, rfl⟩ := Option.map_eq_some_iff.mp hinsert
    obtain ⟨hrow, hkey⟩ := Table.find?_eq_some.mp hfind
    exact (Table.insert?_eq_some.mp hrecords).1 (List.mem_map.mpr ⟨record, hrow, hkey⟩)
  exact ⟨record, by rw [insertRecord_find? hinsert, if_neg hkey, hfind], .inl rfl⟩

theorem insertRecord_justified (hinsert : s.insertRecord (newRecord env operation) = some s')
    (hjustified : Justified s) (hstate : operation.currentState ≠ .succeeded) : Justified s' := by
  have hsubmissions : s'.submissions = s.submissions := by
    obtain ⟨records, -, rfl⟩ := Option.map_eq_some_iff.mp hinsert
    rfl
  intro key record hfind hsucceeded
  rw [insertRecord_find? hinsert] at hfind
  split at hfind
  next =>
    cases hfind
    exact absurd hsucceeded hstate
  next =>
    rw [hsubmissions]
    exact hjustified key record hfind hsucceeded

/-- The start of an attempt ends without a write, or it is the move to `IN_PROGRESS`. -/
theorem startAttempt_cases {result : Except SettlementError Unit}
    (hstart : startAttempt env operation s = (result, s')) :
    (s' = s ∧ (operation.currentState = .inProgress ∨ result ≠ .ok ())) ∨
      ((operation.currentState = .pending ∨ operation.currentState = .failed) ∧
        updateState operation env.startState .inProgress none s = (result, s')) := by
  unfold startAttempt at hstart
  split at hstart
  next =>
    cases hstart
    exact .inl ⟨rfl, .inr nofun⟩
  next hopen =>
    split at hstart
    next hstate =>
      cases hstart
      exact .inl ⟨rfl, .inl hstate⟩
    next hstate =>
      split at hstart
      next =>
        cases hstart
        exact .inl ⟨rfl, .inr nofun⟩
      next =>
        refine .inr ⟨?_, hstart⟩
        cases hcurrent : operation.currentState with
        | pending => exact .inl rfl
        | inProgress => exact absurd hcurrent hstate
        | succeeded => exact absurd (by rw [hcurrent]; decide) hopen
        | failed => exact .inr rfl
        | deadLetter => exact absurd (by rw [hcurrent]; decide) hopen

/-- The limit of attempts ends without a write, or it is the move to `DEAD_LETTER`. -/
theorem scheduleAttempt_snd (env : PortOutcomes) (operation : SettlementOperation)
    (s : SettlementStore) :
    (scheduleAttempt env operation s).2 = s ∨
      (scheduleAttempt env operation s).2 =
        (updateState operation env.finalState .deadLetter (some env.completedAt) s).2 := by
  unfold scheduleAttempt
  split
  next =>
    split
    next heq =>
      rw [heq]
      exact .inr rfl
    next heq =>
      rw [heq]
      exact .inr rfl
  next =>
    split
    next => exact .inl rfl
    next => exact .inl rfl

/-- After the provider, the record is as it was or makes the last move. -/
theorem submitAttempt_snd (P : SettlementPorts) (env : PortOutcomes)
    (operation : SettlementOperation) (s : SettlementStore) :
    ∃ s₄, s₄.submissions = (submit env operation s).submissions ∧ s₄.records = s.records ∧
      ((submitAttempt P env operation s).2 = s₄ ∧ (submitAttempt P env operation s).1.isOk = false ∨
        submitAttempt P env operation s =
          commitState env operation (attemptResult P operation env.submitSettlement) s₄) := by
  obtain ⟨hsubmissions, hrecords⟩ := recordAttempt_snd P env operation
    (attemptResult P operation env.submitSettlement) (submit env operation s)
  simp only [submitAttempt]
  split
  next s₄ heq =>
    rw [heq] at hsubmissions hrecords
    exact ⟨s₄, hsubmissions, hrecords, .inl ⟨rfl, rfl⟩⟩
  next s₄ heq =>
    rw [heq] at hsubmissions hrecords
    exact ⟨s₄, hsubmissions, hrecords, .inr rfl⟩

/-- The record of the call's key is where the last move may start. -/
def Ready (call : Call) (s : SettlementStore) : Prop :=
  ∃ record, s.records.find? call.operation.idempotencyKey = some record ∧
    record.tenantId = call.operation.tenantId ∧ (record.currentState = .inProgress ∨
      record.currentState = .failed ∧ ¬ call.env.submitSettlement.Succeeded)

theorem committedState_succeeded {outcome : ProviderOutcome}
    (hstate : committedState operation (attemptResult P operation outcome) = .succeeded) :
    outcome.Succeeded := by
  have hto : (attemptResult P operation outcome).toState = .succeeded := by
    unfold committedState at hstate
    split at hstate
    next hto => exact hto
    next => split at hstate <;> cases hstate
  cases outcome with
  | answered providerTxId finalState responseCode responseMessage =>
      by_cases hsucceeded : finalState = "SUCCEEDED"
      · exact hsucceeded
      · simp only [attemptResult, hsucceeded, if_false] at hto
        split at hto <;> cases hto
  | threwSr code message => cases hto
  | threw message => cases hto

theorem committedState_cases (operation : SettlementOperation) (result : AttemptResult) :
    committedState operation result = .succeeded ∨ committedState operation result = .failed ∨
      committedState operation result = .deadLetter := by
  unfold committedState
  split
  next => exact .inl rfl
  next =>
    split
    next => exact .inr (.inr rfl)
    next => exact .inr (.inl rfl)

theorem Ready.allowed {call : Call} (hready : Ready call s) (record : IdempotencyRecord)
    (hfind : s.records.find? call.operation.idempotencyKey = some record) :
    committedState call.operation (attemptResult P call.operation call.env.submitSettlement) =
        record.currentState ∨
      (record.currentState, committedState call.operation
        (attemptResult P call.operation call.env.submitSettlement)) ∈
          settlementRetryStateTransitions := by
  obtain ⟨record', hfind', -, hstate⟩ := hready
  cases hfind.symm.trans hfind'
  obtain hstate | ⟨hstate, hunanswered⟩ := hstate
  · rw [hstate]
    obtain h | h | h := committedState_cases call.operation
      (attemptResult P call.operation call.env.submitSettlement)
    · exact .inr (by rw [h]; decide)
    · exact .inr (by rw [h]; decide)
    · exact .inr (by rw [h]; decide)
  · rw [hstate]
    obtain h | h | h := committedState_cases call.operation
      (attemptResult P call.operation call.env.submitSettlement)
    · exact absurd (committedState_succeeded h) hunanswered
    · exact .inl h
    · exact .inr (by rw [h]; decide)

theorem commitState_returned {result : AttemptResult} {operation' : SettlementOperation}
    (hclaimed : Claimed operation s)
    (hreturned : (commitState env operation result s).1 = .ok operation') :
    ∃ record, (commitState env operation result s).2.records.find? operation'.idempotencyKey =
      some record ∧ record.currentState = operation'.currentState := by
  have hfinal : env.finalState ≠ .failed := by
    intro hfailed
    simp [commitState, updateState, perform, hfailed] at hreturned
  have hoperation : operation' =
      updatedOperation env operation (committedState operation result) := by
    simp only [commitState] at hreturned
    split at hreturned
    next => cases hreturned
    next =>
      split at hreturned
      next => cases hreturned
      next =>
        cases hreturned
        rfl
  rw [commitState_snd, hoperation]
  exact updateState_written hfinal _ _ hclaimed

/-- The part from the provider on keeps to the state machine. -/
theorem submitAttempt_follows {call : Call} (hready : Ready call s) (hjustified : Justified s) :
    Moves s (submitAttempt P call.env call.operation s).2 ∧
      Justified (submitAttempt P call.env call.operation s).2 ∧
      ∀ operation', (submitAttempt P call.env call.operation s).1 = .ok operation' →
        ∃ record, (submitAttempt P call.env call.operation s).2.records.find?
          operation'.idempotencyKey = some record ∧
            record.currentState = operation'.currentState := by
  obtain ⟨s₄, hsubmissions, hrecords, hend⟩ := submitAttempt_snd P call.env call.operation s
  have hjustified₄ : Justified s₄ := by
    intro key record hfind hsucceeded
    rw [hrecords] at hfind
    obtain ⟨submission, hmem, hsubmission⟩ := hjustified key record hfind hsucceeded
    exact ⟨submission, by simp [hsubmissions, submit, hmem], hsubmission⟩
  obtain ⟨hsnd, hfst⟩ | heq := hend
  · rw [hsnd]
    refine ⟨?_, hjustified₄, ?_⟩
    · intro key record hfind
      exact ⟨record, by rw [hrecords, hfind], .inl rfl⟩
    · intro operation' hreturned
      rw [hreturned] at hfst
      cases hfst
  · have hready₄ : Ready call s₄ := by
      unfold Ready
      rw [hrecords]
      exact hready
    have hclaimed₄ : Claimed call.operation s₄ := by
      obtain ⟨record, hfind, htenant, -⟩ := hready₄
      exact ⟨record, hfind, htenant⟩
    rw [heq]
    refine ⟨?_, ?_, fun operation' => commitState_returned hclaimed₄⟩
    · rw [commitState_snd]
      intro key record hfind
      rw [← hrecords] at hfind
      exact updateState_moves _ _ (hready₄.allowed (P := P)) key record hfind
    · rw [commitState_snd]
      refine updateState_justified _ _ hjustified₄ fun hstate => ?_
      exact ⟨_, by rw [hsubmissions]; exact List.mem_append_right _ (List.mem_singleton_self _),
        rfl, committedState_succeeded hstate⟩

/-- The record that a call goes on with: it is terminal only if the operation is, and one
that the operation takes for `IN_PROGRESS` is ready for the last move. -/
def Open (call : Call) (s : SettlementStore) : Prop :=
  ∃ record, s.records.find? call.operation.idempotencyKey = some record ∧
    record.tenantId = call.operation.tenantId ∧
    (¬ call.operation.currentState.isTerminal → ¬ record.currentState.isTerminal) ∧
    (call.operation.currentState = .inProgress → record.currentState = .inProgress ∨
      record.currentState = .failed ∧ ¬ call.env.submitSettlement.Succeeded)

theorem claimKey_follows {call : Call} {result : Except SettlementError Bool}
    (hagrees : Agrees s call) (hjustified : Justified s)
    (hclaim : claimKey P call.env call.operation s = (result, s')) :
    Moves s s' ∧ Justified s' ∧ (result = .ok true → Open call s') ∧
      (result = .ok false → ∃ record, s'.records.find? call.operation.idempotencyKey =
        some record ∧ record.currentState = call.operation.currentState) := by
  obtain ⟨error, rfl, rfl⟩ | ⟨record, hfind, rfl, hstate⟩ | ⟨hfind, hresult, hinsert⟩ :=
    claimKey_cases hclaim
  · exact ⟨Moves.refl _, hjustified, nofun, nofun⟩
  · obtain ⟨hrecord, htenant⟩ := findByKey_eq_some hfind
    refine ⟨Moves.refl _, hjustified, fun htrue => ?_, fun hfalse => ?_⟩
    · obtain ⟨-, hended⟩ | ⟨hopen, -⟩ := hstate
      · cases hended.symm.trans htrue
      · refine ⟨record, hrecord, htenant, fun _ => hopen, fun hprogress => ?_⟩
        cases hcurrent : record.currentState with
        | pending => exact absurd hprogress (hagrees.waiting record hfind hcurrent)
        | inProgress => exact .inl rfl
        | succeeded => exact absurd (by rw [hcurrent]; decide) hopen
        | failed => exact .inr ⟨rfl, hagrees.failed record hfind hcurrent hprogress⟩
        | deadLetter => exact absurd (by rw [hcurrent]; decide) hopen
    · obtain ⟨hterminal, -⟩ | ⟨-, hgoes⟩ := hstate
      · exact ⟨record, hrecord, (hagrees.terminal record hfind hterminal).symm⟩
      · cases hgoes.symm.trans hfalse
  · refine ⟨insertRecord_moves hinsert, insertRecord_justified hinsert hjustified
      (hagrees.first hfind), fun _ => ⟨newRecord call.env call.operation, ?_, rfl, fun h => h,
        .inl⟩, fun hfalse => absurd hfalse hresult⟩
    rw [insertRecord_find? hinsert, if_pos rfl]

theorem startAttempt_follows {call : Call} {result : Except SettlementError Unit}
    (hopen : Open call s) (hjustified : Justified s)
    (hstart : startAttempt call.env call.operation s = (result, s')) :
    Moves s s' ∧ Justified s' ∧ (result = .ok () → Ready call s') := by
  obtain ⟨record, hfind, htenant, hterminal, hprogress⟩ := hopen
  obtain ⟨rfl, hstate⟩ | ⟨hstate, hupdate⟩ := startAttempt_cases hstart
  · refine ⟨Moves.refl _, hjustified, fun hok => ⟨record, hfind, htenant, ?_⟩⟩
    obtain hstate | hresult := hstate
    · exact hprogress hstate
    · exact absurd hok hresult
  · have hnonterminal : ¬ record.currentState.isTerminal := by
      refine hterminal ?_
      obtain hstate | hstate := hstate
      · rw [hstate]
        decide
      · rw [hstate]
        decide
    have hmoves : Moves s
        (updateState call.operation call.env.startState .inProgress none s).2 := ?_
    · have hjustified' : Justified
          (updateState call.operation call.env.startState .inProgress none s).2 :=
        updateState_justified _ _ hjustified nofun
      rw [hupdate] at hmoves hjustified'
      refine ⟨hmoves, hjustified', fun hok => ?_⟩
      have hwritten : call.env.startState ≠ .failed := by
        intro hfailed
        rw [hok] at hupdate
        simp [updateState, perform, hfailed] at hupdate
      obtain ⟨record', hfind', hstate'⟩ := updateState_written hwritten .inProgress none
        ⟨record, hfind, htenant⟩
      obtain ⟨record'', hfind'', htenant'⟩ := updateState_claimed call.env.startState .inProgress
        none ⟨record, hfind, htenant⟩
      cases hfind'.symm.trans hfind''
      rw [hupdate] at hfind'
      exact ⟨record', hfind', htenant', .inl hstate'⟩
    · refine updateState_moves _ _ fun record' hfind' => ?_
      cases hfind.symm.trans hfind'
      cases hcurrent : record.currentState with
      | pending => exact .inr (by decide)
      | inProgress => exact .inl rfl
      | succeeded => exact absurd (by rw [hcurrent]; decide) hnonterminal
      | failed => exact .inr (by decide)
      | deadLetter => exact absurd (by rw [hcurrent]; decide) hnonterminal

theorem scheduleAttempt_follows {call : Call} {result : Except SettlementError Unit}
    (hready : Ready call s) (hjustified : Justified s)
    (hschedule : scheduleAttempt call.env call.operation s = (result, s')) :
    Moves s s' ∧ Justified s' := by
  obtain hsame | hwrite := scheduleAttempt_snd call.env call.operation s
  · rw [hschedule] at hsame
    cases hsame
    exact ⟨Moves.refl _, hjustified⟩
  · rw [hschedule] at hwrite
    cases hwrite
    refine ⟨updateState_moves _ _ ?_, updateState_justified _ _ hjustified nofun⟩
    intro record hfind
    obtain ⟨record', hfind', -, hstate⟩ := hready
    cases hfind.symm.trans hfind'
    obtain hstate | ⟨hstate, -⟩ := hstate
    · exact .inr (by rw [hstate]; decide)
    · exact .inr (by rw [hstate]; decide)

/-- A call whose operation agrees with the record keeps to the state machine. -/
theorem follows_of_agrees {call : Call} (hjustified : Justified s) (hagrees : Agrees s call) :
    Follows P s call := by
  have hcourse := course P call s
  suffices hfollows : ∀ stores result, Course P call s stores result →
      (s :: stores).IsChain Moves ∧ (∀ s' ∈ stores, Justified s') ∧
        ∀ operation', result.1 = .ok operation' → ∃ record, result.2.records.find?
          operation'.idempotencyKey = some record ∧
            record.currentState = operation'.currentState by
    obtain ⟨hmoves, hstores, hreturned⟩ := hfollows _ _ hcourse
    exact ⟨hmoves, hstores, hreturned⟩
  intro stores result hcourse
  cases hcourse with
  | mismatched error => exact ⟨by simp, by simp, by simp⟩
  | refused hclaim =>
      obtain ⟨hmoves, hjustified₁, -, -⟩ := claimKey_follows hagrees hjustified hclaim
      exact ⟨by simp [hmoves], by simp [hjustified₁], by simp⟩
  | ended hclaim =>
      obtain ⟨hmoves, hjustified₁, -, hended⟩ := claimKey_follows hagrees hjustified hclaim
      refine ⟨by simp [hmoves], by simp [hjustified₁], fun operation' hreturned => ?_⟩
      cases hreturned
      exact hended rfl
  | invalid error hclaim =>
      obtain ⟨hmoves, hjustified₁, -, -⟩ := claimKey_follows hagrees hjustified hclaim
      exact ⟨by simp [hmoves], by simp [hjustified₁], by simp⟩
  | unstarted hclaim hstart =>
      obtain ⟨hmoves, hjustified₁, hopen, -⟩ := claimKey_follows hagrees hjustified hclaim
      obtain ⟨hmoves₂, hjustified₂, -⟩ := startAttempt_follows (hopen rfl) hjustified₁ hstart
      exact ⟨by simp [hmoves, hmoves₂], by simp [hjustified₁, hjustified₂], by simp⟩
  | unscheduled hclaim hstart hschedule =>
      obtain ⟨hmoves, hjustified₁, hopen, -⟩ := claimKey_follows hagrees hjustified hclaim
      obtain ⟨hmoves₂, hjustified₂, hready⟩ := startAttempt_follows (hopen rfl) hjustified₁ hstart
      obtain ⟨hmoves₃, hjustified₃⟩ :=
        scheduleAttempt_follows (hready rfl) hjustified₂ hschedule
      exact ⟨by simp [hmoves, hmoves₂, hmoves₃],
        by simp [hjustified₁, hjustified₂, hjustified₃], by simp⟩
  | submitted hclaim hstart hschedule =>
      obtain ⟨hmoves, hjustified₁, hopen, -⟩ := claimKey_follows hagrees hjustified hclaim
      obtain ⟨hmoves₂, hjustified₂, hready⟩ := startAttempt_follows (hopen rfl) hjustified₁ hstart
      obtain ⟨-, rfl⟩ := scheduleAttempt_eq_ok hschedule
      obtain ⟨hmoves₄, hjustified₄, hreturned⟩ :=
        submitAttempt_follows (P := P) (hready rfl) hjustified₂
      exact ⟨by simp [hmoves, hmoves₂, Moves.refl, hmoves₄],
        by simp [hjustified₁, hjustified₂, hjustified₄], hreturned⟩

theorem justified_step {call : Call} (hjustified : Justified s) (hagrees : Agrees s call)
    (hstep : step P s call = some s') : Justified s' := by
  have hfollows := follows_of_agrees (P := P) hjustified hagrees
  cases hstep
  rw [← getLastD_stages]
  have hmem : (stages P call s).getLastD s ∈ s :: stages P call s := List.getLastD_mem_cons
  obtain hlast | hlast := List.mem_cons.mp hmem
  · rw [hlast]
    exact hjustified
  · exact hfollows.justified _ hlast

/-- Every call keeps to the state machine, in every sequence of calls whose operations
agree with the record that they find. -/
theorem record_follows (P : SettlementPorts) (calls : List Call) (s₀ : SettlementStore)
    (hjustified : Justified s₀) (hagrees : Along (step P) Agrees s₀ calls) :
    Along (step P) (Follows P) s₀ calls :=
  Along.of_invariant Justified (fun _ _ _ hinv hgood hstep => justified_step hinv hgood hstep)
    (fun _ _ hinv hgood => follows_of_agrees hinv hgood) hjustified hagrees

/-- A terminal record returns the operation as it came, whatever its state. -/
theorem not_follows_of_terminal (call : Call) {record : IdempotencyRecord}
    (hkey : checkKey P call.operation = .ok ()) (hlock : call.env.acquireAdvisoryLock = true)
    (hread : call.env.findByKey = true)
    (hfind : s.findByKey call.operation.tenantId call.operation.idempotencyKey = some record)
    (hterminal : record.currentState.isTerminal)
    (hstate : record.currentState ≠ call.operation.currentState) : ¬ Follows P s call := by
  intro hfollows
  have hexecute : executeSettlementRetry P call.expectedSettlerDid call.env call.operation s =
      (.ok call.operation, s) := by
    simp [executeSettlementRetry, hkey, retryUnderKey, claimKey, hlock, hread, hfind, hterminal]
  obtain ⟨record', hfind', hstate'⟩ := hfollows.returned call.operation (by rw [hexecute])
  rw [hexecute] at hfind'
  cases (findByKey_eq_some hfind).1.symm.trans hfind'
  exact hstate hstate'

end Laws

namespace Transfer

theorem execute_eq {operation' : SettlementOperation} (hkey : checkKey ports operation' = .ok ())
    (env : PortOutcomes) (s : SettlementStore) :
    executeSettlementRetry ports settler env operation' s =
      retryUnderKey ports settler env operation' s := by
  simp only [executeSettlementRetry, hkey]

theorem clientStep_operation {env : PortOutcomes} {s : SettlementStore}
    (hfinal : ¬ env.submitSettlement.Final) :
    clientStep ports ⟨s, operation⟩ (.retry settler env) =
      some ⟨(retryUnderKey ports settler env operation s).2, operation⟩ := by
  rw [clientStep_unanswered hfinal, execute_eq checkKey_operation]

/-- The provider times out. -/
def timesOut (retryAttemptId : String) : PortOutcomes :=
  { succeeds retryAttemptId with
    submitSettlement := .threwSr .providerTimeout "[SR] SR_PROVIDER_TIMEOUT" }

def timeouts : List PortOutcomes :=
  [timesOut "7d9f1d1c-2f0b-4b7e-9d39-6c1f2a0e8b44",
    timesOut "e2a1b9c0-5d3f-4a6e-8c7b-90d1e2f3a4b5",
    timesOut "3f8a5b2d-9c41-4e07-b6d2-58e1f0a7c934",
    timesOut "a91c7e60-2b5d-4f38-8e14-d7c09b3f6a21"]

/-- The store after the calls, each with the same operation. -/
def afterCalls (s : SettlementStore) (envs : List PortOutcomes) : SettlementStore :=
  envs.foldl (fun s env => (retryUnderKey ports settler env operation s).2) s

theorem answers_timesOut (retryAttemptId : String) : Answers (timesOut retryAttemptId) :=
  ⟨rfl, rfl, rfl, rfl, rfl, rfl, rfl, show (1781956800000 : Int) ≤ 1798675200000 by decide⟩

/-- The key has a record that another attempt may go on with. -/
def Open (s : SettlementStore) : Prop :=
  ∃ record, s.findByKey operation.tenantId operation.idempotencyKey = some record ∧
    ¬ record.currentState.isTerminal ∧ record.operationId = operation.id

theorem Open.updateState {s : SettlementStore} (hopen : Open s) {state : SettlementRetryState}
    (hstate : ¬ state.isTerminal) (finalizedAt : Option String) :
    Open (s.updateState operation.tenantId operation.idempotencyKey state finalizedAt) := by
  obtain ⟨record, hfind, -, hid⟩ := hopen
  obtain ⟨hfind, htenant⟩ := findByKey_eq_some hfind
  refine ⟨{ record with currentState := state, finalizedAt := finalizedAt.or record.finalizedAt },
    ?_, hstate, hid⟩
  simp [SettlementStore.findByKey, find?_updateState, hfind, IdempotencyRecord.moveTo, htenant]

theorem Open.of_records {s s' : SettlementStore} (hopen : Open s) (hrecords : s'.records = s.records) :
    Open s' := by
  obtain ⟨record, hfind, hrecord⟩ := hopen
  exact ⟨record, by rwa [SettlementStore.findByKey, hrecords], hrecord⟩

theorem submitAttempt_timesOut {s : SettlementStore} (hopen : Open s) (retryAttemptId : String) :
    Open (submitAttempt ports (timesOut retryAttemptId) operation s).2 := by
  have hstate : committedState operation (attemptResult ports operation
      (timesOut retryAttemptId).submitSettlement) = .failed := rfl
  have hrecords := (recordAttempt_snd ports (timesOut retryAttemptId) operation
    (attemptResult ports operation (timesOut retryAttemptId).submitSettlement)
    (submit (timesOut retryAttemptId) operation s)).2
  simp only [submitAttempt]
  split
  next heq =>
    rw [heq] at hrecords
    exact hopen.of_records hrecords
  next s' heq =>
    rw [heq] at hrecords
    have hopen' : Open s' := hopen.of_records hrecords
    rw [commitState_snd, hstate]
    obtain hsame | hwrite := updateState_snd operation (timesOut retryAttemptId).finalState .failed
      (if SettlementRetryState.failed.isTerminal then some (timesOut retryAttemptId).completedAt
        else none) s'
    · rwa [hsame]
    · rw [hwrite]
      exact hopen'.updateState (by decide) _

/-- A call that times out submits once, and another one may follow. -/
theorem retryUnderKey_timesOut {s : SettlementStore} (hs : s = SettlementStore.empty ∨ Open s)
    (retryAttemptId : String) :
    Open (retryUnderKey ports settler (timesOut retryAttemptId) operation s).2 ∧
      (retryUnderKey ports settler (timesOut retryAttemptId) operation s).2.submissionsOf
        operation.idempotencyKey = s.submissionsOf operation.idempotencyKey + 1 := by
  have hanswers := answers_timesOut retryAttemptId
  obtain rfl | hopen := hs
  · obtain ⟨s₁, hnone, -, ⟨record, hfind, hstate, hid⟩, heq⟩ := retryUnderKey_empty hanswers
    have hopen : Open s₁ := ⟨record, hfind, by rw [hstate]; decide, hid⟩
    refine heq ▸ ⟨submitAttempt_timesOut hopen retryAttemptId, ?_⟩
    rw [submissionsOf_submitAttempt]
    simp [SettlementStore.submissionsOf, hnone, SettlementStore.empty]
  · obtain ⟨record, hfind, hrecord, hid⟩ := hopen
    have heq := retryUnderKey_again hanswers hfind hrecord hid
    have hopen : Open s := ⟨record, hfind, hrecord, hid⟩
    refine heq ▸ ⟨submitAttempt_timesOut (hopen.updateState (by decide) none) retryAttemptId, ?_⟩
    rw [submissionsOf_submitAttempt]
    rfl

/-- Every call that times out counts. -/
theorem submissionsOf_afterCalls {s : SettlementStore} (hs : s = SettlementStore.empty ∨ Open s)
    (retryAttemptIds : List String) :
    (afterCalls s (retryAttemptIds.map timesOut)).submissionsOf operation.idempotencyKey =
      s.submissionsOf operation.idempotencyKey + retryAttemptIds.length := by
  induction retryAttemptIds generalizing s with
  | nil => rfl
  | cons retryAttemptId retryAttemptIds ih =>
      obtain ⟨hopen, hcount⟩ := retryUnderKey_timesOut hs retryAttemptId
      have hrest := ih (.inr hopen)
      rw [hcount] at hrest
      rw [List.length_cons, ← Nat.add_assoc, Nat.add_right_comm, ← hrest]
      rfl

/-- Calls without a final answer hand the operation back as it was. -/
theorem run_unanswered {envs : List PortOutcomes}
    (hfinal : ∀ env ∈ envs, ¬ env.submitSettlement.Final) (s : SettlementStore) :
    run (clientStep ports) ⟨s, operation⟩ (envs.map (.retry settler)) =
      some ⟨afterCalls s envs, operation⟩ := by
  induction envs generalizing s with
  | nil => rfl
  | cons env envs ih =>
      rw [List.map_cons, run_cons (clientStep_operation (hfinal env List.mem_cons_self)),
        ih fun other hother => hfinal other (List.mem_cons_of_mem env hother)]
      rfl

/-- The bound fails: a provider that times out every time is called a fourth time. -/
theorem submitted_again : ∃ client, run (clientStep ports) ⟨SettlementStore.empty, operation⟩
      (timeouts.map (.retry settler)) = some client ∧
    ¬ (client.store.submissionsOf operation.idempotencyKey : ℚ) ≤ maxRetryAttempts := by
  have htimeouts : timeouts = ["7d9f1d1c-2f0b-4b7e-9d39-6c1f2a0e8b44",
      "e2a1b9c0-5d3f-4a6e-8c7b-90d1e2f3a4b5", "3f8a5b2d-9c41-4e07-b6d2-58e1f0a7c934",
      "a91c7e60-2b5d-4f38-8e14-d7c09b3f6a21"].map timesOut := rfl
  have hcount : (afterCalls SettlementStore.empty timeouts).submissionsOf
      operation.idempotencyKey = 0 + 4 := by
    rw [htimeouts, submissionsOf_afterCalls (.inl rfl)]
    rfl
  refine ⟨_, run_unanswered (by decide) SettlementStore.empty, ?_⟩
  simp only [hcount]
  decide

/-- The provider declines. -/
def declines (retryAttemptId : String) : PortOutcomes :=
  { succeeds retryAttemptId with
    submitSettlement := .answered "tx-7741" "FAILED" (some "DECLINED") none }

def declined : PortOutcomes := declines "7d9f1d1c-2f0b-4b7e-9d39-6c1f2a0e8b44"

/-- A declined attempt, then a successful one with the operation of the first. -/
def answered : List ClientEvent := [.retry settler declined, .retry settler secondAttempt]

theorem clientStep_returns {env : PortOutcomes} {client : Client} {result : SettlementOperation}
    (hkey : checkKey ports client.operation = .ok ())
    (hreturns : (retryUnderKey ports settler env client.operation client.store).1 = .ok result) :
    clientStep ports client (.retry settler env) =
      some ⟨(retryUnderKey ports settler env client.operation client.store).2, result⟩ := by
  have hexecute : executeSettlementRetry ports settler env client.operation client.store =
      (.ok result, (retryUnderKey ports settler env client.operation client.store).2) := by
    rw [execute_eq hkey, ← hreturns]
  simp only [clientStep, hexecute]

/-- An attempt with a final answer that is written down returns the updated operation. -/
theorem submitAttempt_recorded {env : PortOutcomes} {operation' : SettlementOperation}
    {result : AttemptResult} {s : SettlementStore} {auditEventId : String}
    (hresult : attemptResult ports operation' env.submitSettlement = result)
    (hthrown : result.thrown = none) (hevent : env.recordEvent = some auditEventId)
    (hvalid : validateRetryAttempt ports (retryAttempt env operation' result auditEventId) = true)
    (hinsert : env.insertAttempt = .done) (hfinal : env.finalState = .done)
    (hfresh : ∀ attempt ∈ s.attempts, attempt.id ≠ env.retryAttemptId) :
    submitAttempt ports env operation' s =
      (.ok (updatedOperation env operation' (committedState operation' result)),
        { submit env operation' s with
          audit := s.audit ++ [auditEvent operation' result.toState]
          attempts := s.attempts ++
            [retryAttempt env operation' result auditEventId] }.updateState operation'.tenantId
          operation'.idempotencyKey (committedState operation' result)
          (if (committedState operation' result).isTerminal then some env.completedAt
            else none)) := by
  have hfresh' : ¬ ∃ other ∈ s.attempts,
      other.id = (retryAttempt env operation' result auditEventId).id := by
    rintro ⟨other, hother, hid⟩
    exact hfresh other hother hid
  have hnew : ({ submit env operation' s with
        audit := s.audit ++ [auditEvent operation' result.toState] } :
          SettlementStore).insertAttempt (retryAttempt env operation' result auditEventId) =
      some { submit env operation' s with
        audit := s.audit ++ [auditEvent operation' result.toState]
        attempts := s.attempts ++ [retryAttempt env operation' result auditEventId] } :=
    if_neg hfresh'
  have hrecord : recordAttempt ports env operation' result (submit env operation' s) =
      (.ok (), { submit env operation' s with
        audit := s.audit ++ [auditEvent operation' result.toState]
        attempts := s.attempts ++ [retryAttempt env operation' result auditEventId] }) := by
    have haudit : (submit env operation' s).audit = s.audit := rfl
    simp only [recordAttempt, hevent, hvalid, Bool.true_eq_false, if_false, perform, hinsert,
      haudit, hnew]
  simp only [submitAttempt, hresult, hrecord, commitState, updateState, perform, hfinal, hthrown]

theorem checkKey_updatedOperation (P : SettlementPorts) (env : PortOutcomes)
    (operation' : SettlementOperation) (state : SettlementRetryState) :
    checkKey P (updatedOperation env operation' state) = checkKey P operation' := rfl

/-- The request of a second attempt is as valid as that of the first one. -/
theorem validateRequest_updatedOperation {env first : PortOutcomes} {state : SettlementRetryState}
    (h : Answers env) :
    validateRequest ports settler env (updatedOperation first operation state) = .ok () := by
  have hcount : isIntegerIn 0 5 (operation.attemptCount + 1) = true := by decide +kernel
  have hoperation := validate_operation
  simp only [validateSettlementOperation, Bool.and_eq_true] at hoperation
  have hvalid : validateSettlementOperation ports (updatedOperation first operation state) =
      true := by
    simp only [validateSettlementOperation, Bool.and_eq_true]
    exact ⟨hoperation.1, hcount⟩
  have hsame : validateRequest ports settler env (updatedOperation first operation state) =
      validateRequest ports settler env operation := by
    simp only [validateRequest, hvalid, validate_operation]
    rfl
  exact hsame.trans (validateRequest_operation h.now h.verify h.isOperationRevoked)

/-- The store and the operation after the declined attempt. -/
def afterDeclined : Client :=
  ⟨(retryUnderKey ports settler declined operation SettlementStore.empty).2,
    updatedOperation declined operation .failed⟩

theorem answers_declined : Answers declined := ⟨rfl, rfl, rfl, rfl, rfl, rfl, rfl, by decide⟩

theorem attemptResult_declined : attemptResult ports operation declined.submitSettlement =
    ⟨.failed, none, some (mapErrorToFailureReason none (some "DECLINED")), none⟩ := rfl

theorem validate_declined (result : AttemptResult) :
    validateRetryAttempt ports (retryAttempt declined operation result
      "c56a4180-65aa-42ec-a945-5fd21dec0538") = true :=
  validateRetryAttempt_succeeds uuidFormat_first rfl (by decide +kernel) result

/-- The declined attempt fails, and leaves a record that another attempt may go on with. -/
theorem retryUnderKey_declined : ∃ s : SettlementStore,
    retryUnderKey ports settler declined operation SettlementStore.empty =
        (.ok (updatedOperation declined operation .failed), s) ∧
      (∃ record, s.findByKey operation.tenantId operation.idempotencyKey = some record ∧
        record.currentState = .failed ∧ record.operationId = operation.id) ∧
      ∀ attempt ∈ s.attempts, attempt.id = "7d9f1d1c-2f0b-4b7e-9d39-6c1f2a0e8b44" := by
  obtain ⟨s, -, hattempts, ⟨record, hfind, -, hid⟩, heq⟩ := retryUnderKey_empty answers_declined
  have hstate : committedState operation
      ⟨.failed, none, some (mapErrorToFailureReason none (some "DECLINED")), none⟩ = .failed := by
    decide +kernel
  have hsubmit := submitAttempt_recorded (s := s) attemptResult_declined rfl rfl
    (validate_declined _) rfl rfl (by simp [hattempts])
  rw [hstate] at hsubmit
  obtain ⟨hfind, htenant⟩ := findByKey_eq_some hfind
  refine ⟨_, heq.trans hsubmit, ?_, ?_⟩
  · simp [SettlementStore.findByKey, find?_updateState, submit, hfind, IdempotencyRecord.moveTo,
      htenant, hid]
  · simp [SettlementStore.updateState, hattempts, retryAttempt, declined, declines, succeeds]

theorem clientStep_declined :
    clientStep ports ⟨SettlementStore.empty, operation⟩ (.retry settler declined) =
      some afterDeclined := by
  obtain ⟨s, heq, -⟩ := retryUnderKey_declined
  exact clientStep_returns checkKey_operation (congrArg Prod.fst heq)

/-- What the client goes on with, read off the step and not off the definition. -/
theorem afterDeclined_spec :
    (∃ record, afterDeclined.store.findByKey operation.tenantId operation.idempotencyKey =
        some record ∧ record.currentState = .failed ∧ record.operationId = operation.id) ∧
      ∀ attempt ∈ afterDeclined.store.attempts,
        attempt.id = "7d9f1d1c-2f0b-4b7e-9d39-6c1f2a0e8b44" := by
  obtain ⟨s, heq, hspec⟩ := retryUnderKey_declined
  have hstep : clientStep ports ⟨SettlementStore.empty, operation⟩ (.retry settler declined) =
      some ⟨(retryUnderKey ports settler declined operation SettlementStore.empty).2,
        updatedOperation declined operation .failed⟩ :=
    clientStep_returns checkKey_operation (congrArg Prod.fst heq)
  rw [heq] at hstep
  have hclient : afterDeclined = ⟨s, updatedOperation declined operation .failed⟩ :=
    Option.some.inj (clientStep_declined.symm.trans hstep)
  rw [hclient]
  exact hspec

theorem answered_declined : Answered ports declined operation SettlementStore.empty :=
  ⟨by decide, ⟨_, rfl, validate_declined _⟩, rfl, by simp [SettlementStore.empty], rfl⟩

/-- The store and the operation after the second attempt. -/
def afterAnswered : Client :=
  ⟨(retryUnderKey ports settler secondAttempt afterDeclined.operation afterDeclined.store).2,
    updatedOperation secondAttempt afterDeclined.operation .succeeded⟩

theorem fresh_second :
    ∀ attempt ∈ afterDeclined.store.attempts, attempt.id ≠ secondAttempt.retryAttemptId := by
  intro attempt hattempt
  rw [afterDeclined_spec.2 attempt hattempt]
  simp [secondAttempt, succeeds]

theorem validate_second (result : AttemptResult) :
    validateRetryAttempt ports (retryAttempt secondAttempt
      (updatedOperation declined operation .failed) result
      "c56a4180-65aa-42ec-a945-5fd21dec0538") = true :=
  @validateRetryAttempt_succeeds _ (updatedOperation declined operation .failed)
    uuidFormat_second rfl (by decide +kernel) result

theorem attemptResult_second (operation' : SettlementOperation) :
    attemptResult ports operation' secondAttempt.submitSettlement =
      ⟨.succeeded, none, none, none⟩ := rfl

/-- The second attempt goes on with the key of a failed one. -/
theorem retryUnderKey_second {s : SettlementStore} {record : IdempotencyRecord}
    (hfind : s.findByKey operation.tenantId operation.idempotencyKey = some record)
    (hstate : record.currentState = .failed) (hid : record.operationId = operation.id)
    (hfresh : ∀ attempt ∈ s.attempts, attempt.id ≠ secondAttempt.retryAttemptId) :
    (retryUnderKey ports settler secondAttempt (updatedOperation declined operation .failed)
        s).1 =
      .ok (updatedOperation secondAttempt (updatedOperation declined operation .failed)
        .succeeded) := by
  have hclaim : claimKey ports secondAttempt (updatedOperation declined operation .failed) s =
      (.ok true, s) :=
    claimKey_of_some rfl rfl hfind (by rw [hstate]; decide) hid
  have hcount : ¬ maxRetryAttempts ≤ (updatedOperation declined operation .failed).attemptCount := by
    decide +kernel
  have hdelay : backoffOutOfRange (.finite 1200) ≠ true := by decide +kernel
  have hstart : startAttempt secondAttempt (updatedOperation declined operation .failed) s =
      (.ok (), s.updateState operation.tenantId operation.idempotencyKey .inProgress none) := rfl
  have hschedule : ∀ s, scheduleAttempt secondAttempt
      (updatedOperation declined operation .failed) s = (.ok (), s) :=
    fun s => (if_neg hcount).trans (if_neg hdelay)
  have hfresh' : ∀ attempt ∈ (s.updateState operation.tenantId operation.idempotencyKey
      .inProgress none).attempts, attempt.id ≠ secondAttempt.retryAttemptId := hfresh
  rw [retryUnderKey_eq_submitAttempt hclaim (validateRequest_updatedOperation answers_second)
    hstart (hschedule _), submitAttempt_recorded (attemptResult_second _) rfl rfl
    (validate_second _) rfl rfl hfresh']
  rfl

theorem clientStep_answered :
    clientStep ports afterDeclined (.retry settler secondAttempt) = some afterAnswered := by
  obtain ⟨⟨record, hfind, hstate, hid⟩, -⟩ := afterDeclined_spec
  exact clientStep_returns ((checkKey_updatedOperation _ _ _ _).trans checkKey_operation)
    (retryUnderKey_second hfind hstate hid fresh_second)

theorem answered_second :
    Answered ports secondAttempt afterDeclined.operation afterDeclined.store :=
  ⟨by decide, ⟨_, rfl, validate_second _⟩, rfl, fresh_second, rfl⟩

theorem submitted_twice :
    run (clientStep ports) ⟨SettlementStore.empty, operation⟩ answered = some afterAnswered ∧
      (afterAnswered.store.submissionsOf operation.idempotencyKey : ℚ) ≤ maxRetryAttempts := by
  have hrun : run (clientStep ports) ⟨SettlementStore.empty, operation⟩ answered =
      some afterAnswered := by
    rw [answered, run_cons clientStep_declined, run_cons clientStep_answered, run]
  have hcompletes : Along (clientStep ports) (Completes ports) ⟨SettlementStore.empty, operation⟩
      answered := by
    rw [answered, along_cons clientStep_declined, along_cons clientStep_answered]
    exact ⟨fun _ _ => answered_declined, fun _ _ => answered_second, trivial⟩
  exact ⟨hrun, attempts_bounded ports answered ⟨SettlementStore.empty, operation⟩ afterAnswered
    rfl hcompletes hrun⟩

theorem step_first : step ports SettlementStore.empty ⟨settler, firstAttempt, operation⟩ =
    some (retryUnderKey ports settler firstAttempt operation SettlementStore.empty).2 :=
  step_operation SettlementStore.empty firstAttempt

theorem findByKey_first : ∃ record,
    (retryUnderKey ports settler firstAttempt operation SettlementStore.empty).2.findByKey
        operation.tenantId operation.idempotencyKey = some record ∧
      record.currentState = .succeeded := by
  obtain ⟨s, hfirst, -, -, hfind⟩ := retryUnderKey_first
  rwa [hfirst]

/-- The law fails: a stale operation is returned as `PENDING` for a record that has
succeeded. -/
theorem stale_returned : ¬ Along (step ports) (Follows ports) SettlementStore.empty recorded := by
  rw [recorded, along_cons step_first]
  rintro ⟨-, hfollows, -⟩
  obtain ⟨record, hfind, hstate⟩ := findByKey_first
  have hterminal : record.currentState.isTerminal := by
    rw [hstate]
    decide
  have hstale : record.currentState ≠ operation.currentState := by
    rw [hstate]
    decide
  exact not_follows_of_terminal ⟨settler, secondAttempt, operation⟩ checkKey_operation rfl rfl
    hfind hterminal hstale hfollows

/-- A successful attempt, then a call with the operation that it returned. -/
def current : List Call :=
  [⟨settler, firstAttempt, operation⟩,
    ⟨settler, secondAttempt, updatedOperation firstAttempt operation .succeeded⟩]

theorem current_follows : Along (step ports) Agrees SettlementStore.empty current ∧
    Along (step ports) (Follows ports) SettlementStore.empty current := by
  obtain ⟨record, hfind, hstate⟩ := findByKey_first
  have hstored : ∀ record' ∈ (retryUnderKey ports settler firstAttempt operation
      SettlementStore.empty).2.findByKey operation.tenantId operation.idempotencyKey,
      record'.currentState = .succeeded := by
    intro record' hfind'
    cases hfind.symm.trans hfind'
    exact hstate
  have hfirst : Agrees SettlementStore.empty ⟨settler, firstAttempt, operation⟩ :=
    ⟨fun _ => by decide, fun _ hnone => (by cases hnone), fun _ hnone => (by cases hnone),
      fun _ hnone => (by cases hnone)⟩
  have hsecond : Agrees
      (retryUnderKey ports settler firstAttempt operation SettlementStore.empty).2
      ⟨settler, secondAttempt, updatedOperation firstAttempt operation .succeeded⟩ := by
    refine ⟨fun hnone => ?_, fun record' hfind' _ => (hstored record' hfind').symm,
      fun _ _ _ => by decide, fun _ _ _ hprogress => ?_⟩
    · cases hfind.symm.trans hnone
    · cases hprogress
  have hagrees : Along (step ports) Agrees SettlementStore.empty current := by
    rw [current, along_cons step_first]
    exact ⟨hfirst, hsecond, trivial⟩
  exact ⟨hagrees, record_follows ports current SettlementStore.empty
    (fun _ _ hnone => (by cases hnone)) hagrees⟩

end Transfer

end Coivitas.Policy.Settlement
