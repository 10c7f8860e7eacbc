import Coivitas.Crypto.Sha256
import Coivitas.Foundation.Run
import Coivitas.Policy.SettlementRetry

/-! # Whole runs of settlement retries

Calls follow one another over one store, each with its own outcomes of the
ports. A key whose settlement has succeeded is submitted again only if its
record has not reached the terminal state.
-/

namespace Coivitas.Policy.Settlement

open Foundation Crypto

structure Call where
  expectedSettlerDid : String
  env : PortOutcomes
  operation : SettlementOperation

/-- The store after one call, whatever it returns. -/
def step (P : SettlementPorts) (s : SettlementStore) (call : Call) : Option SettlementStore :=
  some (executeSettlementRetry P call.expectedSettlerDid call.env call.operation s).2

def ProviderOutcome.Succeeded (outcome : ProviderOutcome) : Prop :=
  match outcome with
  | .answered _ finalState _ _ => finalState = "SUCCEEDED"
  | _ => False

instance (outcome : ProviderOutcome) : Decidable outcome.Succeeded := by
  unfold ProviderOutcome.Succeeded
  split <;> infer_instance

/-- No submission follows a successful one of its key. -/
def NoResubmission (submissions : List Submission) : Prop :=
  submissions.Pairwise fun earlier later => earlier.outcome.Succeeded → later.key ≠ earlier.key

/-- When the provider answers `SUCCEEDED`, the audit event and the attempt are recorded
and the last update of the state is written, also if the caller sees an error of it. -/
def Recorded (P : SettlementPorts) (s : SettlementStore) (call : Call) : Prop :=
  call.env.submitSettlement.Succeeded →
    (∃ auditEventId ∈ call.env.recordEvent, validateRetryAttempt P (retryAttempt call.env
      call.operation (attemptResult P call.operation call.env.submitSettlement) auditEventId) =
        true) ∧
    call.env.insertAttempt = .done ∧
    (∀ attempt ∈ s.attempts, attempt.id ≠ call.env.retryAttemptId) ∧
    call.env.finalState ≠ .failed

instance (submissions : List Submission) : Decidable (NoResubmission submissions) := by
  unfold NoResubmission
  infer_instance

instance (P : SettlementPorts) (s : SettlementStore) (call : Call) :
    Decidable (Recorded P s call) := by
  unfold Recorded
  infer_instance

/-! ## The stages -/

section Stages

variable {P : SettlementPorts} {expectedSettlerDid : String} {env : PortOutcomes}
  {operation : SettlementOperation} {s s' s'' : SettlementStore} {key : String}

/-- What a stage before the provider leaves as it is. -/
structure Frame (key : String) (s s' : SettlementStore) : Prop where
  submissions : s'.submissions = s.submissions
  attempts : s'.attempts = s.attempts
  others : ∀ other ≠ key, s'.records.find? other = s.records.find? other

theorem Frame.refl (key : String) (s : SettlementStore) : Frame key s s :=
  ⟨rfl, rfl, fun _ _ => rfl⟩

theorem Frame.trans (h : Frame key s s') (h' : Frame key s' s'') : Frame key s s'' :=
  ⟨h'.submissions.trans h.submissions, h'.attempts.trans h.attempts,
    fun other hother => (h'.others other hother).trans (h.others other hother)⟩

/-- The record of the operation's key belongs to the operation's tenant. -/
def Claimed (operation : SettlementOperation) (s : SettlementStore) : Prop :=
  ∃ record, s.records.find? operation.idempotencyKey = some record ∧
    record.tenantId = operation.tenantId

theorem perform_snd (outcome : WriteOutcome) (write : SettlementStore → Option SettlementStore)
    (s : SettlementStore) :
    (perform outcome write s).2 = s ∨ write s = some (perform outcome write s).2 := by
  unfold perform
  split
  next => exact .inl rfl
  next => exact .inl rfl
  next s' hwrite => exact .inr hwrite
  next s' hwrite => exact .inr hwrite

theorem perform_ok {outcome : WriteOutcome} {write : SettlementStore → Option SettlementStore}
    (hok : perform outcome write s = (.ok (), s')) : write s = some s' := by
  unfold perform at hok
  split at hok
  next => cases hok
  next => cases hok
  next hwrite =>
    cases hok
    exact hwrite
  next => cases hok

theorem find?_updateState (tenantId : String) (newState : SettlementRetryState)
    (finalizedAt : Option String) (other : String) :
    (s.updateState tenantId key newState finalizedAt).records.find? other =
      (s.records.find? other).map fun record =>
        if other = key then record.moveTo tenantId newState finalizedAt else record :=
  Table.find?_update (IdempotencyRecord.moveTo_key tenantId newState finalizedAt) other

/-- A write of the state changes nothing, or the record of the key. -/
theorem updateState_snd (operation : SettlementOperation) (outcome : WriteOutcome)
    (newState : SettlementRetryState) (finalizedAt : Option String) (s : SettlementStore) :
    (updateState operation outcome newState finalizedAt s).2 = s ∨
      (updateState operation outcome newState finalizedAt s).2 =
        s.updateState operation.tenantId operation.idempotencyKey newState finalizedAt := by
  obtain hsame | hwrite := perform_snd outcome (fun s => some (s.updateState operation.tenantId
    operation.idempotencyKey newState finalizedAt)) s
  · exact .inl hsame
  · exact .inr (Option.some.inj hwrite).symm

theorem updateState_frame (operation : SettlementOperation) (outcome : WriteOutcome)
    (newState : SettlementRetryState) (finalizedAt : Option String) (s : SettlementStore) :
    Frame operation.idempotencyKey s (updateState operation outcome newState finalizedAt s).2 := by
  obtain hsame | hwrite := updateState_snd operation outcome newState finalizedAt s
  · rw [hsame]
    exact Frame.refl _ _
  · rw [hwrite]
    refine ⟨rfl, rfl, fun other hother => ?_⟩
    rw [find?_updateState]
    simp [hother]

theorem updateState_claimed (outcome : WriteOutcome) (newState : SettlementRetryState)
    (finalizedAt : Option String) (hclaimed : Claimed operation s) :
    Claimed operation (updateState operation outcome newState finalizedAt s).2 := by
  obtain hsame | hwrite := updateState_snd operation outcome newState finalizedAt s
  · rwa [hsame]
  · obtain ⟨record, hfind, htenant⟩ := hclaimed
    rw [hwrite]
    refine ⟨record.moveTo operation.tenantId newState finalizedAt, ?_, ?_⟩
    · rw [find?_updateState, hfind]
      simp
    · simp [IdempotencyRecord.moveTo, htenant]

/-- A write that is not lost before it is done. -/
theorem updateState_written {outcome : WriteOutcome} (houtcome : outcome ≠ .failed)
    (newState : SettlementRetryState) (finalizedAt : Option String)
    (hclaimed : Claimed operation s) :
    ∃ record, (updateState operation outcome newState finalizedAt s).2.records.find?
      operation.idempotencyKey = some record ∧ record.currentState = newState := by
  obtain ⟨record, hfind, htenant⟩ := hclaimed
  have hwritten : (updateState operation outcome newState finalizedAt s).2 =
      s.updateState operation.tenantId operation.idempotencyKey newState finalizedAt := by
    cases outcome with
    | done => rfl
    | failed => exact absurd rfl houtcome
    | lost => rfl
  rw [hwritten]
  refine ⟨record.moveTo operation.tenantId newState finalizedAt, ?_, ?_⟩
  · rw [find?_updateState, hfind]
    simp
  · simp [IdempotencyRecord.moveTo, htenant]

theorem startAttempt_spec (env : PortOutcomes) (hclaimed : Claimed operation s) :
    Frame operation.idempotencyKey s (startAttempt env operation s).2 ∧
      Claimed operation (startAttempt env operation s).2 := by
  unfold startAttempt
  split
  next => exact ⟨Frame.refl _ _, hclaimed⟩
  next =>
    split
    next => exact ⟨Frame.refl _ _, hclaimed⟩
    next =>
      split
      next => exact ⟨Frame.refl _ _, hclaimed⟩
      next => exact ⟨updateState_frame .., updateState_claimed _ _ _ hclaimed⟩

theorem scheduleAttempt_spec (env : PortOutcomes) (hclaimed : Claimed operation s) :
    Frame operation.idempotencyKey s (scheduleAttempt env operation s).2 ∧
      Claimed operation (scheduleAttempt env operation s).2 := by
  have hframe := updateState_frame operation env.finalState .deadLetter
    (some env.completedAt) s
  have hclaimed' := updateState_claimed env.finalState .deadLetter (some env.completedAt) hclaimed
  unfold scheduleAttempt
  split
  next =>
    split
    next heq =>
      rw [heq] at hframe hclaimed'
      exact ⟨hframe, hclaimed'⟩
    next heq =>
      rw [heq] at hframe hclaimed'
      exact ⟨hframe, hclaimed'⟩
  next =>
    split
    next => exact ⟨Frame.refl _ _, hclaimed⟩
    next => exact ⟨Frame.refl _ _, hclaimed⟩

theorem scheduleAttempt_eq_ok (hok : scheduleAttempt env operation s = (.ok (), s')) :
    operation.attemptCount < maxRetryAttempts ∧ s' = s := by
  unfold scheduleAttempt at hok
  split at hok
  next =>
    split at hok
    next => cases hok
    next => cases hok
  next hcount =>
    split at hok
    next => cases hok
    next =>
      cases hok
      exact ⟨not_le.mp hcount, rfl⟩

theorem findByKey_eq_some {tenantId : String} {record : IdempotencyRecord}
    (hfind : s.findByKey tenantId key = some record) :
    s.records.find? key = some record ∧ record.tenantId = tenantId := by
  obtain ⟨hfind, htenant⟩ := Option.filter_eq_some_iff.mp hfind
  exact ⟨hfind, by simpa using htenant⟩

/-- The insertion of a first record, which a taken key refuses. -/
theorem insertRecord_spec (env : PortOutcomes) (operation : SettlementOperation)
    (outcome : WriteOutcome) (s : SettlementStore) :
    Frame operation.idempotencyKey s
        (perform outcome (SettlementStore.insertRecord (newRecord env operation)) s).2 ∧
      (∀ s', perform outcome (SettlementStore.insertRecord (newRecord env operation)) s =
        (.ok (), s') → Claimed operation s' ∧
          s.records.find? operation.idempotencyKey = none) ∧
      (s.records.find? operation.idempotencyKey ≠ none →
        (perform outcome (SettlementStore.insertRecord (newRecord env operation)) s).2 = s) := by
  have hwritten : ∀ s', s.insertRecord (newRecord env operation) = some s' →
      Frame operation.idempotencyKey s s' ∧ Claimed operation s' ∧
        s.records.find? operation.idempotencyKey = none := by
    intro s' hwrite
    obtain ⟨records, hinsert, rfl⟩ := Option.map_eq_some_iff.mp hwrite
    have hfind := Table.find?_insert? hinsert
    refine ⟨⟨rfl, rfl, fun other hother => ?_⟩, ⟨newRecord env operation, ?_, rfl⟩, ?_⟩
    · exact (hfind other).trans (if_neg (Ne.symm hother))
    · exact (hfind _).trans (if_pos rfl)
    · rw [Table.find?_eq_none]
      intro row hrow hkey
      exact (Table.insert?_eq_some.mp hinsert).1 (List.mem_map.mpr ⟨row, hrow, hkey⟩)
  refine ⟨?_, fun s' hok => (hwritten s' (perform_ok hok)).2, fun htaken => ?_⟩
  · obtain hsame | hwrite := perform_snd outcome _ s
    · rw [hsame]
      exact Frame.refl _ _
    · exact (hwritten _ hwrite).1
  · obtain hsame | hwrite := perform_snd outcome _ s
    · exact hsame
    · exact absurd (hwritten _ hwrite).2.2 htaken

/-- A call goes on only with a record of its tenant, and not with a terminal one. -/
theorem claimKey_spec (P : SettlementPorts) (env : PortOutcomes) (operation : SettlementOperation)
    (s : SettlementStore) :
    Frame operation.idempotencyKey s (claimKey P env operation s).2 ∧
      ((claimKey P env operation s).1 = .ok true →
        Claimed operation (claimKey P env operation s).2) ∧
      ∀ record, s.records.find? operation.idempotencyKey = some record →
        record.currentState.isTerminal →
          (claimKey P env operation s).2 = s ∧ (claimKey P env operation s).1 ≠ .ok true := by
  unfold claimKey
  split
  next => exact ⟨Frame.refl _ _, nofun, fun _ _ _ => ⟨rfl, nofun⟩⟩
  next =>
    split
    next existing hfind =>
      obtain ⟨hfind, htenant⟩ := findByKey_eq_some hfind
      split
      next => exact ⟨Frame.refl _ _, nofun, fun _ _ _ => ⟨rfl, nofun⟩⟩
      next hopen =>
        have hnot : ∀ record, s.records.find? operation.idempotencyKey = some record →
            ¬ record.currentState.isTerminal := by
          intro record hrecord
          cases hfind.symm.trans hrecord
          exact hopen
        split
        next => exact ⟨Frame.refl _ _, nofun, fun _ _ _ => ⟨rfl, nofun⟩⟩
        next => exact ⟨Frame.refl _ _, fun _ => ⟨existing, hfind, htenant⟩,
          fun record hrecord hterminal => absurd hterminal (hnot record hrecord)⟩
    next =>
      split
      next => exact ⟨Frame.refl _ _, nofun, fun _ _ _ => ⟨rfl, nofun⟩⟩
      next =>
        obtain ⟨hframe, hok, htaken⟩ := insertRecord_spec env operation env.insertRecord s
        split
        next heq =>
          rw [heq] at hframe htaken
          exact ⟨hframe, nofun, fun record hrecord _ => ⟨htaken (by simp [hrecord]), nofun⟩⟩
        next heq =>
          rw [heq] at hframe
          obtain ⟨hclaimed, hnone⟩ := hok _ heq
          exact ⟨hframe, fun _ => hclaimed, fun record hrecord _ => by
            rw [hnone] at hrecord
            cases hrecord⟩

theorem recordAttempt_snd (P : SettlementPorts) (env : PortOutcomes)
    (operation : SettlementOperation) (result : AttemptResult) (s : SettlementStore) :
    (recordAttempt P env operation result s).2.submissions = s.submissions ∧
      (recordAttempt P env operation result s).2.records = s.records := by
  unfold recordAttempt
  split
  next => exact ⟨rfl, rfl⟩
  next auditEventId _ =>
    dsimp only
    split
    next => exact ⟨rfl, rfl⟩
    next =>
      obtain hsame | hwrite := perform_snd env.insertAttempt
        (SettlementStore.insertAttempt (retryAttempt env operation result auditEventId))
        { s with audit := s.audit ++ [auditEvent operation result.toState] }
      · rw [hsame]
        exact ⟨rfl, rfl⟩
      · generalize (perform env.insertAttempt _ _).2 = s' at hwrite
        simp only [SettlementStore.insertAttempt] at hwrite
        split at hwrite
        next => cases hwrite
        next =>
          cases hwrite
          exact ⟨rfl, rfl⟩

theorem recordAttempt_ok {result : AttemptResult} {auditEventId : String}
    (hevent : env.recordEvent = some auditEventId)
    (hvalid : validateRetryAttempt P (retryAttempt env operation result auditEventId) = true)
    (hinsert : env.insertAttempt = .done)
    (hfresh : ∀ attempt ∈ s.attempts, attempt.id ≠ env.retryAttemptId) :
    ∃ s', recordAttempt P env operation result s = (.ok (), s') := by
  have hnew : ¬ ∃ other ∈ s.attempts, other.id = env.retryAttemptId := by
    rintro ⟨other, hother, hid⟩
    exact hfresh other hother hid
  have hid : (retryAttempt env operation result auditEventId).id = env.retryAttemptId := rfl
  simp only [recordAttempt, hevent, hvalid, Bool.true_eq_false, if_false, perform, hinsert,
    SettlementStore.insertAttempt, hid, hnew]
  exact ⟨_, rfl⟩

theorem commitState_snd (env : PortOutcomes) (operation : SettlementOperation)
    (result : AttemptResult) (s : SettlementStore) :
    (commitState env operation result s).2 =
      (updateState operation env.finalState (committedState operation result)
        (if (committedState operation result).isTerminal then some env.completedAt else none)
          s).2 := by
  simp only [commitState]
  split
  next heq => rw [heq]
  next heq =>
    rw [heq]
    split
    next => rfl
    next => rfl

theorem commitState_succeeded {result : AttemptResult} (hclaimed : Claimed operation s)
    (hsucceeded : result.toState = .succeeded) (hfinal : env.finalState ≠ .failed) :
    ∃ record, (commitState env operation result s).2.records.find? operation.idempotencyKey =
      some record ∧ record.currentState = .succeeded := by
  have hstate : committedState operation result = .succeeded := if_pos hsucceeded
  rw [commitState_snd, hstate]
  exact updateState_written hfinal .succeeded _ hclaimed

theorem attemptResult_succeeded (P : SettlementPorts) (operation : SettlementOperation)
    {outcome : ProviderOutcome} (hsucceeded : outcome.Succeeded) :
    (attemptResult P operation outcome).toState = .succeeded := by
  unfold ProviderOutcome.Succeeded at hsucceeded
  split at hsucceeded
  next => simp [attemptResult, hsucceeded]
  next => exact hsucceeded.elim

/-- The part from the provider on: one submission, and for a success that is recorded a
record in the terminal state. -/
theorem submitAttempt_spec (P : SettlementPorts) (env : PortOutcomes)
    (operation : SettlementOperation) (s : SettlementStore) :
    (submitAttempt P env operation s).2.submissions = s.submissions ++
        [⟨operation.idempotencyKey, operation.id, env.submitSettlement⟩] ∧
      ∀ other ≠ operation.idempotencyKey,
        (submitAttempt P env operation s).2.records.find? other = s.records.find? other := by
  obtain ⟨hsubmissions, hrecords⟩ := recordAttempt_snd P env operation
    (attemptResult P operation env.submitSettlement) (submit env operation s)
  simp only [submitAttempt]
  split
  next heq =>
    rw [heq] at hsubmissions hrecords
    exact ⟨hsubmissions, fun other _ => by rw [hrecords]; rfl⟩
  next s' heq =>
    rw [heq] at hsubmissions hrecords
    rw [commitState_snd]
    have hframe := updateState_frame operation env.finalState
      (committedState operation (attemptResult P operation env.submitSettlement))
      (if (committedState operation (attemptResult P operation env.submitSettlement)).isTerminal
        then some env.completedAt else none) s'
    refine ⟨hframe.submissions.trans hsubmissions, fun other hother => ?_⟩
    rw [hframe.others other hother, hrecords]
    rfl

theorem submitAttempt_succeeded {s₀ : SettlementStore} (hclaimed : Claimed operation s)
    (hattempts : s.attempts = s₀.attempts)
    (hrecorded : Recorded P s₀ ⟨expectedSettlerDid, env, operation⟩)
    (hsucceeded : env.submitSettlement.Succeeded) :
    ∃ record, (submitAttempt P env operation s).2.records.find? operation.idempotencyKey =
      some record ∧ record.currentState = .succeeded := by
  obtain ⟨⟨auditEventId, hevent, hvalid⟩, hinsert, hfresh, hfinal⟩ := hrecorded hsucceeded
  have hfresh' : ∀ attempt ∈ (submit env operation s).attempts, attempt.id ≠ env.retryAttemptId :=
    fun attempt hattempt => hfresh attempt (hattempts ▸ hattempt)
  obtain ⟨s', hok⟩ := recordAttempt_ok hevent hvalid hinsert hfresh'
  have hrecords := (recordAttempt_snd P env operation
    (attemptResult P operation env.submitSettlement) (submit env operation s)).2
  rw [hok] at hrecords
  simp only [submitAttempt, hok]
  have hclaimed' : Claimed operation s' := by
    obtain ⟨record, hfind, htenant⟩ := hclaimed
    exact ⟨record, by rw [hrecords]; exact hfind, htenant⟩
  exact commitState_succeeded hclaimed' (attemptResult_succeeded P operation hsucceeded) hfinal

theorem claimKey_of_none {records : Table IdempotencyRecord.key}
    (hlock : env.acquireAdvisoryLock = true) (hanswers : env.findByKey = true)
    (hnew : s.findByKey operation.tenantId operation.idempotencyKey = none)
    (hvalid : validateIdempotencyRecord P (newRecord env operation) = true)
    (hdone : env.insertRecord = .done)
    (hinsert : s.records.insert? (newRecord env operation) = some records) :
    claimKey P env operation s = (.ok true, { s with records }) := by
  simp [claimKey, hlock, hanswers, hnew, hvalid, perform, SettlementStore.insertRecord, hdone,
    hinsert]

theorem claimKey_of_some {record : IdempotencyRecord} (hlock : env.acquireAdvisoryLock = true)
    (hanswers : env.findByKey = true)
    (hfind : s.findByKey operation.tenantId operation.idempotencyKey = some record)
    (hopen : ¬ record.currentState.isTerminal) (hsame : record.operationId = operation.id) :
    claimKey P env operation s = (.ok true, s) := by
  simp [claimKey, hlock, hanswers, hfind, hopen, hsame]

theorem retryUnderKey_eq_submitAttempt {s₁ s₂ s₃ : SettlementStore}
    (hclaim : claimKey P env operation s = (.ok true, s₁))
    (hrequest : validateRequest P expectedSettlerDid env operation = .ok ())
    (hstart : startAttempt env operation s₁ = (.ok (), s₂))
    (hschedule : scheduleAttempt env operation s₂ = (.ok (), s₃)) :
    retryUnderKey P expectedSettlerDid env operation s = submitAttempt P env operation s₃ := by
  simp only [retryUnderKey, hclaim, hrequest, hstart, hschedule]

/-- A call submits nothing and returns the operation it got if any, or it submits a valid
request with attempts left and a record of its own that is not terminal. A terminal record
ends the call. -/
theorem execute_cases (P : SettlementPorts) (expectedSettlerDid : String) (env : PortOutcomes)
    (operation : SettlementOperation) (s : SettlementStore) :
    (Frame operation.idempotencyKey s
        (executeSettlementRetry P expectedSettlerDid env operation s).2 ∧
      (∀ operation', (executeSettlementRetry P expectedSettlerDid env operation s).1 =
        .ok operation' → operation' = operation) ∧
      ∀ record, s.records.find? operation.idempotencyKey = some record →
        record.currentState.isTerminal →
          (executeSettlementRetry P expectedSettlerDid env operation s).2 = s) ∨
      ∃ s₃, Frame operation.idempotencyKey s s₃ ∧ Claimed operation s₃ ∧
        (∀ record, s.records.find? operation.idempotencyKey = some record →
          ¬ record.currentState.isTerminal) ∧
        validateRequest P expectedSettlerDid env operation = .ok () ∧
        operation.attemptCount < maxRetryAttempts ∧
        executeSettlementRetry P expectedSettlerDid env operation s =
          submitAttempt P env operation s₃ := by
  obtain ⟨hframe, hclaimed, hterminal⟩ := claimKey_spec P env operation s
  unfold executeSettlementRetry
  split
  next => exact .inl ⟨Frame.refl _ _, by simp, fun _ _ _ => rfl⟩
  next =>
    unfold retryUnderKey
    split
    next heq =>
      rw [heq] at hframe hterminal
      exact .inl ⟨hframe, by simp, fun record hrecord hstate => (hterminal record hrecord hstate).1⟩
    next heq =>
      rw [heq] at hframe hterminal
      refine .inl ⟨hframe, ?_, fun record hrecord hstate => (hterminal record hrecord hstate).1⟩
      intro operation' hreturned
      cases hreturned
      rfl
    next s₁ heq =>
      rw [heq] at hframe hclaimed hterminal
      have hopen : ∀ record, s.records.find? operation.idempotencyKey = some record →
          ¬ record.currentState.isTerminal :=
        fun record hrecord hstate => (hterminal record hrecord hstate).2 rfl
      have hclaimed₁ := hclaimed rfl
      have hvoid : ∀ s' : SettlementStore, ∀ record,
          s.records.find? operation.idempotencyKey = some record →
            record.currentState.isTerminal → s' = s :=
        fun s' record hrecord hstate => absurd hstate (hopen record hrecord)
      split
      next => exact .inl ⟨hframe, by simp, hvoid _⟩
      next hvalid =>
        obtain ⟨hframe₂, hclaimed₂⟩ := startAttempt_spec env hclaimed₁
        split
        next heq₂ =>
          rw [heq₂] at hframe₂
          exact .inl ⟨hframe.trans hframe₂, by simp, hvoid _⟩
        next s₂ heq₂ =>
          rw [heq₂] at hframe₂ hclaimed₂
          obtain ⟨hframe₃, hclaimed₃⟩ := scheduleAttempt_spec env hclaimed₂
          split
          next heq₃ =>
            rw [heq₃] at hframe₃
            exact .inl ⟨(hframe.trans hframe₂).trans hframe₃, by simp, hvoid _⟩
          next s₃ heq₃ =>
            rw [heq₃] at hframe₃ hclaimed₃
            exact .inr ⟨s₃, (hframe.trans hframe₂).trans hframe₃, hclaimed₃, hopen, hvalid,
              (scheduleAttempt_eq_ok heq₃).1, rfl⟩

end Stages

/-! ## Runs -/

/-- Every key with a successful submission has a terminal record, and none is submitted
again. -/
structure SettlementInv (s : SettlementStore) : Prop where
  settled : ∀ submission ∈ s.submissions, submission.outcome.Succeeded →
    ∃ record, s.records.find? submission.key = some record ∧ record.currentState = .succeeded
  once : NoResubmission s.submissions

theorem step_inv {P : SettlementPorts} {s s' : SettlementStore} {call : Call}
    (hinv : SettlementInv s) (hrecorded : Recorded P s call) (hstep : step P s call = some s') :
    SettlementInv s' := by
  obtain ⟨expectedSettlerDid, env, operation⟩ := call
  cases hstep
  obtain ⟨hframe, -, hterminal⟩ | ⟨s₃, hframe, hclaimed, hopen, -, -, heq⟩ :=
    execute_cases P expectedSettlerDid env operation s
  · refine ⟨fun submission hmem hsucceeded => ?_, hframe.submissions ▸ hinv.once⟩
    rw [hframe.submissions] at hmem
    obtain ⟨record, hfind, hstate⟩ := hinv.settled submission hmem hsucceeded
    by_cases hkey : submission.key = operation.idempotencyKey
    · rw [hkey] at hfind
      have hsame := hterminal record hfind (by rw [hstate]; decide)
      exact ⟨record, by rw [hsame, hkey, hfind], hstate⟩
    · exact ⟨record, (hframe.others _ hkey).trans hfind, hstate⟩
  · -- No earlier success has the key, since its record would be terminal.
    have hother : ∀ submission ∈ s.submissions, submission.outcome.Succeeded →
        submission.key ≠ operation.idempotencyKey := by
      intro submission hmem hsucceeded hkey
      obtain ⟨record, hfind, hstate⟩ := hinv.settled submission hmem hsucceeded
      rw [hkey] at hfind
      exact hopen record hfind (by rw [hstate]; decide)
    obtain ⟨hsubmissions, hothers⟩ := submitAttempt_spec P env operation s₃
    rw [hframe.submissions] at hsubmissions
    rw [heq]
    constructor
    · intro submission hmem hsucceeded
      rw [hsubmissions, List.mem_append, List.mem_singleton] at hmem
      obtain hold | rfl := hmem
      · obtain ⟨record, hfind, hstate⟩ := hinv.settled submission hold hsucceeded
        have hkey := hother submission hold hsucceeded
        exact ⟨record, by rw [hothers _ hkey, hframe.others _ hkey, hfind], hstate⟩
      · exact submitAttempt_succeeded hclaimed hframe.attempts hrecorded hsucceeded
    · rw [NoResubmission, hsubmissions, List.pairwise_append]
      refine ⟨hinv.once, List.pairwise_singleton _ _, ?_⟩
      intro earlier hearlier later hlater hsucceeded
      cases List.mem_singleton.mp hlater
      exact (hother earlier hearlier hsucceeded).symm

/-- No key is submitted after the provider has answered `SUCCEEDED` for it, in every
sequence of calls in which what follows such an answer is recorded. -/
theorem no_double_settlement (P : SettlementPorts) (calls : List Call) (s₀ s : SettlementStore)
    (hstart : s₀.submissions = []) (hrecorded : Along (step P) (Recorded P) s₀ calls)
    (hrun : run (step P) s₀ calls = some s) : NoResubmission s.submissions := by
  have hinv₀ : SettlementInv s₀ :=
    ⟨fun submission hmem => (by rw [hstart] at hmem; cases hmem), hstart ▸ List.Pairwise.nil⟩
  exact (run_invariant SettlementInv (fun _ _ _ hinv hgood hstep => step_inv hinv hgood hstep)
    hinv₀ hrecorded hrun).once

/-! ## A transfer -/

namespace Transfer

def settler : String := "did:agent:bcb87e6537efe28620ec0d8ef6e8e7e50e39bfad"

def ports : SettlementPorts where
  numberFormat := NumberFormat.decimal
  sha256 := Sha256.sha256
  uuidFormat := isUuidV4
  getTime := Calendar.getTime

def operation : SettlementOperation where
  id := "9b2f3c1e-6a54-4d0b-8e7f-1c2d3e4f5a6b"
  srVersion := "1.0.0"
  tenantId := "5e0c6f3a-1b7d-4c29-9a84-0f2e6d8b7c51"
  idempotencyKey := "5190bcdd4249d8dffe42f46eff1abdc2a026fc35ebd615873e40d3d4e80d823b"
  settlementType := "fiat_transfer"
  principalDid := "did:key:z6MkuFTkJCZWP6hzDRkwrBHV62CCSLvzPqaj5a66KsBjGA6Y"
  counterpartyDid := settler
  amount := 2500
  currency := "EUR"
  signedPayload := ⟨"f3a9c6d2", settler, "2026-12-31T00:00:00.000Z", "1.0.0"⟩
  currentState := .pending
  attemptCount := 0
  revoked := false
  createdAt := "2026-06-20T12:00:00.000Z"
  updatedAt := "2026-06-20T12:00:00.000Z"
  finalizedAt := none

theorem isUuidV4_ofList (chars : List Char) : isUuidV4 (String.ofList chars) =
    matchesEach (List.replicate 8 isLowerHex ++ [(· == '-')] ++ List.replicate 4 isLowerHex ++
      [(· == '-'), (· == '4')] ++ List.replicate 3 isLowerHex ++
      [(· == '-'), (['8', '9', 'a', 'b'].contains ·)] ++ List.replicate 3 isLowerHex ++
      [(· == '-')] ++ List.replicate 12 isLowerHex) chars := by
  rw [isUuidV4, String.toList_ofList]

theorem printString_ofList (chars : List Char) : Json.printString (String.ofList chars) = ('"' :: (chars.flatMap Json.escapeChar ++ ['"'])) := by
  rw [Json.printString, String.toList_ofList]

theorem isSha256Hex_ofList (chars : List Char) :
    isSha256Hex (String.ofList chars) = (chars.length == 64 && chars.all isLowerHex) := by
  rw [isSha256Hex, String.toList_ofList]

theorem uuidFormat_id : ports.uuidFormat operation.id = true :=
  (isUuidV4_ofList _).trans (by decide)

theorem uuidFormat_tenantId : ports.uuidFormat operation.tenantId = true :=
  (isUuidV4_ofList _).trans (by decide)

theorem isSha256Hex_key : isSha256Hex operation.idempotencyKey = true :=
  (isSha256Hex_ofList _).trans (by decide)

theorem checkKey_operation : checkKey ports operation = .ok () := by
  have hkey : computeIdempotencyKey ports operation = operation.idempotencyKey := by
    have hsort : Json.sortKeys (.obj [("operationId", .str operation.id),
        ("principalDid", .str operation.principalDid),
        ("settlementType", .str operation.settlementType), ("amount", .num operation.amount),
        ("currency", .str operation.currency),
        ("cspVersion", .str operation.signedPayload.cspVersion)]) =
        .obj [("amount", .num operation.amount),
          ("cspVersion", .str operation.signedPayload.cspVersion),
          ("currency", .str operation.currency), ("operationId", .str operation.id),
          ("principalDid", .str operation.principalDid),
          ("settlementType", .str operation.settlementType)] := rfl
    rw [computeIdempotencyKey, Json.canonicalize, hsort]
    simp only [Json.stringify, Json.print, Json.printMembers, operation, settler]
    repeat rw [printString_ofList]
    decide +kernel
  rw [checkKey, hkey]
  rfl

theorem step_of_checkKey {P : SettlementPorts} {expectedSettlerDid : String}
    {operation' : SettlementOperation} (hkey : checkKey P operation' = .ok ())
    (s : SettlementStore) (env : PortOutcomes) :
    step P s ⟨expectedSettlerDid, env, operation'⟩ =
      some (retryUnderKey P expectedSettlerDid env operation' s).2 := by
  simp only [step, executeSettlementRetry, hkey]

theorem step_operation (s : SettlementStore) (env : PortOutcomes) :
    step ports s ⟨settler, env, operation⟩ =
      some (retryUnderKey ports settler env operation s).2 :=
  step_of_checkKey checkKey_operation s env

theorem validate_newRecord (env : PortOutcomes) :
    validateIdempotencyRecord ports (newRecord env operation) = true := by
  simp only [validateIdempotencyRecord, newRecord, isSha256Hex_key, uuidFormat_tenantId,
    uuidFormat_id, Bool.and_self]

theorem validate_operation : validateSettlementOperation ports operation = true := by
  simp only [validateSettlementOperation, uuidFormat_id, uuidFormat_tenantId, isSha256Hex_key]
  decide +kernel

/-- The provider answers `SUCCEEDED`, and all that follows is recorded. -/
def succeeds (retryAttemptId : String) : PortOutcomes where
  acquireAdvisoryLock := true
  findByKey := true
  insertRecord := .done
  verify := some (true, none)
  isOperationRevoked := some false
  startState := .done
  backoffDelayMs := .finite 1200
  submitSettlement := .answered "tx-7741" "SUCCEEDED" none none
  recordEvent := some "c56a4180-65aa-42ec-a945-5fd21dec0538"
  insertAttempt := .done
  finalState := .done
  retryAttemptId := retryAttemptId
  now := 1781956800000
  createdAt := "2026-06-20T12:00:00.000Z"
  attemptedAt := "2026-06-20T12:00:00.000Z"
  completedAt := "2026-06-20T12:00:01.000Z"

theorem notAfter_time : ports.getTime operation.signedPayload.notAfter = some 1798675200000 := by
  decide +kernel

theorem isBlank_challenge : isBlank operation.signedPayload.challenge = false := by
  decide +kernel

theorem validateRequest_operation {env : PortOutcomes} (hnow : env.now ≤ 1798675200000)
    (hverify : env.verify = some (true, none)) (hrevoked : env.isOperationRevoked = some false) :
    validateRequest ports settler env operation = .ok () := by
  have hpositive : 0 < operation.amount := by decide
  simp only [validateRequest, validate_operation, isBlank_challenge, notAfter_time, hverify,
    hrevoked, hnow, hpositive]
  rfl

def firstAttempt : PortOutcomes := succeeds "7d9f1d1c-2f0b-4b7e-9d39-6c1f2a0e8b44"

def secondAttempt : PortOutcomes := succeeds "e2a1b9c0-5d3f-4a6e-8c7b-90d1e2f3a4b5"

/-- The audit event of the first attempt is not recorded, and the caller tries again. -/
def unrecorded : List Call :=
  [⟨settler, { firstAttempt with recordEvent := none }, operation⟩,
    ⟨settler, secondAttempt, operation⟩]

section Attempt

variable (env : PortOutcomes)

/-- The ports answer, and the attempt is free to go on up to the provider. -/
structure Answers : Prop where
  acquireAdvisoryLock : env.acquireAdvisoryLock = true
  findByKey : env.findByKey = true
  insertRecord : env.insertRecord = .done
  verify : env.verify = some (true, none)
  isOperationRevoked : env.isOperationRevoked = some false
  startState : env.startState = .done
  backoffDelayMs : env.backoffDelayMs = .finite 1200
  now : env.now ≤ 1798675200000

variable {env}

theorem scheduleAttempt_operation (h : Answers env) (s : SettlementStore) :
    scheduleAttempt env operation s = (.ok (), s) := by
  have hcount : ¬ maxRetryAttempts ≤ operation.attemptCount := by decide
  have hdelay : backoffOutOfRange (.finite 1200) ≠ true := by decide +kernel
  rw [scheduleAttempt, if_neg hcount, h.backoffDelayMs, if_neg hdelay]

theorem startAttempt_operation (h : Answers env) (s : SettlementStore) :
    startAttempt env operation s = (.ok (), s.updateState operation.tenantId
      operation.idempotencyKey .inProgress none) := by
  have hopen : ¬ operation.currentState.isTerminal := by decide
  have hpending : operation.currentState ≠ .inProgress := by decide
  have hmove : validateStateTransition operation.currentState .inProgress = .ok () := rfl
  rw [startAttempt, if_neg hopen, if_neg hpending, hmove]
  simp only [updateState, perform, h.startState]

theorem retryUnderKey_new (h : Answers env) {s : SettlementStore}
    {records : Table IdempotencyRecord.key}
    (hnew : s.findByKey operation.tenantId operation.idempotencyKey = none)
    (hinsert : s.records.insert? (newRecord env operation) = some records) :
    retryUnderKey ports settler env operation s = submitAttempt ports env operation
      ({ s with records }.updateState operation.tenantId operation.idempotencyKey .inProgress
        none) :=
  retryUnderKey_eq_submitAttempt
    (claimKey_of_none h.acquireAdvisoryLock h.findByKey hnew (validate_newRecord env)
      h.insertRecord hinsert)
    (validateRequest_operation h.now h.verify h.isOperationRevoked) (startAttempt_operation h _)
    (scheduleAttempt_operation h _)

theorem retryUnderKey_again (h : Answers env) {s : SettlementStore} {record : IdempotencyRecord}
    (hfind : s.findByKey operation.tenantId operation.idempotencyKey = some record)
    (hopen : ¬ record.currentState.isTerminal) (hsame : record.operationId = operation.id) :
    retryUnderKey ports settler env operation s = submitAttempt ports env operation
      (s.updateState operation.tenantId operation.idempotencyKey .inProgress none) :=
  retryUnderKey_eq_submitAttempt
    (claimKey_of_some h.acquireAdvisoryLock h.findByKey hfind hopen hsame)
    (validateRequest_operation h.now h.verify h.isOperationRevoked) (startAttempt_operation h _)
    (scheduleAttempt_operation h _)

/-- A terminal record answers the call. -/
theorem retryUnderKey_terminal (h : Answers env) {s : SettlementStore} {record : IdempotencyRecord}
    (hfind : s.findByKey operation.tenantId operation.idempotencyKey = some record)
    (hterminal : record.currentState.isTerminal) :
    retryUnderKey ports settler env operation s = (.ok operation, s) := by
  have hclaim : claimKey ports env operation s = (.ok false, s) := by
    simp [claimKey, h.acquireAdvisoryLock, h.findByKey, hfind, hterminal]
  simp only [retryUnderKey, hclaim]

/-- A first call reaches the provider with its record in progress. -/
theorem retryUnderKey_empty (h : Answers env) : ∃ s : SettlementStore,
    s.submissions = [] ∧ s.attempts = [] ∧
      (∃ record, s.findByKey operation.tenantId operation.idempotencyKey = some record ∧
        record.currentState = .inProgress ∧ record.operationId = operation.id) ∧
      retryUnderKey ports settler env operation SettlementStore.empty =
        submitAttempt ports env operation s := by
  obtain ⟨records, hinsert⟩ : ∃ records,
      SettlementStore.empty.records.insert? (newRecord env operation) = some records := by
    simp [SettlementStore.empty, Table.empty, Table.insert?]
  have hfind : records.find? operation.idempotencyKey = some (newRecord env operation) := by
    rw [Table.find?_insert? hinsert]
    exact if_pos rfl
  refine ⟨_, rfl, rfl, ?_, retryUnderKey_new h rfl hinsert⟩
  simp [SettlementStore.findByKey, find?_updateState, hfind, newRecord,
    IdempotencyRecord.moveTo]

end Attempt

theorem answers_first : Answers firstAttempt := ⟨rfl, rfl, rfl, rfl, rfl, rfl, rfl, by decide⟩

theorem answers_second : Answers secondAttempt := ⟨rfl, rfl, rfl, rfl, rfl, rfl, rfl, by decide⟩

/-- The first attempt, but its audit event is not recorded. -/
def unrecordedAttempt : PortOutcomes := { firstAttempt with recordEvent := none }

theorem answers_unrecorded : Answers unrecordedAttempt :=
  ⟨rfl, rfl, rfl, rfl, rfl, rfl, rfl, by decide⟩

/-- Exclusiveness fails: the second call submits what the provider has settled. -/
theorem settled_twice : ∃ s, run (step ports) SettlementStore.empty unrecorded = some s ∧
    ¬ NoResubmission s.submissions := by
  obtain ⟨s₁, hnone, -, ⟨record, hfind, hstate, hid⟩, hfirst⟩ :=
    retryUnderKey_empty answers_unrecorded
  have hunrecorded : (submitAttempt ports unrecordedAttempt operation s₁).2 =
      submit unrecordedAttempt operation s₁ := rfl
  have hsecond := retryUnderKey_again answers_second (s := submit unrecordedAttempt operation s₁)
    hfind (by rw [hstate]; decide) hid
  have hsubmissions : (submit unrecordedAttempt operation s₁).submissions =
      [⟨operation.idempotencyKey, operation.id, unrecordedAttempt.submitSettlement⟩] :=
    congrArg (· ++ [_]) hnone
  refine ⟨(retryUnderKey ports settler secondAttempt operation
    (retryUnderKey ports settler unrecordedAttempt operation SettlementStore.empty).2).2, ?_, ?_⟩
  · simp only [unrecorded, run, step_operation, unrecordedAttempt]
  · rw [hfirst, hunrecorded, hsecond, NoResubmission, (submitAttempt_spec _ _ _ _).1,
      SettlementStore.updateState, hsubmissions, List.singleton_append, List.pairwise_pair]
    exact fun hdistinct => hdistinct rfl rfl

def recorded : List Call :=
  [⟨settler, firstAttempt, operation⟩, ⟨settler, secondAttempt, operation⟩]

theorem uuidFormat_event : ports.uuidFormat "c56a4180-65aa-42ec-a945-5fd21dec0538" = true :=
  (isUuidV4_ofList _).trans (by decide)

theorem uuidFormat_first : ports.uuidFormat "7d9f1d1c-2f0b-4b7e-9d39-6c1f2a0e8b44" = true :=
  (isUuidV4_ofList _).trans (by decide)

theorem uuidFormat_second : ports.uuidFormat "e2a1b9c0-5d3f-4a6e-8c7b-90d1e2f3a4b5" = true :=
  (isUuidV4_ofList _).trans (by decide)

theorem validateRetryAttempt_succeeds {retryAttemptId : String} {operation' : SettlementOperation}
    (hid : ports.uuidFormat retryAttemptId = true) (hsame : operation'.id = operation.id)
    (hcount : isIntegerIn 1 5 (operation'.attemptCount + 1) = true) (result : AttemptResult) :
    validateRetryAttempt ports (retryAttempt (succeeds retryAttemptId) operation' result
      "c56a4180-65aa-42ec-a945-5fd21dec0538") = true := by
  have hdelay : isIntegerIn 0 60000 1200 = true := by decide +kernel
  simp only [validateRetryAttempt, retryAttempt, succeeds, hid, hsame, uuidFormat_id, hcount, hdelay,
    uuidFormat_event, Bool.and_self]

/-- The store after the first attempt. -/
theorem submitAttempt_first {s : SettlementStore} (hattempts : s.attempts = []) :
    submitAttempt ports firstAttempt operation s =
      (.ok (updatedOperation firstAttempt operation .succeeded),
        { submit firstAttempt operation s with
          audit := s.audit ++ [auditEvent operation .succeeded]
          attempts := [retryAttempt firstAttempt operation ⟨.succeeded, none, none, none⟩
            "c56a4180-65aa-42ec-a945-5fd21dec0538"] }.updateState operation.tenantId
          operation.idempotencyKey .succeeded (some firstAttempt.completedAt)) := by
  have hresult : attemptResult ports operation firstAttempt.submitSettlement =
      ⟨.succeeded, none, none, none⟩ := rfl
  have hvalid : validateRetryAttempt ports (retryAttempt firstAttempt operation
      ⟨.succeeded, none, none, none⟩ "c56a4180-65aa-42ec-a945-5fd21dec0538") = true :=
    validateRetryAttempt_succeeds uuidFormat_first rfl (by decide +kernel) _
  have hevent : firstAttempt.recordEvent = some "c56a4180-65aa-42ec-a945-5fd21dec0538" := rfl
  have hinsert : firstAttempt.insertAttempt = .done := rfl
  have hfinal : firstAttempt.finalState = .done := rfl
  have hterminal : SettlementRetryState.succeeded.isTerminal := by decide
  simp [submitAttempt, hresult, recordAttempt, hevent, hvalid, perform, hinsert,
    SettlementStore.insertAttempt, submit, hattempts, commitState, committedState, updateState,
    hfinal, hterminal]

/-- The first attempt leaves a record that has succeeded, and one attempt and submission. -/
theorem retryUnderKey_first : ∃ s : SettlementStore,
    retryUnderKey ports settler firstAttempt operation SettlementStore.empty =
        (.ok (updatedOperation firstAttempt operation .succeeded), s) ∧
      s.submissions.length = 1 ∧
      s.attempts = [retryAttempt firstAttempt operation ⟨.succeeded, none, none, none⟩
        "c56a4180-65aa-42ec-a945-5fd21dec0538"] ∧
      ∃ record, s.findByKey operation.tenantId operation.idempotencyKey = some record ∧
        record.currentState = .succeeded := by
  obtain ⟨s, hnone, hattempts, ⟨record, hfind, -, -⟩, hfirst⟩ := retryUnderKey_empty answers_first
  refine ⟨_, hfirst.trans (submitAttempt_first hattempts), ?_, rfl, ?_⟩
  · simp [SettlementStore.updateState, submit, hnone]
  · obtain ⟨hfind, htenant⟩ := findByKey_eq_some hfind
    simp [SettlementStore.findByKey, find?_updateState, submit, hfind, IdempotencyRecord.moveTo,
      htenant]

theorem settled_once : ∃ s, run (step ports) SettlementStore.empty recorded = some s ∧
    s.submissions.length = 1 ∧ NoResubmission s.submissions := by
  obtain ⟨s₁, hfirst, hlength, hattempts, record, hfind, hstate⟩ := retryUnderKey_first
  have hsecond := retryUnderKey_terminal answers_second hfind (by rw [hstate]; decide)
  have hrun : run (step ports) SettlementStore.empty recorded = some s₁ := by
    simp only [recorded, run, step_operation, hfirst, hsecond]
  have hrecorded : Along (step ports) (Recorded ports) SettlementStore.empty recorded := by
    simp only [recorded, Along, step_operation, hfirst]
    refine ⟨fun _ => ⟨⟨_, rfl, validateRetryAttempt_succeeds uuidFormat_first rfl
      (by decide +kernel) _⟩, rfl, by simp [SettlementStore.empty], by decide⟩,
      fun _ => ⟨⟨_, rfl, validateRetryAttempt_succeeds uuidFormat_second rfl
      (by decide +kernel) _⟩, rfl, ?_, by decide⟩, trivial⟩
    rw [hattempts]
    simp [retryAttempt, firstAttempt, secondAttempt, succeeds]
  exact ⟨s₁, hrun, hlength, no_double_settlement ports recorded SettlementStore.empty _
    rfl hrecorded hrun⟩

end Transfer

end Coivitas.Policy.Settlement
